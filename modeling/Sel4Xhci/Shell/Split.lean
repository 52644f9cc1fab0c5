import Sel4Xhci.Semantics.CString
import Sel4Xhci.Semantics.Words

/-!
# The words of a command line

`split` of the shell cuts a line into words where it stands: it overwrites the character
behind a word with a NUL and notes where the word starts.

## Main definitions

* `split` — the code
* `lineWords` — the words of a line, as a function on texts

## Main results

* `split_strings` — what `split` leaves in `argv` are the words of the line, in order
* `split_render` — `split` undoes quoting
-/

set_option autoImplicit false

namespace Sel4Xhci.Shell

open Semantics.CString Semantics.Words

/-- The states of the scanner. -/
inductive States
  | dull
  | inWord
  | inString
  deriving DecidableEq, Repr

/-- What a scan leaves: the buffer, the pointers in `argv` as offsets into the buffer, and
how many characters it has looked at. -/
structure Scanned where
  buffer : List Byte
  argv : List ℕ
  examined : ℕ
  deriving DecidableEq, Repr

/-- The scan has gone on behind a character that now is `b`. -/
def Scanned.behind (b : Byte) (r : Scanned) : Scanned := { r with buffer := b :: r.buffer }

/-- `'"'`. -/
abbrev quoteChar : Byte := 0x22#8

/-- The end of `split`: a word that is not over yet is entered, if there is room. -/
def finish (argvSize : ℕ) (state : States) (startOfWord : ℕ) (argv : List ℕ) : List ℕ :=
  if state ≠ .dull ∧ argv.length < argvSize then argv ++ [startOfWord] else argv

/-- The loop of `split`, with `p` at the head of the given bytes. -/
def splitLoop (argvSize : ℕ) : List Byte → ℕ → States → ℕ → List ℕ → Scanned
  | [], p, state, startOfWord, argv => ⟨[], finish argvSize state startOfWord argv, p⟩
  | c :: bytes, p, state, startOfWord, argv =>
    if argv.length < argvSize then
      if c ≠ 0#8 then
        match state with
        | .dull =>
          if isspace c then
            (splitLoop argvSize bytes (p + 1) .dull startOfWord argv).behind c
          else if c = quoteChar then
            (splitLoop argvSize bytes (p + 1) .inString (p + 1) argv).behind c
          else
            (splitLoop argvSize bytes (p + 1) .inWord p argv).behind c
        | .inString =>
          if c = quoteChar then
            (splitLoop argvSize bytes (p + 1) .dull startOfWord (argv ++ [startOfWord])).behind 0#8
          else
            (splitLoop argvSize bytes (p + 1) .inString startOfWord argv).behind c
        | .inWord =>
          if isspace c then
            (splitLoop argvSize bytes (p + 1) .dull startOfWord (argv ++ [startOfWord])).behind 0#8
          else
            (splitLoop argvSize bytes (p + 1) .inWord startOfWord argv).behind c
      else ⟨c :: bytes, finish argvSize state startOfWord argv, p + 1⟩
    else ⟨c :: bytes, finish argvSize state startOfWord argv, p⟩

/-- `split`; it returns the length of `argv`. -/
def split (buffer : List Byte) (argvSize : ℕ) : Scanned :=
  splitLoop argvSize buffer 0 .dull 0 []

/-- The strings that pointers into a buffer name. -/
def stringsAt (buffer : List Byte) (argv : List ℕ) : List (List Byte) :=
  argv.map fun start => string (buffer.drop start)

/-- The strings that a scan has left in `argv`. -/
def Scanned.strings (r : Scanned) : List (List Byte) := stringsAt r.buffer r.argv

/-- The words of a line. -/
def lineWords (line : List Byte) : List (List Byte) := words isspace quoteChar line

/-! ## The words that `split` notes -/

/-- The state of the code's scanner against a scan of texts: the word in progress lies
between `start_of_word` and `p`. The bytes `before` are those that `p` has passed. -/
inductive Reading (before : List Byte) (startOfWord : ℕ) : States → Mode Byte → Prop
  | dull : Reading before startOfWord .dull .dull
  | inWord (hstart : startOfWord ≤ before.length) (hnul : 0#8 ∉ before.drop startOfWord) :
      Reading before startOfWord .inWord (.inWord (before.drop startOfWord))
  | inString (hstart : startOfWord ≤ before.length) (hnul : 0#8 ∉ before.drop startOfWord) :
      Reading before startOfWord .inString (.inString (before.drop startOfWord))

section Loop

variable {n start : ℕ} {before s rest : List Byte} {state : States} {mode : Mode Byte}
  {argv : List ℕ}

/-- A word in progress that is followed by a NUL can be read back from the buffer. -/
theorem string_drop_append (hstart : start ≤ before.length) (hnul : 0#8 ∉ before.drop start)
    (hrest : ∀ b ∈ rest.head?, b = 0#8) :
    string ((before ++ rest).drop start) = before.drop start := by
  rw [List.drop_append_of_le_length hstart, string_append hnul hrest]

/-- A word in progress grows by the next character. -/
theorem drop_grows (hstart : start ≤ before.length) (hnul : 0#8 ∉ before.drop start) {c : Byte}
    (hc : c ≠ 0#8) : (before ++ [c]).drop start = before.drop start ++ [c] ∧
      start ≤ (before ++ [c]).length ∧ 0#8 ∉ (before ++ [c]).drop start := by
  have hdrop : (before ++ [c]).drop start = before.drop start ++ [c] :=
    List.drop_append_of_le_length hstart
  refine ⟨hdrop, by rw [List.length_append]; omega, ?_⟩
  rw [hdrop]
  simp [hnul, Ne.symm hc]

/-- A scan behind the bytes `before` adds to `argv` pointers that name the words `ws`, as far
as there is room for them. -/
def Notes (n : ℕ) (r : Scanned) (before : List Byte) (argv : List ℕ) (ws : List (List Byte)) :
    Prop :=
  ∃ new, r.argv = argv ++ new ∧ stringsAt (before ++ r.buffer) new = ws.take (n - argv.length)

/-- A character that ends no word adds nothing. -/
theorem Notes.behind {r : Scanned} {ws : List (List Byte)} {b : Byte}
    (h : Notes n r (before ++ [b]) argv ws) : Notes n (r.behind b) before argv ws := by
  obtain ⟨new, hargv, hnames⟩ := h
  exact ⟨new, hargv, by simpa [Scanned.behind] using hnames⟩

/-- A NUL behind the word in progress adds this word, if there is room. -/
theorem Notes.word {r : Scanned} {ws : List (List Byte)} (hroom : argv.length < n)
    (hstart : start ≤ before.length) (hnul : 0#8 ∉ before.drop start)
    (h : Notes n r (before ++ [0#8]) (argv ++ [start]) ws) :
    Notes n (r.behind 0#8) before argv (before.drop start :: ws) := by
  obtain ⟨new, hargv, hnames⟩ := h
  have hless : n - argv.length = n - (argv ++ [start]).length + 1 := by
    rw [List.length_append, List.length_singleton]
    omega
  refine ⟨start :: new, by simpa [Scanned.behind] using hargv, ?_⟩
  rw [hless, List.take_succ_cons]
  rw [stringsAt, List.map_cons, Scanned.behind, string_drop_append hstart hnul (by simp)]
  exact congrArg _ (by simpa [stringsAt] using hnames)

/-- At the end of the line the word in progress, if there is one, is the last. -/
theorem notes_finish (h : Reading before start state mode) (hrest : ∀ b ∈ rest.head?, b = 0#8)
    (p : ℕ) :
    Notes n ⟨rest, finish n state start argv, p⟩ before argv (scan isspace quoteChar mode []) := by
  by_cases hroom : argv.length < n
  · have hlast (word : List Byte) : [word].take (n - argv.length) = [word] :=
      List.take_of_length_le (by simp; omega)
    cases h with
    | dull => exact ⟨[], by simp [finish], by simp [scan, stringsAt]⟩
    | inWord hstart hnul =>
      refine ⟨[start], by simp [finish, hroom], ?_⟩
      rw [scan, hlast]
      exact congrArg (fun word => [word]) (string_drop_append hstart hnul hrest)
    | inString hstart hnul =>
      refine ⟨[start], by simp [finish, hroom], ?_⟩
      rw [scan, hlast]
      exact congrArg (fun word => [word]) (string_drop_append hstart hnul hrest)
  · have hfull : n - argv.length = 0 := by omega
    exact ⟨[], by simp [finish, hroom], by simp [hfull, stringsAt]⟩

/-- At a NUL, at the end of the memory, or with `argv` full, the loop stops. -/
theorem splitLoop_stops (hrest : ∀ b ∈ rest.head?, b = 0#8) (n p : ℕ) (state : States)
    (start : ℕ) (argv : List ℕ) :
    ∃ examined ≤ p + 1, splitLoop n rest p state start argv =
      ⟨rest, finish n state start argv, examined⟩ := by
  cases rest with
  | nil => exact ⟨p, by omega, rfl⟩
  | cons b rest =>
    obtain rfl : b = 0#8 := hrest b rfl
    by_cases hroom : argv.length < n
    · exact ⟨p + 1, le_rfl, by simp [splitLoop, hroom]⟩
    · exact ⟨p, by omega, by simp [splitLoop, hroom]⟩

/-- The loop notes the words that the rest of the line adds. -/
theorem splitLoop_notes (hs : 0#8 ∉ s) (hrest : ∀ b ∈ rest.head?, b = 0#8)
    (h : Reading before start state mode) (argv : List ℕ) :
    Notes n (splitLoop n (s ++ rest) before.length state start argv) before argv
      (scan isspace quoteChar mode s) := by
  -- What `p` has passed goes over to `before`, one character at a time.
  induction s generalizing before state start mode argv with
  | nil =>
    obtain ⟨p, -, hstops⟩ := splitLoop_stops hrest n before.length state start argv
    rw [List.nil_append, hstops]
    exact notes_finish h hrest p
  | cons c s ih =>
    simp only [List.mem_cons, not_or] at hs
    obtain ⟨hc, hs⟩ := hs
    replace hc : c ≠ 0#8 := Ne.symm hc
    by_cases hroom : argv.length < n
    swap
    · have hfull : n - argv.length = 0 := by omega
      exact ⟨[], by simp [splitLoop, hroom, finish], by simp [hfull, stringsAt]⟩
    have hp (b : Byte) : before.length + 1 = (before ++ [b]).length := by simp
    cases h with
    | dull =>
      simp only [List.cons_append, splitLoop, if_pos hroom, if_pos hc, scan]
      by_cases hblank : isspace c = true
      · rw [if_pos hblank, if_pos hblank, hp c]
        exact (ih hs .dull argv).behind
      · rw [if_neg hblank, if_neg hblank]
        by_cases hquote : c = quoteChar
        · -- The word starts behind the quote.
          rw [if_pos hquote, if_pos hquote, hp c]
          have hnone : (before ++ [c]).drop (before ++ [c]).length = [] := List.drop_length
          have hreading := Reading.inString (le_refl (before ++ [c]).length) (by rw [hnone]; simp)
          rw [hnone] at hreading
          exact (ih hs hreading argv).behind
        · rw [if_neg hquote, if_neg hquote, hp c]
          have hone : (before ++ [c]).drop before.length = [c] := List.drop_left
          have hstart : before.length ≤ (before ++ [c]).length := by simp
          have hreading := Reading.inWord hstart (by rw [hone]; simpa using Ne.symm hc)
          rw [hone] at hreading
          exact (ih hs hreading argv).behind
    | inWord hstart hnul =>
      simp only [List.cons_append, splitLoop, if_pos hroom, if_pos hc, scan]
      by_cases hblank : isspace c = true
      · rw [if_pos hblank, if_pos hblank, hp 0#8]
        exact .word hroom hstart hnul (ih hs .dull _)
      · obtain ⟨hdrop, hstart', hnul'⟩ := drop_grows hstart hnul hc
        rw [if_neg hblank, if_neg hblank, hp c, ← hdrop]
        exact (ih hs (.inWord hstart' hnul') argv).behind
    | inString hstart hnul =>
      simp only [List.cons_append, splitLoop, if_pos hroom, if_pos hc, scan]
      by_cases hquote : c = quoteChar
      · rw [if_pos hquote, if_pos hquote, hp 0#8]
        exact .word hroom hstart hnul (ih hs .dull _)
      · obtain ⟨hdrop, hstart', hnul'⟩ := drop_grows hstart hnul hc
        rw [if_neg hquote, if_neg hquote, hp c, ← hdrop]
        exact (ih hs (.inString hstart' hnul') argv).behind

theorem push_le {p : ℕ} (hstart : start ≤ p) (hargv : ∀ a ∈ argv, a ≤ p) :
    ∀ a ∈ argv ++ [start], a ≤ p := by
  intro a ha
  rcases List.mem_append.mp ha with ha | ha
  · exact hargv a ha
  · obtain rfl := List.mem_singleton.mp ha
    exact hstart

theorem finish_le {p : ℕ} (hstart : start ≤ p) (hargv : ∀ a ∈ argv, a ≤ p) :
    ∀ a ∈ finish n state start argv, a ≤ p := by
  unfold finish
  split_ifs
  · exact push_le hstart hargv
  · exact hargv

/-- The loop writes only within the line, looks no further than its NUL, and all words start
in the line. -/
theorem splitLoop_frame (hrest : ∀ b ∈ rest.head?, b = 0#8) (s : List Byte) (p : ℕ)
    (state : States) {start : ℕ} (hstart : start ≤ p) {argv : List ℕ} (hargv : ∀ a ∈ argv, a ≤ p) :
    ∃ s', (splitLoop n (s ++ rest) p state start argv).buffer = s' ++ rest ∧
      s'.length = s.length ∧
      (splitLoop n (s ++ rest) p state start argv).examined ≤ p + s.length + 1 ∧
      ∀ a ∈ (splitLoop n (s ++ rest) p state start argv).argv, a ≤ p + s.length := by
  induction s generalizing p state start argv with
  | nil =>
    obtain ⟨examined, hexamined, hstops⟩ := splitLoop_stops hrest n p state start argv
    rw [List.nil_append, hstops]
    exact ⟨[], rfl, rfl, hexamined, finish_le hstart hargv⟩
  | cons c s ih =>
    have hpush : ∀ a ∈ argv ++ [start], a ≤ p + 1 := fun a ha =>
      (push_le hstart hargv a ha).trans p.le_succ
    have hbehind (b : Byte) (state : States) (start : ℕ) (argv : List ℕ) (hstart : start ≤ p + 1)
        (hargv : ∀ a ∈ argv, a ≤ p + 1) :
        let r := (splitLoop n (s ++ rest) (p + 1) state start argv).behind b
        ∃ s', r.buffer = s' ++ rest ∧ s'.length = (c :: s).length ∧
          r.examined ≤ p + (c :: s).length + 1 ∧ ∀ a ∈ r.argv, a ≤ p + (c :: s).length := by
      obtain ⟨s', hbuffer, hlength, hexamined, hall⟩ := ih (p + 1) state hstart hargv
      refine ⟨b :: s', by simp [Scanned.behind, hbuffer], by simp [hlength], ?_, fun a ha => ?_⟩
      · simp only [Scanned.behind, List.length_cons]
        omega
      · have hle := hall a ha
        rw [List.length_cons]
        omega
    have hstop (e : ℕ) (he : e ≤ p + 1) :
        let r : Scanned := ⟨c :: (s ++ rest), finish n state start argv, e⟩
        ∃ s', r.buffer = s' ++ rest ∧ s'.length = (c :: s).length ∧
          r.examined ≤ p + (c :: s).length + 1 ∧ ∀ a ∈ r.argv, a ≤ p + (c :: s).length := by
      refine ⟨c :: s, rfl, rfl, by simp only [List.length_cons]; omega, fun a ha => ?_⟩
      exact (finish_le hstart hargv a ha).trans (Nat.le_add_right _ _)
    have hold : ∀ a ∈ argv, a ≤ p + 1 := fun a ha => (hargv a ha).trans p.le_succ
    -- Every branch goes on behind the character, or stops at it.
    rw [List.cons_append]
    cases state with
    | dull =>
      simp only [splitLoop]
      split_ifs
      · exact hbehind _ _ _ _ (hstart.trans p.le_succ) hold
      · exact hbehind _ _ _ _ le_rfl hold
      · exact hbehind _ _ _ _ p.le_succ hold
      · exact hstop _ le_rfl
      · exact hstop _ p.le_succ
    | inString =>
      simp only [splitLoop]
      split_ifs
      · exact hbehind _ _ _ _ (hstart.trans p.le_succ) hpush
      · exact hbehind _ _ _ _ (hstart.trans p.le_succ) hold
      · exact hstop _ le_rfl
      · exact hstop _ p.le_succ
    | inWord =>
      simp only [splitLoop]
      split_ifs
      · exact hbehind _ _ _ _ (hstart.trans p.le_succ) hpush
      · exact hbehind _ _ _ _ (hstart.trans p.le_succ) hold
      · exact hstop _ le_rfl
      · exact hstop _ p.le_succ

end Loop

section Split

/-- `split` leaves everything from the NUL on as it is, and stays in the line. -/
theorem split_frame (mem : List Byte) (argvSize : ℕ) :
    ∃ s' rest, mem = string mem ++ rest ∧ (∀ b ∈ rest.head?, b = 0#8) ∧
      (split mem argvSize).buffer = s' ++ rest ∧ s'.length = strlen mem ∧
      (split mem argvSize).examined ≤ strlen mem + 1 ∧
      ∀ a ∈ (split mem argvSize).argv, a ≤ strlen mem := by
  obtain ⟨rest, hmem, hrest⟩ := exists_eq_string_append mem
  obtain ⟨s', hbuffer, hlength, hexamined, hargv⟩ := splitLoop_frame (n := argvSize) hrest
    (string mem) 0 .dull le_rfl (List.forall_mem_nil (· ≤ 0))
  rw [← hmem] at hbuffer hexamined hargv
  rw [Nat.zero_add] at hexamined
  simp only [Nat.zero_add] at hargv
  exact ⟨s', rest, hmem, hrest, hbuffer, hlength, hexamined, hargv⟩

theorem split_length (mem : List Byte) (argvSize : ℕ) :
    (split mem argvSize).buffer.length = mem.length := by
  obtain ⟨s', rest, hmem, -, hbuffer, hlength, -⟩ := split_frame mem argvSize
  have hwhole := congrArg List.length hmem
  rw [List.length_append] at hwhole
  rw [hbuffer, List.length_append, hlength, strlen, hwhole]

/-- Whoever follows a pointer in `argv` to the end of the string stays in the line. -/
theorem strlen_drop_split {mem : List Byte} {argvSize start : ℕ}
    (hstart : start ∈ (split mem argvSize).argv) :
    start + strlen ((split mem argvSize).buffer.drop start) ≤ strlen mem := by
  obtain ⟨s', rest, -, hrest, hbuffer, hlength, -, hargv⟩ := split_frame mem argvSize
  have hle := hargv start hstart
  have hword := strlen_append_le (s'.drop start) hrest
  rw [List.length_drop] at hword
  rw [hbuffer, List.drop_append_of_le_length (by omega)]
  omega

/-- No word ends at the first character. -/
theorem split_head? (mem : List Byte) (argvSize : ℕ) :
    (split mem argvSize).buffer.head? = mem.head? := by
  cases mem with
  | nil => rfl
  | cons c mem =>
    simp only [split, splitLoop]
    split_ifs <;> rfl

/-- `split` notes the words of a line, as many as there is room for, and they can be read
back from the buffer as strings. -/
theorem split_strings (mem : List Byte) (argvSize : ℕ) :
    (split mem argvSize).strings = (lineWords (string mem)).take argvSize := by
  obtain ⟨rest, hmem, hrest⟩ := exists_eq_string_append mem
  have hnotes : Notes argvSize (split (string mem ++ rest) argvSize) [] []
      (lineWords (string mem)) :=
    splitLoop_notes (nul_notMem_string mem) hrest (.dull : Reading [] 0 .dull .dull) []
  rw [← hmem] at hnotes
  obtain ⟨new, hargv, hnames⟩ := hnotes
  rw [List.nil_append] at hargv
  rw [Scanned.strings, hargv]
  exact hnames

/-- `split` undoes quoting. -/
theorem split_render {pieces : List (List Byte × Piece Byte)} {trailing : List Byte}
    (hwritten : WellWritten isspace quoteChar pieces trailing)
    (hnul : 0#8 ∉ render quoteChar pieces trailing) (tail : List Byte) (argvSize : ℕ) :
    let r := split (render quoteChar pieces trailing ++ 0#8 :: tail) argvSize
    r.argv.length = min argvSize pieces.length ∧
      ∀ k < min argvSize pieces.length,
        (r.argv[k]?).map (fun start => string (r.buffer.drop start)) =
          (pieces[k]?).map fun p => p.2.word := by
  intro r
  have hstrings : r.strings = (pieces.map fun p => p.2.word).take argvSize := by
    rw [split_strings, string_append hnul (by simp), lineWords,
      words_render (by decide) hwritten]
  constructor
  · have hlength := congrArg List.length hstrings
    simpa [Scanned.strings, stringsAt] using hlength
  · intro k hk
    have hnth := congrArg (fun ws : List (List Byte) => ws[k]?) hstrings
    have hroom : k < argvSize := by omega
    simpa [Scanned.strings, stringsAt, List.getElem?_take_of_lt hroom] using hnth

/-- Three words, one of them empty and one with blanks, and room for two of them. -/
theorem split_render_three :
    let pieces : List (List Byte × Piece Byte) :=
      [([], .bare [0x61#8]), ([0x20#8], .quoted []), ([0x09#8], .quoted [0x62#8, 0x20#8])]
    let r := split (render quoteChar pieces [] ++ [0#8]) 2
    r.argv.length = 2 ∧ ∀ k < 2, (r.argv[k]?).map (fun start => string (r.buffer.drop start)) =
      (pieces[k]?).map fun p => p.2.word := by
  intro pieces r
  have hwritten : WellWritten isspace quoteChar pieces [] :=
    ⟨by decide, by decide, by decide, by decide⟩
  exact split_render hwritten (by decide) [] 2

end Split

end Sel4Xhci.Shell
