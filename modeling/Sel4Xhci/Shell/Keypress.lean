import Sel4Xhci.Ring.Basic
import Sel4Xhci.Semantics.Loop
import Sel4Xhci.Shell.Console
import Sel4Xhci.Shell.Keyboard

/-!
# Reports in the ring

`handle_keypress` takes reports from the ring until it finds none. A report of too many keys, or
one from which it reads no key, is not skipped: there the loop breaks, and what is behind it in
the ring waits for the next notification.

## Main definitions

* `Keyboard`, `KeyState` — what the handler finds outside the shell, and what it works on
* `handleKeypress` — the code
* `LeavesNone` — all reports have been examined

## Main results

* `keypressLoop_rounds` — the loop ends
* `keypressLoop_spec` — how far it gets
* `leavesNone_iff` — when it gets to the end
-/

set_option autoImplicit false

namespace Sel4Xhci.Shell

open Semantics Semantics.CString Semantics.Program Semantics.Loop Umass Sel4Xhci.Ring

variable {RQ : Fifo BlkReq} {SQ : Fifo Answer}

/-- The two keymaps, `LAYOUT`, and the memory at the address of a report. -/
structure Keyboard where
  uk : ℕ → Keysym
  us : ℕ → Keysym
  layout : Layout
  reportAt : BitVec 64 → Report

variable (RQ SQ) in
/-- The shell, `keysDown`, and `kbd_buffer_ring->used_ring`; and a record of the addresses of the
reports that have been looked at. -/
structure KeyState where
  shell : ShellState RQ SQ
  keysDown : KeysDown
  ring : RingBuffer
  examined : List (BitVec 64)

/-- A function that uses the shell only. -/
def onShell {α : Type} (p : Code (ShellState RQ SQ) α) : Code (KeyState RQ SQ) α :=
  Program.focus (·.shell) (fun k s => { k with shell := s }) p

theorem onShell_returns {α : Type} {p : Code (ShellState RQ SQ) α} {k : KeyState RQ SQ} {a : α}
    {s : ShellState RQ SQ} (h : Program.Returns p k.shell a s) :
    Program.Returns (onShell p) k a { k with shell := s } := h.focus

/-- A function that uses `keysDown` only. -/
def onKeysDown {α : Type} (p : Code KeysDown α) : Code (KeyState RQ SQ) α :=
  Program.focus (·.keysDown) (fun k keysDown => { k with keysDown := keysDown }) p

/-- `KS_c`. -/
abbrev KS_c : Keysym := 0x63#16

/-- `0x%x`. -/
def hex (b : Byte) : String := "0x" ++ String.ofList (Nat.toDigits 16 b.toNat)

/-- `print_fatal`. -/
def printFatal {σ : Type} (message : String) : Code σ Unit := do
  printf "shell|FATAL: "
  printf message

/-- The case of `KEYBOARD_TEST`. -/
def printReport {σ : Type} (report : Report) : Code σ Unit := do
  let b₀ ← readReport report 0
  let b₁ ← readReport report 1
  let b₂ ← readReport report 2
  let b₃ ← readReport report 3
  let b₄ ← readReport report 4
  let b₅ ← readReport report 5
  printf (String.intercalate " " ([b₀, b₁, b₂, b₃, b₄, b₅].map hex) ++ "\n")
  printf "\r"
  printf "\x1b[s"
  printf (String.ofList (List.replicate 30 ' '))
  printf "\x1b[u"

/-- The `switch` on `console_state`. -/
def handleKeysym (report : Report) (keypress : Keysym) : Code (ShellState RQ SQ) Unit := do
  let s ← Program.get
  match s.consoleState with
  | .snake => onPeriphery (Program.modify fun d => { d with kbdBuffer := keyByte keypress })
  | .console => handleConsoleKey keypress
  | .mouseTest =>
    let b ← readReport report 0
    Program.when (b &&& 0x01#8 ≠ 0#8 ∧ keypress = KS_c) do
      onPeriphery (setConsole .console)
      printf "\nEnd of mouse test\n"
      onEditor clearPrompt
  | .keyboardTest => printReport report
  | _ => printFatal "Unrecognised keyboard state\n"

/-- The body of the loop, behind `driver_dequeue`: whether the loop goes on. -/
def examineReport (kb : Keyboard) (report : Report) : Code (KeyState RQ SQ) Bool := do
  let b ← readReport report 2
  if b = 0x01#8 then pure false
  else
    let keyPressed ← onKeysDown (detectKey report)
    if keyPressed = 0#8 then pure false
    else
      let shiftOrControl ← readReport report 0
      onShell (handleKeysym report (keysymOf kb.uk kb.us kb.layout keyPressed shiftOrControl))
      pure true

/-- One round of the loop: whether it goes on. -/
def keypressRound (kb : Keyboard) : Code (KeyState RQ SQ) Bool := do
  let k ← Program.get
  let (ret, buffer, ring) := driverDequeue k.ring ⟨0#64, 0#32, .client 0#64⟩
  Program.modify fun k => { k with ring := ring }
  if ret = 0 then
    Program.modify fun k => { k with examined := k.examined ++ [buffer.encodedAddr] }
    examineReport kb (kb.reportAt buffer.encodedAddr)
  else pure false

/-- The loop, for so many rounds at most. -/
def keypressLoop (kb : Keyboard) : ℕ → Code (KeyState RQ SQ) Unit
  | 0 => Program.stop .spins
  | rounds + 1 => do
    let k ← Program.get
    let (ret, buffer, ring) := driverDequeue k.ring ⟨0#64, 0#32, .client 0#64⟩
    Program.modify fun k => { k with ring := ring }
    if ret = 0 then
      Program.modify fun k => { k with examined := k.examined ++ [buffer.encodedAddr] }
      let goesOn ← examineReport kb (kb.reportAt buffer.encodedAddr)
      if goesOn then keypressLoop kb rounds else pure ()
    else pure ()

/-- `handle_keypress`. A ring never holds as many reports as it has slots, so the loop has ended
by then. -/
def handleKeypress (kb : Keyboard) : Code (KeyState RQ SQ) Unit := keypressLoop kb SIZE

/-! ## How far the loop gets -/

/-- All reports have been examined, in order, and the ring is empty. -/
structure LeavesNone (kb : Keyboard) (k : KeyState RQ SQ) (q : List BuffDesc) : Prop where
  empty : ringEmpty (handleKeypress kb k).state.ring = true
  examined : (handleKeypress kb k).state.examined = k.examined ++ q.map (·.encodedAddr)

/-- A key is read from the report: a new one, or else what is in front of the report. -/
def Presses (keysDown : KeysDown) (report : Report) : Prop :=
  (∃ i ∈ slots, NewIn keysDown report i) ∨ report (-1) ≠ 0#8

/-- The loop goes on behind a report. -/
def GoesOn (keysDown : KeysDown) (report : Report) : Prop :=
  report 2 ≠ 0x01#8 ∧ Presses keysDown report

instance (keysDown : KeysDown) (report : Report) : Decidable (Presses keysDown report) :=
  inferInstanceAs (Decidable (_ ∨ _))

instance (keysDown : KeysDown) (report : Report) : Decidable (GoesOn keysDown report) :=
  inferInstanceAs (Decidable (_ ∧ _))

/-- The reports that the descriptors of a queue point to. -/
def Keyboard.reports (kb : Keyboard) (q : List BuffDesc) : List Report :=
  q.map fun d => kb.reportAt d.encodedAddr

section Reports

variable {kb : Keyboard} {k : KeyState RQ SQ} {report : Report}

theorem pressedKey_ne_zero_iff (keysDown : KeysDown) (report : Report) :
    pressedKey keysDown report ≠ 0#8 ↔ Presses keysDown report := by
  rw [pressedKey]
  rcases notedSlot_spec report keysDown slots (-1) with ⟨i, hi, hnew, hnoted⟩ | ⟨hnone, hnoted⟩
  · rw [hnoted]
    exact iff_of_true hnew.1 (.inl ⟨i, hi, hnew⟩)
  · rw [hnoted]
    refine ⟨.inr, fun hpresses => hpresses.resolve_left ?_⟩
    rintro ⟨i, hi, hnew⟩
    exact hnone i hi hnew

/-- What becomes of a report: it is of too many keys, no key is read from it, or the shell handles
the keysym. -/
inductive Examined (kb : Keyboard) (report : Report) (k : KeyState RQ SQ) :
    Bool → KeyState RQ SQ → Prop
  | rollOver (hroll : report 2 = 0x01#8) : Examined kb report k false k
  | silent (hroll : report 2 ≠ 0x01#8) (hzero : pressedKey k.keysDown report = 0#8) :
      Examined kb report k false { k with keysDown := nextKeys report k.keysDown }
  | handled {shell : ShellState RQ SQ} (hroll : report 2 ≠ 0x01#8)
      (hzero : pressedKey k.keysDown report ≠ 0#8)
      (hshell : Returns (handleKeysym report (keysymOf kb.uk kb.us kb.layout
        (pressedKey k.keysDown report) (report 0))) k.shell () shell) :
      Examined kb report k true
        { k with keysDown := nextKeys report k.keysDown, shell := shell }

theorem onKeysDown_detectKey (report : Report) (k : KeyState RQ SQ) :
    Returns (onKeysDown (detectKey report)) k (pressedKey k.keysDown report)
      { k with keysDown := nextKeys report k.keysDown } := by
  obtain ⟨reads, hdetect, -⟩ := detectKey_eq report k.keysDown
  exact (Returns.of_run hdetect).focus

theorem readReport_returns {σ : Type} (report : Report) (i : ℤ) (s : σ) :
    Returns (readReport report i) s (report i) s := rfl

/-- The three ways to get through the body of the loop. -/
theorem examineReport_returns_iff {goesOn : Bool} {k' : KeyState RQ SQ} :
    Returns (examineReport kb report) k goesOn k' ↔ Examined kb report k goesOn k' := by
  rw [examineReport, (readReport_returns report 2 k).bind_iff]
  -- Two tests in a row, and each may end the loop.
  by_cases hroll : report 2 = 0x01#8
  · rw [if_pos hroll]
    constructor
    · intro h
      obtain ⟨rfl, rfl⟩ := (Returns.pure false k).unique h
      exact .rollOver hroll
    · intro h
      cases h with
      | rollOver => exact .pure false k
      | silent hne => exact absurd hroll hne
      | handled hne => exact absurd hroll hne
  rw [if_neg hroll, (onKeysDown_detectKey report k).bind_iff]
  by_cases hzero : pressedKey k.keysDown report = 0#8
  · rw [if_pos hzero]
    constructor
    · intro h
      obtain ⟨rfl, rfl⟩ := (Returns.pure false _).unique h
      exact .silent hroll hzero
    · intro h
      cases h with
      | rollOver heq => exact absurd heq hroll
      | silent => exact .pure false _
      | handled _ hne => exact absurd hzero hne
  rw [if_neg hzero, (readReport_returns report 0 _).bind_iff]
  constructor
  · intro h
    obtain ⟨⟨⟩, k₁, hrun, hgo⟩ := h.of_bind
    obtain ⟨shell, hshell, rfl⟩ := Returns.focus_iff.mp hrun
    obtain ⟨rfl, rfl⟩ := hgo.unique (.pure true _)
    exact .handled hroll hzero hshell
  · intro h
    cases h with
    | rollOver heq => exact absurd heq hroll
    | silent _ heq => exact absurd heq hzero
    | handled _ _ hshell =>
      refine Returns.bind (onShell_returns hshell) ?_
      exact .pure true _

end Reports

section Rounds

variable {kb : Keyboard} {k : KeyState RQ SQ} {report : Report}

/-- A report that has been examined: whether the loop goes on, and what is left as it was. -/
theorem Examined.spec {goesOn : Bool} {k' : KeyState RQ SQ} (h : Examined kb report k goesOn k') :
    (goesOn = true ↔ GoesOn k.keysDown report) ∧ k'.ring = k.ring ∧ k'.examined = k.examined ∧
      (goesOn = true → k'.keysDown = nextKeys report k.keysDown) := by
  cases h with
  | rollOver hroll => exact ⟨iff_of_false (by decide) fun h => h.1 hroll, rfl, rfl, nofun⟩
  | silent hroll hzero =>
    have hsilent : ¬ Presses k.keysDown report := fun hpresses =>
      (pressedKey_ne_zero_iff _ _).mpr hpresses hzero
    exact ⟨iff_of_false (by decide) fun h => hsilent h.2, rfl, rfl, nofun⟩
  | handled hroll hzero =>
    have hpresses := (pressedKey_ne_zero_iff _ _).mp hzero
    exact ⟨iff_of_true rfl ⟨hroll, hpresses⟩, rfl, rfl, fun _ => rfl⟩

/-- A round on an empty ring ends the loop. -/
theorem keypressRound_empty (h : ringEmpty k.ring = true) (kb : Keyboard) :
    keypressRound kb k = ⟨.ok false, [], k⟩ := by
  have hdequeue : driverDequeue k.ring ⟨0#64, 0#32, .client 0#64⟩ = (-1, _, k.ring) :=
    take_of_empty h _ _
  rw [keypressRound, bind_ok (get_run k), hdequeue]
  rfl

/-- A round takes the oldest report from the ring and examines it. -/
theorem keypressRound_taken (h : ringEmpty k.ring ≠ true) (kb : Keyboard) :
    keypressRound kb k = examineReport kb (kb.reportAt (k.ring.entry k.ring.readIdx).encodedAddr)
      { k with
        ring := { k.ring with readIdx := k.ring.readIdx + 1#32 }
        examined := k.examined ++ [(k.ring.entry k.ring.readIdx).encodedAddr] } := by
  have hdequeue : driverDequeue k.ring ⟨0#64, 0#32, .client 0#64⟩ =
      (0, _, { k.ring with readIdx := k.ring.readIdx + 1#32 }) := take_of_not_empty h _ _
  rw [keypressRound, bind_ok (get_run k), hdequeue, after_nil]
  dsimp only
  rw [bind_ok (modify_run _ k), after_nil, if_pos rfl, bind_ok (modify_run _ _), after_nil,
    outputs_encodedAddr]

theorem keypressRound_cons {d : BuffDesc} {rest : List BuffDesc} (h : k.ring.Stores (d :: rest)) :
    ∃ ring, ring.Stores rest ∧ ∀ kb : Keyboard, keypressRound kb k =
      examineReport kb (kb.reportAt d.encodedAddr)
        { k with ring := ring, examined := k.examined ++ [d.encodedAddr] } := by
  have hne : ringEmpty k.ring ≠ true := fun hempty =>
    List.cons_ne_nil d rest (h.ringEmpty_iff.mp hempty)
  obtain ⟨rest', hq, hrest⟩ := h.advance_readIdx (List.length_pos_of_ne_nil (List.cons_ne_nil _ _))
  obtain ⟨rfl, rfl⟩ := List.cons.inj hq
  exact ⟨_, hrest, keypressRound_taken hne⟩

/-- A round that returns has taken the oldest report and examined it. -/
theorem keypressRound_spec {d : BuffDesc} {rest : List BuffDesc} {goesOn : Bool}
    {k' : KeyState RQ SQ} (hround : Returns (keypressRound kb) k goesOn k')
    (h : k.ring.Stores (d :: rest)) :
    (goesOn = true ↔ GoesOn k.keysDown (kb.reportAt d.encodedAddr)) ∧ k'.ring.Stores rest ∧
      k'.examined = k.examined ++ [d.encodedAddr] ∧
      (goesOn = true → k'.keysDown = nextKeys (kb.reportAt d.encodedAddr) k.keysDown) := by
  obtain ⟨ring, hring, htaken⟩ := keypressRound_cons h
  rw [Returns, htaken] at hround
  obtain ⟨hgo, hkeep, hexamined, hkeys⟩ := (examineReport_returns_iff.mp (.of_run hround)).spec
  rw [hkeep]
  exact ⟨hgo, hring, hexamined, hkeys⟩

theorem keypressRound_stores {q : List BuffDesc} {goesOn : Bool} {k' : KeyState RQ SQ}
    (hround : Returns (keypressRound kb) k goesOn k') (h : k.ring.Stores q) :
    k'.ring.Stores q.tail := by
  cases q with
  | nil =>
    have hempty := keypressRound_empty (h.ringEmpty_iff.mpr rfl) kb
    obtain ⟨-, rfl⟩ := hround.unique (.of_run hempty)
    exact h
  | cons d rest => exact (keypressRound_spec hround h).2.1

/-- The loop makes one round, and goes on if the round says so. -/
theorem keypressLoop_succ (kb : Keyboard) (rounds : ℕ) :
    (keypressLoop kb (rounds + 1) : Code (KeyState RQ SQ) Unit) =
      keypressRound kb >>= fun goesOn => if goesOn then keypressLoop kb rounds else pure () := by
  rw [keypressLoop, keypressRound, Program.bind_assoc]
  congr 1
  funext k
  rcases driverDequeue k.ring ⟨0#64, 0#32, .client 0#64⟩ with ⟨ret, buffer, ring⟩
  dsimp only
  rw [Program.bind_assoc]
  congr 1
  funext _
  by_cases hret : ret = 0
  · rw [if_pos hret, if_pos hret, Program.bind_assoc]
  · rw [if_neg hret, if_neg hret, Program.pure_bind]
    rfl

/-- The loop takes the reports up to the first one at which it breaks. -/
theorem keypressLoop_spec {q : List BuffDesc} (h : k.ring.Stores q) {rounds : ℕ}
    (hrounds : q.length < rounds) {k' : KeyState RQ SQ}
    (hret : Returns (keypressLoop kb rounds) k () k') :
    k'.examined = k.examined ++
        (q.take (taken GoesOn nextKeys k.keysDown (kb.reports q))).map (·.encodedAddr) ∧
      k'.ring.Stores (q.drop (taken GoesOn nextKeys k.keysDown (kb.reports q))) := by
  induction q generalizing k rounds with
  | nil =>
    obtain ⟨n, rfl⟩ := Nat.exists_eq_add_of_lt hrounds
    have hempty := keypressRound_empty (h.ringEmpty_iff.mpr rfl) kb
    rw [keypressLoop_succ, (Returns.of_run hempty).bind_iff] at hret
    obtain ⟨-, rfl⟩ := hret.unique (.pure () k)
    exact ⟨(List.append_nil _).symm, h⟩
  | cons d rest ih =>
    rw [List.length_cons] at hrounds
    obtain ⟨n, rfl⟩ := Nat.exists_eq_add_of_lt hrounds
    rw [keypressLoop_succ] at hret
    obtain ⟨goesOn, k₁, hround, hrest⟩ := hret.of_bind
    obtain ⟨hgo, hring, hexamined, hkeys⟩ := keypressRound_spec hround h
    have hreports : kb.reports (d :: rest) = kb.reportAt d.encodedAddr :: kb.reports rest := rfl
    rw [hreports, taken]
    cases goesOn with
    | true =>
      -- The rest of the reports is the rest of the loop, from the keys of this one on.
      have hfewer : rest.length < rest.length + 1 + n := by omega
      obtain ⟨htaken, hleft⟩ := ih hring hfewer hrest
      rw [hkeys rfl] at htaken hleft
      rw [if_pos (hgo.mp rfl), htaken, hexamined]
      exact ⟨by simp, hleft⟩
    | false =>
      obtain ⟨-, rfl⟩ := hrest.unique (.pure () k₁)
      rw [if_neg fun h => Bool.false_ne_true (hgo.mpr h)]
      exact ⟨hexamined, hring⟩

/-- The loop makes one round more than there are reports, at most: further rounds change
nothing. -/
theorem keypressLoop_rounds {q : List BuffDesc} (h : k.ring.Stores q) {rounds rounds' : ℕ}
    (hrounds : q.length < rounds) (hrounds' : q.length < rounds') :
    keypressLoop kb rounds k = keypressLoop kb rounds' k := by
  induction q generalizing k rounds rounds' with
  | nil =>
    obtain ⟨n, rfl⟩ := Nat.exists_eq_add_of_lt hrounds
    obtain ⟨n', rfl⟩ := Nat.exists_eq_add_of_lt hrounds'
    have hempty := keypressRound_empty (h.ringEmpty_iff.mpr rfl) kb
    rw [keypressLoop_succ, keypressLoop_succ, bind_ok hempty, bind_ok hempty]
    rfl
  | cons d rest ih =>
    rw [List.length_cons] at hrounds hrounds'
    obtain ⟨n, rfl⟩ := Nat.exists_eq_add_of_lt hrounds
    obtain ⟨n', rfl⟩ := Nat.exists_eq_add_of_lt hrounds'
    rw [keypressLoop_succ, keypressLoop_succ]
    -- Both loops make the same round, and differ in what is left of the bound.
    refine bind_congr_run fun goesOn hround => ?_
    obtain ⟨-, hring, -⟩ := keypressRound_spec (.of_result hround) h
    cases goesOn with
    | true => exact ih hring (by omega) (by omega)
    | false => rfl

end Rounds

/-- When it returns, the handler has left no report behind exactly if it went on at every report
but the last: none of them is a report of too many keys, or one from which it reads no key. -/
theorem leavesNone_iff {kb : Keyboard} {k : KeyState RQ SQ} {q : List BuffDesc}
    (h : k.ring.Stores q) (hret : (handleKeypress kb k).result = .ok ()) :
    LeavesNone kb k q ↔ ∀ before report after, kb.reports q = before ++ report :: after →
      after ≠ [] →
        GoesOn (before.foldl (fun keysDown report => nextKeys report keysDown) k.keysDown)
          report := by
  obtain ⟨hexamined, hleft⟩ := keypressLoop_spec h h.length_lt (.of_result hret)
  have hle := taken_le GoesOn nextKeys k.keysDown (kb.reports q)
  have hlength : (kb.reports q).length = q.length := List.length_map _
  rw [← taken_eq_length_iff, hlength]
  rw [hlength] at hle
  constructor
  · intro hnone
    have hnil := hleft.ringEmpty_iff.mp hnone.empty
    exact Nat.le_antisymm hle (List.drop_eq_nil_iff.mp hnil)
  · intro hall
    rw [hall, List.take_length] at hexamined
    rw [hall, List.drop_length] at hleft
    exact ⟨hleft.ringEmpty_iff.mpr rfl, hexamined⟩

/-- A new ring, behind a sequence of `enqueue`s. -/
def ringOf (q : List BuffDesc) : RingBuffer :=
  q.foldl (fun ring d => (enqueue ring d).2) ⟨0#32, 0#32, fun _ => ⟨0#64, 0#32, .client 0#64⟩⟩

theorem ringOf_stores {q : List BuffDesc} (h : q.length < SIZE) : (ringOf q).Stores q := by
  induction q using List.reverseRecOn with
  | nil => exact .of_eq rfl
  | append_singleton q d ih =>
    rw [List.length_append, List.length_singleton] at h
    rcases (ih (by omega)).enqueue d with ⟨hfull, -⟩ | ⟨-, -, hstores⟩
    · omega
    · rw [ringOf, List.foldl_append]
      exact hstores

/-- A keyboard with the keys of `a` and `b`: at address 1 there is a report of too many keys, at
address 2 one in which the first key is down, and at address 3 one in which both are. -/
def sampleKeyboard : Keyboard where
  uk := fun i => [0#16, KC 4#8, 0x61#16, 0x41#16, KC 5#8, 0x62#16, 0x42#16].getD i 0#16
  us := fun i => [0#16, KC 4#8, 0x61#16, 0x41#16, KC 5#8, 0x62#16, 0x42#16].getD i 0#16
  layout := .uk
  reportAt := fun address i =>
    if address = 1#64 then (if 2 ≤ i ∧ i < 8 then 0x01#8 else 0#8)
    else if i = 2 then 4#8
    else if i = 3 ∧ address = 3#64 then 5#8
    else 0#8

/-- The prompt, with reports in the ring. -/
def sampleKeyState (q : List BuffDesc) : KeyState oneReq oneAnswer :=
  ⟨atPrompt [] .empty clearWorld, fun _ => 0#8, ringOf q, []⟩

/-- Two keys, one after the other. -/
theorem leavesNone_iff_two :
    let q : List BuffDesc := [⟨2#64, 8#32, .client 0#64⟩, ⟨3#64, 8#32, .client 0#64⟩]
    let k := sampleKeyState q
    LeavesNone sampleKeyboard k q ↔ ∀ before report after,
      sampleKeyboard.reports q = before ++ report :: after → after ≠ [] →
        GoesOn (before.foldl (fun keysDown report => nextKeys report keysDown) k.keysDown)
          report :=
  leavesNone_iff (ringOf_stores (by decide)) rfl

/-- A report of too many keys, and a key behind it. -/
theorem rollover_leaves_report :
    let q : List BuffDesc := [⟨1#64, 8#32, .client 0#64⟩, ⟨2#64, 8#32, .client 0#64⟩]
    let k := sampleKeyState q
    k.ring.Stores q ∧ k.shell.consoleState = .console ∧
      (handleKeypress sampleKeyboard k).result = .ok () ∧ ¬ LeavesNone sampleKeyboard k q := by
  intro q k
  have hleft : ringEmpty (handleKeypress sampleKeyboard k).state.ring = false := by decide +kernel
  have hret : (handleKeypress sampleKeyboard k).result = .ok () := by decide +kernel
  refine ⟨ringOf_stores (by decide), rfl, hret, fun hnone => ?_⟩
  rw [hnone.empty] at hleft
  cases hleft

end Sel4Xhci.Shell
