import Mathlib.Data.List.Basic

/-!
# Words of a line

A line is cut into words at blanks. A word that starts with a quote goes up to the next
quote, and may be empty or contain blanks; any other word goes up to the next blank.

## Main definitions

* `scan`, `words` — the words of a line
* `Piece`, `render` — a way to write a word, and a line written from pieces
* `WellWritten` — the pieces and gaps of a line that can be read back

## Main results

* `words_render` — a line that is well written reads back as the words it was written from
-/

set_option autoImplicit false

namespace Sel4Xhci.Semantics.Words

variable {α : Type*}

/-- Where in a line a scan stands: between words, or in a word of which it has read `word`. -/
inductive Mode (α : Type*)
  | dull
  | inWord (word : List α)
  | inString (word : List α)
  deriving DecidableEq, Repr

section

variable [DecidableEq α] (blank : α → Bool) (quote : α)

/-- The words that the rest of a line adds to what has been read. The end of the line ends
a word of either kind. -/
def scan : Mode α → List α → List (List α)
  | .dull, [] => []
  | .inWord word, [] => [word]
  | .inString word, [] => [word]
  | .dull, c :: cs =>
    if blank c then scan .dull cs
    else if c = quote then scan (.inString []) cs
    else scan (.inWord [c]) cs
  | .inWord word, c :: cs =>
    if blank c then word :: scan .dull cs else scan (.inWord (word ++ [c])) cs
  | .inString word, c :: cs =>
    if c = quote then word :: scan .dull cs else scan (.inString (word ++ [c])) cs

/-- The words of a line. -/
def words (line : List α) : List (List α) := scan blank quote .dull line

end

/-- A word as it is written in a line: as it stands, or between quotes. -/
inductive Piece (α : Type*)
  | bare (word : List α)
  | quoted (word : List α)
  deriving DecidableEq, Repr

/-- The word that a piece stands for. -/
def Piece.word : Piece α → List α
  | .bare word => word
  | .quoted word => word

/-- What is written for a piece. -/
def Piece.text (quote : α) : Piece α → List α
  | .bare word => word
  | .quoted word => quote :: word ++ [quote]

/-- A bare word is not empty, has no blanks and does not start with a quote; a quoted one has
no quotes. -/
def Piece.Legal (blank : α → Bool) (quote : α) : Piece α → Prop
  | .bare word => word ≠ [] ∧ (∀ c ∈ word, blank c = false) ∧ word.head? ≠ some quote
  | .quoted word => quote ∉ word

instance [DecidableEq α] (blank : α → Bool) (quote : α) :
    ∀ piece : Piece α, Decidable (piece.Legal blank quote)
  | .bare _ => inferInstanceAs (Decidable (_ ∧ _ ∧ _))
  | .quoted _ => inferInstanceAs (Decidable (_ ∉ _))

/-- A line of pieces, each with the gap before it, and what trails behind the last one. -/
def render (quote : α) : List (List α × Piece α) → List α → List α
  | [], trailing => trailing
  | (gap, piece) :: rest, trailing => gap ++ piece.text quote ++ render quote rest trailing

/-- The pieces are legal and the gaps are of blanks; only the first gap may be empty. -/
structure WellWritten (blank : α → Bool) (quote : α) (pieces : List (List α × Piece α))
    (trailing : List α) : Prop where
  legal : ∀ p ∈ pieces, p.2.Legal blank quote
  gaps : ∀ p ∈ pieces, ∀ c ∈ p.1, blank c = true
  apart : ∀ p ∈ pieces.tail, p.1 ≠ []
  trailing : ∀ c ∈ trailing, blank c = true

/-- What follows a piece starts with a blank, or there is nothing. -/
theorem render_head {blank : α → Bool} (quote : α)
    {pieces : List (List α × Piece α)} {trailing : List α}
    (hgaps : ∀ p ∈ pieces, ∀ c ∈ p.1, blank c = true) (hapart : ∀ p ∈ pieces, p.1 ≠ [])
    (htrailing : ∀ c ∈ trailing, blank c = true) :
    ∀ c ∈ (render quote pieces trailing).head?, blank c = true := by
  cases pieces with
  | nil => exact fun c hc => htrailing c (List.mem_of_mem_head? hc)
  | cons p pieces =>
    obtain ⟨c, gap, hgap⟩ := List.exists_cons_of_ne_nil (hapart p List.mem_cons_self)
    intro d hd
    rw [render, hgap] at hd
    obtain rfl : c = d := by simpa using hd
    exact hgaps p List.mem_cons_self c (by simp [hgap])

section Scan

variable [DecidableEq α] {blank : α → Bool} {quote : α}

/-- Blanks between words are passed over. -/
theorem scan_blanks {gap : List α} (hgap : ∀ c ∈ gap, blank c = true) (line : List α) :
    scan blank quote .dull (gap ++ line) = scan blank quote .dull line := by
  induction gap with
  | nil => rfl
  | cons c gap ih =>
    obtain ⟨hc, hgap⟩ := List.forall_mem_cons.mp hgap
    rw [List.cons_append, scan, if_pos hc, ih hgap]

/-- A bare word grows as long as no blank comes. -/
theorem scan_inWord {word : List α} (hword : ∀ c ∈ word, blank c = false) (before line : List α) :
    scan blank quote (.inWord before) (word ++ line) =
      scan blank quote (.inWord (before ++ word)) line := by
  induction word generalizing before with
  | nil => rw [List.nil_append, List.append_nil]
  | cons c word ih =>
    obtain ⟨hc, hword⟩ := List.forall_mem_cons.mp hword
    rw [List.cons_append, scan, if_neg (by simp [hc]), ih hword, List.append_assoc,
      List.singleton_append]

/-- A bare word ends at a blank or with the line. -/
theorem scan_inWord_end {line : List α} (hline : ∀ c ∈ line.head?, blank c = true)
    (word : List α) :
    scan blank quote (.inWord word) line = word :: scan blank quote .dull line := by
  cases line with
  | nil => rfl
  | cons c line =>
    have hc : blank c = true := hline c rfl
    simp [scan, hc]

/-- A quoted word ends at the next quote, whatever follows. -/
theorem scan_inString {word : List α} (hword : quote ∉ word) (before line : List α) :
    scan blank quote (.inString before) (word ++ quote :: line) =
      (before ++ word) :: scan blank quote .dull line := by
  induction word generalizing before with
  | nil => simp [scan]
  | cons c word ih =>
    simp only [List.mem_cons, not_or] at hword
    obtain ⟨hc, hword⟩ := hword
    rw [List.cons_append, scan, if_neg (Ne.symm hc), ih hword, List.append_assoc,
      List.singleton_append]

/-- A legal piece reads back as its word. -/
theorem scan_piece {piece : Piece α} (hquote : blank quote = false)
    (hpiece : piece.Legal blank quote) {line : List α} (hline : ∀ c ∈ line.head?, blank c = true) :
    scan blank quote .dull (piece.text quote ++ line) =
      piece.word :: scan blank quote .dull line := by
  cases piece with
  | bare word =>
    obtain ⟨hne, hword, hhead⟩ := hpiece
    obtain ⟨c, word, rfl⟩ := List.exists_cons_of_ne_nil hne
    obtain ⟨hc, hword⟩ := List.forall_mem_cons.mp hword
    have hstart : c ≠ quote := fun h => hhead (congrArg some h)
    change scan blank quote .dull (c :: (word ++ line)) = (c :: word) :: _
    rw [scan, if_neg (by simp [hc]), if_neg hstart, scan_inWord hword,
      scan_inWord_end hline, List.singleton_append]
  | quoted word =>
    change scan blank quote .dull (quote :: (word ++ [quote] ++ line)) = word :: _
    rw [scan, if_neg (by simp [hquote]), if_pos rfl, List.append_assoc, List.singleton_append,
      scan_inString hpiece, List.nil_append]

end Scan

/-- Writing is undone by reading. -/
theorem words_render [DecidableEq α] {blank : α → Bool} {quote : α} (hquote : blank quote = false)
    {pieces : List (List α × Piece α)} {trailing : List α}
    (h : WellWritten blank quote pieces trailing) :
    words blank quote (render quote pieces trailing) = pieces.map fun p => p.2.word := by
  unfold words
  obtain ⟨hlegal, hgaps, hapart, htrailing⟩ := h
  induction pieces with
  | nil =>
    rw [render, ← List.append_nil trailing, scan_blanks htrailing]
    rfl
  | cons p pieces ih =>
    obtain ⟨hpiece, hlegal⟩ := List.forall_mem_cons.mp hlegal
    obtain ⟨hgap, hgaps⟩ := List.forall_mem_cons.mp hgaps
    have hnext := render_head quote hgaps hapart htrailing
    rw [render, List.append_assoc, scan_blanks hgap, scan_piece hquote hpiece hnext,
      List.map_cons]
    exact congrArg _ (ih hlegal hgaps (fun q hq => hapart q (List.mem_of_mem_tail hq)))

end Sel4Xhci.Semantics.Words
