import Mathlib.Data.List.Basic

/-!
# A text with a cursor

What a line editor is about: a text, and a place in it at which characters are entered and in
front of which they are deleted.

## Main definitions

* `TextCursor` — the characters in front of the cursor, nearest first, and those behind it
* `insert`, `backspace`, `moveLeft`, `moveRight` — the operations
-/

set_option autoImplicit false

namespace Sel4Xhci.Semantics

/-- A text with a cursor: what stands in front of it, nearest first, and what stands behind. -/
structure TextCursor (α : Type*) where
  front : List α
  behind : List α
  deriving DecidableEq, Repr

namespace TextCursor

variable {α : Type*}

/-- The whole text. -/
def text (t : TextCursor α) : List α := t.front.reverse ++ t.behind

/-- Where the cursor stands. -/
def cursor (t : TextCursor α) : ℕ := t.front.length

/-- No text. -/
def empty : TextCursor α := ⟨[], []⟩

/-- A character is entered, and the cursor stands behind it. -/
def insert (c : α) (t : TextCursor α) : TextCursor α := ⟨c :: t.front, t.behind⟩

/-- The character in front of the cursor goes; at the start nothing happens. -/
def backspace (t : TextCursor α) : TextCursor α := ⟨t.front.tail, t.behind⟩

/-- One character to the left; at the start nothing happens. -/
def moveLeft (t : TextCursor α) : TextCursor α :=
  match t.front with
  | [] => t
  | c :: front => ⟨front, c :: t.behind⟩

/-- One character to the right; at the end nothing happens. -/
def moveRight (t : TextCursor α) : TextCursor α :=
  match t.behind with
  | [] => t
  | c :: behind => ⟨c :: t.front, behind⟩

theorem length_text (t : TextCursor α) : t.text.length = t.cursor + t.behind.length := by
  rw [text, cursor, List.length_append, List.length_reverse]

end TextCursor

end Sel4Xhci.Semantics
