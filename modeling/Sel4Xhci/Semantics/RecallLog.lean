import Mathlib.Algebra.Order.Group.Int

/-!
# A log with a place in it

What recall from a history is about: entries in the order in which they were made, and a place
among them, or behind the newest one.

## Main definitions

* `RecallLog` — entries, oldest first, and a place
* `enter`, `move` — a new entry, and one step to an older or a newer one
* `shown` — the entry at the place, if it is not behind the newest
-/

set_option autoImplicit false

namespace Sel4Xhci.Semantics

/-- Entries, oldest first, and a place among them or behind. -/
structure RecallLog (α : Type*) where
  entries : List α
  position : ℕ
  position_le : position ≤ entries.length

namespace RecallLog

variable {α : Type*}

/-- No entries. -/
def empty : RecallLog α := ⟨[], 0, le_rfl⟩

/-- A new entry; the place is behind it then. -/
def enter (log : RecallLog α) (a : α) : RecallLog α :=
  ⟨log.entries ++ [a], (log.entries ++ [a]).length, le_rfl⟩

/-- One step to an older entry if `direction` is negative, else to a newer one. At the oldest
entry, and behind the newest, the place stays. -/
def move (log : RecallLog α) (direction : ℤ) : RecallLog α :=
  if direction < 0 then ⟨log.entries, log.position - 1, (Nat.sub_le _ _).trans log.position_le⟩
  else ⟨log.entries, min (log.position + 1) log.entries.length, Nat.min_le_right _ _⟩

/-- The entry at the place. -/
def shown (log : RecallLog α) : Option α := log.entries[log.position]?

@[simp] theorem entries_move (log : RecallLog α) (direction : ℤ) :
    (log.move direction).entries = log.entries := by
  unfold move
  split_ifs <;> rfl

theorem position_move (log : RecallLog α) (direction : ℤ) :
    (log.move direction).position =
      if direction < 0 then log.position - 1 else min (log.position + 1) log.entries.length := by
  unfold move
  split_ifs <;> rfl

/-- At the oldest entry there is no step to an older one. -/
theorem move_oldest {log : RecallLog α} {direction : ℤ} (hpos : log.position = 0)
    (hdir : direction < 0) : log.move direction = log := by
  rcases log with ⟨entries, position, hle⟩
  obtain rfl : position = 0 := hpos
  rw [move, if_pos hdir]
  rfl

theorem getElem?_enter {log : RecallLog α} {a b : α} {i : ℕ}
    (h : (log.enter a).entries[i]? = some b) :
    log.entries[i]? = some b ∨ i = log.entries.length ∧ a = b := by
  change (log.entries ++ [a])[i]? = some b at h
  rcases lt_or_ge i log.entries.length with hlt | hge
  · rw [List.getElem?_append_left hlt] at h
    exact .inl h
  · rw [List.getElem?_append_right hge] at h
    obtain ⟨hi, hab⟩ := List.getElem?_eq_some_iff.mp h
    rw [List.length_singleton, Nat.lt_one_iff] at hi
    refine .inr ⟨by omega, ?_⟩
    simpa using hab

end RecallLog

end Sel4Xhci.Semantics
