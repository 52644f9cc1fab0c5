import Mathlib.Algebra.Group.Nat.Defs
import Mathlib.Order.Monotone.Basic

/-!
# Reading a wide counter word by word

A counter of two `w`-bit words that can only be read one word at a time, while it
runs. A reading is right when it lies between the values of the counter at its first
and its last access. If the counter advances by less than `2 ^ w` in between, only one
high word makes it right once the low word is known.

## Main definitions

* `joined` — the value of a high and a low word
* `highLowHigh` — read the high word, the low word and the high word again, and the low
  word once more if the high word has changed

## Main results

* `joined_mem_window_iff` — which high word makes a reading right
* `highLowHigh_eq` — the protocol returns a value that the counter had at one of its
  accesses
-/

set_option autoImplicit false

namespace Sel4Xhci.Semantics.SplitCounter

variable {w : ℕ}

/-- The value of a high and a low word. -/
def joined (w high low : ℕ) : ℕ := high * 2 ^ w + low

/-- A value consists of its two words. -/
theorem joined_div_mod (w c : ℕ) : joined w (c / 2 ^ w) (c % 2 ^ w) = c := by
  rw [joined, Nat.mul_comm]
  exact Nat.div_add_mod c _

/-- Two values with the same low word that lie less than `2 ^ w` apart are equal. -/
theorem joined_inj_of_near (low : ℕ) {high high' : ℕ}
    (h : joined w high low < joined w high' low + 2 ^ w)
    (h' : joined w high' low < joined w high low + 2 ^ w) : high = high' := by
  unfold joined at h h'
  have hpos : 0 < 2 ^ w := Nat.two_pow_pos w
  by_contra hne
  -- One step in the high word is already `2 ^ w`.
  rcases Nat.lt_or_gt_of_ne hne with hlt | hgt
  · have hstep := Nat.mul_le_mul_right (2 ^ w) hlt
    rw [Nat.succ_mul] at hstep
    omega
  · have hstep := Nat.mul_le_mul_right (2 ^ w) hgt
    rw [Nat.succ_mul] at hstep
    omega

/-- Between two values of the counter that are less than `2 ^ w` apart, the low word of
`c` goes with one high word only, that of `c`. -/
theorem joined_mem_window_iff {first c last high : ℕ} (hfirst : first ≤ c) (hlast : c ≤ last)
    (hadvance : last < first + 2 ^ w) :
    first ≤ joined w high (c % 2 ^ w) ∧ joined w high (c % 2 ^ w) ≤ last ↔ high = c / 2 ^ w := by
  have hc := joined_div_mod w c
  constructor
  · rintro ⟨hlow, hhigh⟩
    apply joined_inj_of_near (c % 2 ^ w)
    · rw [hc]
      omega
    · rw [hc]
      omega
  · rintro rfl
    rw [hc]
    exact ⟨hfirst, hlast⟩

/-- Read the high word, the low word, the high word and, when the two high words differ,
the low word again. `high i` and `low i` are the words at the `i`-th of these accesses. -/
def highLowHigh (w : ℕ) (high low : ℕ → ℕ) : ℕ :=
  if high 2 = high 0 then joined w (high 2) (low 1) else joined w (high 2) (low 3)

/-- Read from the words of a counter that does not go back, the protocol returns the
counter's value at one of the two reads of the low word. -/
theorem highLowHigh_eq {count : ℕ → ℕ} (hmono : Monotone count)
    (hadvance : count 3 < count 0 + 2 ^ w) :
    highLowHigh w (fun i => count i / 2 ^ w) (fun i => count i % 2 ^ w) =
      if count 2 / 2 ^ w = count 0 / 2 ^ w then count 1 else count 3 := by
  have hpos : 0 < 2 ^ w := Nat.two_pow_pos w
  simp only [highLowHigh]
  split_ifs with hsame
  · -- The high word stood still, so it is the high word at the access in between, too.
    have hlow : count 0 / 2 ^ w ≤ count 1 / 2 ^ w := Nat.div_le_div_right (hmono (by omega))
    have hhigh : count 1 / 2 ^ w ≤ count 2 / 2 ^ w := Nat.div_le_div_right (hmono (by omega))
    have hbetween : count 2 / 2 ^ w = count 1 / 2 ^ w := by omega
    rw [hbetween, joined_div_mod]
  · -- It has moved on once, and there is no time for it to move on again.
    have hlow : count 0 / 2 ^ w ≤ count 2 / 2 ^ w := Nat.div_le_div_right (hmono (by omega))
    have hhigh : count 2 / 2 ^ w ≤ count 3 / 2 ^ w := Nat.div_le_div_right (hmono (by omega))
    have honce : count 3 / 2 ^ w ≤ count 0 / 2 ^ w + 1 := by
      rw [← Nat.add_div_right _ hpos]
      exact Nat.div_le_div_right hadvance.le
    have hlast : count 2 / 2 ^ w = count 3 / 2 ^ w := by omega
    rw [hlast, joined_div_mod]

end Sel4Xhci.Semantics.SplitCounter
