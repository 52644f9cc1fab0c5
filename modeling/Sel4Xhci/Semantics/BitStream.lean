import Mathlib.Algebra.Order.Group.Nat

/-!
# Fields in a stream of bits

Bytes make up a stream of bits, each byte with its least significant bit first. A field is a
range of the stream read as a number; it need not start or end with a byte. Tables with
entries of any width are read and written field by field.

## Main definitions

* `bit`, `field` — a bit of the stream, and a range of bits as a number
* `StoresField` — one stream comes from another by storing a number in a field, as far as the
  first `n` bits go

## Main results

* `StoresField.field_self`, `StoresField.field_of_disjoint` — a stored field reads back, and
  fields beside it are left alone
-/

set_option autoImplicit false

namespace Sel4Xhci.Semantics.BitStream

variable {t t' : ℕ → BitVec 8} {n lo w : ℕ}

/-- The `m`-th bit of a stream of bytes. -/
def bit (t : ℕ → BitVec 8) (m : ℕ) : Bool := (t (m / 8)).getLsbD (m % 8)

/-- The bits from `lo` on, as a number of `w` bits. -/
def field (t : ℕ → BitVec 8) (lo : ℕ) : (w : ℕ) → BitVec w
  | 0 => 0#0
  | w + 1 => (field t lo w).cons (bit t (lo + w))

theorem getLsbD_field {i : ℕ} (hi : i < w) : (field t lo w).getLsbD i = bit t (lo + i) := by
  induction w with
  | zero => omega
  | succ w ih =>
    rw [field, BitVec.getLsbD_cons]
    split_ifs with hlast
    · rw [hlast]
    · exact ih (by omega)

/-- A bit, counted from the start of some byte. -/
theorem bit_byte_add (t : ℕ → BitVec 8) (k i : ℕ) :
    bit t (8 * k + i) = (t (k + i / 8)).getLsbD (i % 8) := by
  rw [bit, Nat.mul_add_div (by omega), Nat.mul_add_mod]

/-- Streams with the same bits in a field have the same field. -/
theorem field_congr (h : ∀ i < w, bit t' (lo + i) = bit t (lo + i)) :
    field t' lo w = field t lo w := by
  refine BitVec.eq_of_getLsbD_eq fun i hi => ?_
  rw [getLsbD_field hi, getLsbD_field hi, h i hi]

/-- A number whose bits are those of the stream is the field. -/
theorem eq_field {v : BitVec w} (h : ∀ i < w, v.getLsbD i = bit t (lo + i)) :
    v = field t lo w := by
  refine BitVec.eq_of_getLsbD_eq fun i hi => ?_
  rw [getLsbD_field hi, h i hi]

/-- Among the first `n` bits, `t'` is `t` with `v` stored in the field. -/
def StoresField (n : ℕ) (t t' : ℕ → BitVec 8) (lo w : ℕ) (v : BitVec w) : Prop :=
  ∀ m < n, bit t' m = if lo ≤ m ∧ m < lo + w then v.getLsbD (m - lo) else bit t m

namespace StoresField

variable {v : BitVec w}

/-- The bits, taken byte by byte. -/
theorem of_bytes (h : ∀ j r, r < 8 → 8 * j + r < n → (t' j).getLsbD r =
    if lo ≤ 8 * j + r ∧ 8 * j + r < lo + w then v.getLsbD (8 * j + r - lo)
      else (t j).getLsbD r) : StoresField n t t' lo w v := by
  intro m hm
  have hbyte := h (m / 8) (m % 8) (by omega) (by omega)
  rwa [Nat.div_add_mod] at hbyte

/-- A stream that is another one outside of a field. -/
theorem of_outside (h : ∀ m < n, m < lo ∨ lo + w ≤ m → bit t' m = bit t m) :
    StoresField n t t' lo w (field t' lo w) := by
  intro m hm
  split_ifs with hin
  · rw [getLsbD_field (by omega), Nat.add_sub_cancel' hin.1]
  · exact h m hm (by omega)

theorem field_self (h : StoresField n t t' lo w v) (hn : lo + w ≤ n) : field t' lo w = v := by
  refine (eq_field fun i hi => ?_).symm
  rw [h _ (by omega), if_pos (by omega), Nat.add_sub_cancel_left]

theorem field_of_disjoint (h : StoresField n t t' lo w v) {lo' w' : ℕ} (hn : lo' + w' ≤ n)
    (hdisjoint : lo' + w' ≤ lo ∨ lo + w ≤ lo') : field t' lo' w' = field t lo' w' := by
  refine field_congr fun i hi => ?_
  rw [h _ (by omega), if_neg (by omega)]

end StoresField

end Sel4Xhci.Semantics.BitStream
