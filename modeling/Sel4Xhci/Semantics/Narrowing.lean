import Mathlib.Algebra.Order.Group.Int

/-!
# Narrowing to a signed type and widening again

An address arithmetic that goes through a signed type of `w` bits and back to `v` bits is exact
on the values that the signed type has. A stretch of addresses goes through it in one piece as
long as it does not run over the greatest of these values.

## Main results

* `signExtend_ofInt` — a value of the signed type survives
* `signExtend_stretch_iff` — which stretches are kept in one piece
-/

set_option autoImplicit false

namespace Sel4Xhci.Semantics.Narrowing

variable {w v : ℕ}

/-- A value of the signed type survives. -/
theorem signExtend_ofInt (hw : 0 < w) {y : ℤ} (hlow : -2 ^ (w - 1) ≤ y) (hhigh : y < 2 ^ (w - 1)) :
    (BitVec.ofInt w y).signExtend v = BitVec.ofInt v y := by
  rw [BitVec.signExtend, BitVec.toInt_ofInt_eq_self hw hlow hhigh]

/-- The value behind the greatest one becomes negative. -/
theorem signExtend_ofInt_two_pow (hw : 0 < w) (hwv : w < v) :
    (BitVec.ofInt w (2 ^ (w - 1))).signExtend v ≠ BitVec.ofInt v (2 ^ (w - 1)) := by
  have hdouble : 2 ^ w = 2 * 2 ^ (w - 1) := by
    rw [← Nat.pow_add_one', Nat.sub_add_cancel hw]
  have hnarrow : (BitVec.ofInt w (2 ^ (w - 1))).toInt < 0 := by
    have hnat : BitVec.ofInt w (2 ^ (w - 1)) = BitVec.ofNat w (2 ^ (w - 1)) := by
      rw [← BitVec.ofInt_natCast, Int.natCast_pow]
      rfl
    have hpos := Nat.two_pow_pos (w - 1)
    rw [BitVec.toInt_neg_iff, hnat, BitVec.toNat_ofNat, Nat.mod_eq_of_lt (by omega)]
    omega
  have hwide : (BitVec.ofInt v (2 ^ (w - 1))).toInt = 2 ^ (w - 1) := by
    have hlt : (2 : ℤ) ^ (w - 1) < 2 ^ (v - 1) := Int.pow_lt_pow_of_lt (by decide) (by omega)
    have hpos : (0 : ℤ) < 2 ^ (w - 1) := Int.pow_pos (by decide)
    exact BitVec.toInt_ofInt_eq_self (by omega) (by omega) hlt
  intro heq
  have hvalue := congrArg BitVec.toInt heq
  rw [BitVec.toInt_signExtend_of_le hwv.le, hwide] at hvalue
  have hpos : (0 : ℤ) < 2 ^ (w - 1) := Int.pow_pos (by decide)
  omega

/-- A step ahead in the narrow type. -/
theorem add_setWidth (x : BitVec w) (k : BitVec v) :
    x + k.setWidth w = BitVec.ofInt w (x.toInt + k.toNat) := by
  rw [BitVec.ofInt_add, BitVec.ofInt_toInt, BitVec.ofInt_natCast, BitVec.ofNat_toNat]

/-- A step ahead in the wide type. -/
theorem signExtend_add (x : BitVec w) (k : BitVec v) :
    x.signExtend v + k = BitVec.ofInt v (x.toInt + k.toNat) := by
  rw [BitVec.ofInt_add, BitVec.ofInt_natCast, BitVec.ofNat_toNat, BitVec.setWidth_eq]
  rfl

/-- The `len` addresses from `x` on are kept in one piece exactly when the signed type has as
many values from `x` on. -/
theorem signExtend_stretch_iff (hw : 0 < w) (hwv : w < v) (x : BitVec w) (len : BitVec v) :
    (∀ k < len, (x + k.setWidth w).signExtend v = x.signExtend v + k) ↔
      x.toInt + len.toNat ≤ 2 ^ (w - 1) := by
  have hlow := x.le_toInt
  have hhigh := x.toInt_lt
  constructor
  · intro h
    refine Int.not_lt.mp fun hlong => ?_
    -- The first address that the signed type does not have.
    obtain ⟨n, hn⟩ : ∃ n : ℕ, x.toInt + n = 2 ^ (w - 1) :=
      ⟨(2 ^ (w - 1) - x.toInt).toNat, by omega⟩
    have hk : (BitVec.ofNat v n).toNat = n := by
      have hlt := len.isLt
      rw [BitVec.toNat_ofNat, Nat.mod_eq_of_lt (by omega)]
    have hstep := h (BitVec.ofNat v n) (BitVec.lt_def.mpr (by omega))
    rw [add_setWidth, signExtend_add, hk, hn] at hstep
    exact signExtend_ofInt_two_pow hw hwv hstep
  · intro h k hk
    have hlt := BitVec.lt_def.mp hk
    rw [add_setWidth, signExtend_add]
    exact signExtend_ofInt hw (by omega) (by omega)

end Sel4Xhci.Semantics.Narrowing
