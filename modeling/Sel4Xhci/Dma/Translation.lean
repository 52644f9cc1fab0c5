import Sel4Xhci.Dma.Basic

/-!
# Virtual and physical addresses of the DMA pool

`getPhys` and `getVirt` of `dma.c`. The first goes through an `int`, which is harmless for
offsets below `2 ^ 31`. The second adds an integer to a `uintptr_t *`, so that the virtual
base counts eight times.

## Main definitions

* `getPhys`, `getVirt` — the code

## Main results

* `getPhys_add` — `getPhys` is right on the first `2 ^ 31` bytes of the pool
* `getVirt_inverts_iff` — when `getVirt` is its inverse there
-/

set_option autoImplicit false

namespace Sel4Xhci.Dma

/-- `sizeof(uintptr_t)`. -/
def sizeofUintptr : BitVec 64 := 8#64

/-- `getPhys`. -/
def getPhys (s : DmaState) (virt : BitVec 64) : BitVec 64 :=
  -- `virt_base` is narrowed to `int` and widened again; the difference is narrowed, too.
  let offset : BitVec 32 := (virt - (s.virtBase.setWidth 32).signExtend 64).setWidth 32
  s.physBase + offset.signExtend 64

/-- `getVirt`. -/
def getVirt (s : DmaState) (paddr : BitVec 64) : BitVec 64 :=
  let offset := paddr - s.physBase
  -- `virt_base + offset` steps the pointer `offset` by `virt_base` elements.
  offset + sizeofUintptr * s.virtBase

theorem setWidth_signExtend (x : BitVec 32) : (x.signExtend 64).setWidth 32 = x := by
  apply BitVec.eq_of_getLsbD_eq
  intro i hi
  rw [BitVec.getLsbD_setWidth, BitVec.getLsbD_signExtend]
  simp [hi, show i < 64 by omega]

/-- An offset below `2 ^ 31` survives the way through an `int`. -/
theorem signExtend_setWidth {o : BitVec 64} (h : o.toNat < 2 ^ 31) :
    (o.setWidth 32).signExtend 64 = o := by
  have hlow : (o.setWidth 32).toNat = o.toNat := by
    rw [BitVec.toNat_setWidth]
    omega
  have hmsb : (o.setWidth 32).msb = false := by
    rw [BitVec.msb_eq_false_iff_two_mul_lt, hlow]
    omega
  rw [BitVec.signExtend_eq_setWidth_of_msb_false hmsb, ← BitVec.toNat_inj, BitVec.toNat_setWidth,
    hlow]
  omega

/-- Seven is odd, so only zero has a multiple by seven that vanishes. -/
theorem seven_mul_eq_zero {w : ℕ} {x : BitVec w} : 7#w * x = 0#w ↔ x = 0#w := by
  constructor
  · intro h
    -- A power of two that divides `7 * x` divides `x`.
    have hdvd : 2 ^ w ∣ 7 * x.toNat := by
      have hzero := congrArg BitVec.toNat h
      rw [BitVec.toNat_mul, BitVec.toNat_ofNat, Nat.mod_mul_mod, BitVec.toNat_ofNat,
        Nat.zero_mod] at hzero
      exact Nat.dvd_of_mod_eq_zero hzero
    have hcoprime : (2 ^ w).Coprime 7 := Nat.Coprime.pow_left w (by decide)
    rw [← BitVec.toNat_inj]
    exact Nat.eq_zero_of_dvd_of_lt (hcoprime.dvd_of_dvd_mul_left hdvd) x.isLt
  · rintro rfl
    exact BitVec.mul_zero

/-- Only zero is eight times itself. -/
theorem eight_mul_eq_self {w : ℕ} {x : BitVec w} : 8#w * x = x ↔ x = 0#w := by
  have hsplit : 8#w * x = 7#w * x + x := by
    rw [show 8#w = 7#w + 1#w from BitVec.ofNat_add 7 1, BitVec.add_mul, BitVec.one_mul]
  rw [hsplit, BitVec.add_left_eq_self, seven_mul_eq_zero]

section Translation

variable {s : DmaState} {o : BitVec 64}

/-- The two conversions to `int` lose nothing but the upper half of the offset. -/
theorem getPhys_eq (s : DmaState) (virt : BitVec 64) :
    getPhys s virt = s.physBase + ((virt - s.virtBase).setWidth 32).signExtend 64 := by
  have hoffset : (virt - (s.virtBase.setWidth 32).signExtend 64).setWidth 32 =
      (virt - s.virtBase).setWidth 32 := by
    rw [BitVec.sub_eq_add_neg, BitVec.sub_eq_add_neg, BitVec.setWidth_add _ _ (by decide),
      BitVec.setWidth_add _ _ (by decide), BitVec.setWidth_neg_of_le (by decide),
      BitVec.setWidth_neg_of_le (by decide), setWidth_signExtend]
  rw [getPhys, hoffset]

/-- `getPhys` maps the first `2 ^ 31` bytes of the pool to where they are. -/
theorem getPhys_add (ho : o.toNat < 2 ^ 31) : getPhys s (s.virtBase + o) = s.physBase + o := by
  rw [getPhys_eq, BitVec.add_comm s.virtBase, BitVec.add_sub_cancel, signExtend_setWidth ho]

/-- `getVirt` counts the virtual base eight times. -/
theorem getVirt_add (s : DmaState) (o : BitVec 64) :
    getVirt s (s.physBase + o) = o + sizeofUintptr * s.virtBase := by
  rw [getVirt, BitVec.add_comm s.physBase, BitVec.add_sub_cancel]

/-- From the virtual side: seven times the base must vanish, and seven is odd. -/
theorem getVirt_getPhys_iff (ho : o.toNat < 2 ^ 31) :
    getVirt s (getPhys s (s.virtBase + o)) = s.virtBase + o ↔ s.virtBase = 0#64 := by
  rw [getPhys_add ho, getVirt_add, BitVec.add_comm s.virtBase, BitVec.add_right_inj, sizeofUintptr,
    eight_mul_eq_self]

/-- From the physical side only the lower half of the base matters. -/
theorem getPhys_getVirt_iff (ho : o.toNat < 2 ^ 31) :
    getPhys s (getVirt s (s.physBase + o)) = s.physBase + o ↔ s.virtBase.setWidth 32 = 0#32 := by
  -- The way there and back adds the base seven times, and `getPhys` keeps 32 bits of it.
  have hword : (o + sizeofUintptr * s.virtBase - s.virtBase).setWidth 32 = o.setWidth 32 ↔
      s.virtBase.setWidth 32 = 0#32 := by
    rw [BitVec.sub_eq_add_neg, BitVec.setWidth_add _ _ (by decide),
      BitVec.setWidth_neg_of_le (by decide), ← BitVec.sub_eq_add_neg, BitVec.sub_eq_iff_eq_add,
      BitVec.setWidth_add _ _ (by decide), BitVec.add_right_inj,
      BitVec.setWidth_mul _ _ (by decide)]
    exact eight_mul_eq_self
  rw [getVirt_add, getPhys_eq, BitVec.add_right_inj, ← hword]
  constructor
  · intro h
    rw [← setWidth_signExtend ((o + _ - _).setWidth 32), h]
  · intro h
    rw [h, signExtend_setWidth ho]

/-- The two functions are inverse to each other at an offset exactly when the pool is mapped
at address 0. -/
theorem getVirt_inverts_iff (s : DmaState) (ho : o.toNat < 2 ^ 31) :
    getVirt s (getPhys s (s.virtBase + o)) = s.virtBase + o ∧
      getPhys s (getVirt s (s.physBase + o)) = s.physBase + o ↔ s.virtBase = 0#64 := by
  rw [getVirt_getPhys_iff ho, getPhys_getVirt_iff ho]
  constructor
  · exact And.left
  · intro hbase
    exact ⟨hbase, by rw [hbase]; rfl⟩

end Translation

/-- A pool mapped at address 0 is translated in both directions. -/
theorem getVirt_inverts_at_zero :
    getVirt (sel4DmaInit 0x40000000#64 0#64 0x200000#64)
        (getPhys (sel4DmaInit 0x40000000#64 0#64 0x200000#64) 0x1000#64) = 0x1000#64 ∧
      getPhys (sel4DmaInit 0x40000000#64 0#64 0x200000#64)
        (getVirt (sel4DmaInit 0x40000000#64 0#64 0x200000#64) 0x40001000#64) = 0x40001000#64 :=
  (getVirt_inverts_iff (o := 0x1000#64) (sel4DmaInit 0x40000000#64 0#64 0x200000#64)
    (by decide)).mpr rfl

/-- In a pool at 0x2000000, `getVirt` misses the address it came from. -/
theorem getVirt_not_inverse :
    (¬ ∀ (pbase vbase limit o : BitVec 64), o.toNat < 2 ^ 31 → vbase.toNat + o.toNat < 2 ^ 64 →
      pbase.toNat + o.toNat < 2 ^ 64 →
      getVirt (sel4DmaInit pbase vbase limit)
        (getPhys (sel4DmaInit pbase vbase limit) (vbase + o)) = vbase + o) ∧
    ¬ ∀ (pbase vbase limit o : BitVec 64), o.toNat < 2 ^ 31 → vbase.toNat + o.toNat < 2 ^ 64 →
      pbase.toNat + o.toNat < 2 ^ 64 →
      getPhys (sel4DmaInit pbase vbase limit)
        (getVirt (sel4DmaInit pbase vbase limit) (pbase + o)) = pbase + o := by
  constructor
  · intro h
    have hwrong := h 0x40000000#64 0x2000000#64 0x2200000#64 0x1000#64 (by decide) (by decide)
      (by decide)
    revert hwrong
    decide
  · intro h
    have hwrong := h 0x40000000#64 0x2000000#64 0x2200000#64 0x1000#64 (by decide) (by decide)
      (by decide)
    revert hwrong
    decide

end Sel4Xhci.Dma
