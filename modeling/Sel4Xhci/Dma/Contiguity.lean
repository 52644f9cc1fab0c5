import Sel4Xhci.Dma.OneDomain
import Sel4Xhci.Dma.Translation
import Sel4Xhci.Semantics.Narrowing

/-!
# Physical addresses of granted segments

`getPhys` is exact on the first `2 ^ 31` bytes of the pool, whatever the base of the pool is, so
a segment that lies there is as contiguous in physical memory as it is in the pool. A grant whose
sum wraps is not kept to the pool by the bound test, and may well be longer than that.

## Main definitions

* `Contiguous` — a segment is mapped to a stretch of physical memory
* `FitsInt` — a request ends where an `int` can still say how far it is from the base

## Main results

* `contiguous_iff` — which segments are mapped in one piece
* `fitsInt_of_noWrap` — in a small pool, all that do not wrap
* `translation_exact_iff` — in which runs all granted segments are
-/

set_option autoImplicit false

namespace Sel4Xhci.Dma

open Semantics Semantics.Narrowing

/-- The addresses of a segment are mapped to a stretch of physical memory, in order. -/
def Contiguous (s : DmaState) (sg : DmaSegment) : Prop :=
  ∀ k < sg.len, getPhys s (sg.addr + k) = getPhys s sg.addr + k

/-- The distance of an address from the base, as the `int` that `getPhys` computes. -/
def intOffset (vbase addr : BitVec 64) : ℤ := ((addr - vbase).setWidth 32).toInt

/-- A request that is granted ends at most `2 ^ 31` behind the base, by the distance that an
`int` tells. -/
def FitsInt (vbase : BitVec 64) (p : Pool) (size : BitVec 64) : Prop :=
  p.dma.Admits size → intOffset vbase p.dma.allocatedDma + size.toNat ≤ 2 ^ 31

instance (vbase : BitVec 64) (p : Pool) (size : BitVec 64) : Decidable (FitsInt vbase p size) :=
  inferInstanceAs (Decidable (_ → _))

/-! ## One segment -/

/-- A segment is mapped in one piece exactly when it does not run over the offsets that an `int`
has. -/
theorem contiguous_iff {s : DmaState} {sg : DmaSegment} :
    Contiguous s sg ↔ intOffset s.virtBase sg.addr + sg.len.toNat ≤ 2 ^ 31 := by
  rw [intOffset, ← signExtend_stretch_iff (by decide) (by decide)]
  refine forall₂_congr fun k _ => ?_
  have hoffset : (sg.addr + k - s.virtBase).setWidth 32 =
      (sg.addr - s.virtBase).setWidth 32 + k.setWidth 32 := by
    rw [BitVec.add_sub_comm, BitVec.setWidth_add _ _ (by decide)]
  rw [getPhys_eq, getPhys_eq, hoffset, BitVec.add_assoc, BitVec.add_right_inj]

/-- An `int` has the distances below `2 ^ 31`. -/
theorem intOffset_of_lt {vbase addr : BitVec 64} (hle : vbase.toNat ≤ addr.toNat)
    (hlt : addr.toNat < vbase.toNat + 2 ^ 31) :
    intOffset vbase addr = (addr.toNat - vbase.toNat : ℕ) := by
  have haddr := addr.isLt
  have hoffset : (addr - vbase).toNat = addr.toNat - vbase.toNat := by
    rw [BitVec.toNat_sub]
    omega
  have hsmall : (addr - vbase).toNat < 2 ^ 31 := by omega
  rw [intOffset, ← hoffset, BitVec.toInt_eq_toNat_of_lt]
  all_goals rw [BitVec.toNat_setWidth]; omega

/-! ## Runs -/

namespace Pool

variable (p : Pool) (size : BitVec 64)

/-- Allocation moves the mark and nothing else. -/
theorem alloc_dma : (p.alloc size).dma =
    { p.dma with allocatedDma := (p.alloc size).dma.allocatedDma } := by
  by_cases h : p.dma.Admits size
  · rw [alloc_of_admits h]
  · rw [alloc_of_not_admits h]

theorem allocAll_dma (sizes : List (BitVec 64)) : (p.allocAll sizes).dma =
    { p.dma with allocatedDma := (p.allocAll sizes).dma.allocatedDma } := by
  induction sizes generalizing p with
  | nil => rfl
  | cons size sizes ih =>
    rw [allocAll_cons, ih, alloc_dma]

/-- What is true of all granted segments is true of each one that is granted on the way. -/
theorem forall_granted_iff {Q : DmaSegment → Prop} (sizes : List (BitVec 64)) :
    (∀ sg ∈ (p.allocAll sizes).granted, Q sg) ↔ (∀ sg ∈ p.granted, Q sg) ∧
      oneDomain.Along (fun p size => p.dma.Admits size → Q ⟨p.dma.allocatedDma, size⟩)
        p sizes := by
  induction sizes generalizing p with
  | nil => simp
  | cons size sizes ih =>
    have hstep : (∀ sg ∈ (p.alloc size).granted, Q sg) ↔
        (∀ sg ∈ p.granted, Q sg) ∧ (p.dma.Admits size → Q ⟨p.dma.allocatedDma, size⟩) := by
      by_cases h : p.dma.Admits size
      · rw [alloc_of_admits h]
        simp [h, or_imp, forall_and]
      · rw [alloc_of_not_admits h]
        simp [h]
    rw [allocAll_cons, ih, hstep, and_assoc, Machine.along_cons]
    simp [oneDomain]

end Pool

/-- In a pool of less than two gigabytes, a request that does not wrap fits. -/
theorem fitsInt_of_noWrap {vbase size : BitVec 64} {p : Pool} (hpacked : p.Packed vbase.toNat)
    (hpool : p.dma.dmaLimit.toNat < vbase.toNat + 2 ^ 31) (hwrap : NoWrap p size) :
    FitsInt vbase p size := by
  intro hadmitted
  have hbase := hpacked.base
  have hbelow := (admits_iff (hwrap hadmitted)).mp hadmitted
  rw [intOffset_of_lt hbase (by omega)]
  omega

theorem along_fitsInt_of_noWrap {pbase vbase limit : BitVec 64}
    (hpool : limit.toNat < vbase.toNat + 2 ^ 31) {sizes : List (BitVec 64)}
    (h : oneDomain.Along NoWrap (Pool.init pbase vbase limit) sizes) :
    oneDomain.Along (FitsInt vbase) (Pool.init pbase vbase limit) sizes := by
  refine Machine.Along.strengthen
    (P := fun p => p.Packed vbase.toNat ∧ p.dma.dmaLimit = limit) ?_
    ⟨Pool.packed_init pbase vbase limit, rfl⟩ h
  rintro p size ⟨hpacked, rfl⟩ hwrap
  refine ⟨fitsInt_of_noWrap hpacked hpool hwrap, ?_⟩
  intro p' hp'
  obtain rfl := Option.some.inj hp'
  rw [p.alloc_dma]
  exact ⟨hpacked.alloc hwrap, rfl⟩

/-- In every pool of less than two gigabytes `getPhys` is exact at the offsets below `2 ^ 31`,
and after every sequence of calls all granted segments are contiguous in physical memory exactly
when each request that was granted fits. Those that do not wrap all fit. -/
theorem translation_exact_iff (pbase vbase limit : BitVec 64)
    (hpool : limit.toNat < vbase.toNat + 2 ^ 31) (sizes : List (BitVec 64)) :
    let init := Pool.init pbase vbase limit
    (((∀ o : BitVec 64, o.toNat < 2 ^ 31 → vbase.toNat + o.toNat < 2 ^ 64 →
          getPhys init.dma (vbase + o) = pbase + o) ∧
        ∀ sg ∈ (init.allocAll sizes).granted, Contiguous (init.allocAll sizes).dma sg) ↔
      oneDomain.Along (FitsInt vbase) init sizes) ∧
    (oneDomain.Along NoWrap init sizes → oneDomain.Along (FitsInt vbase) init sizes) := by
  intro init
  refine ⟨?_, along_fitsInt_of_noWrap hpool⟩
  have hexact : ∀ o : BitVec 64, o.toNat < 2 ^ 31 → vbase.toNat + o.toNat < 2 ^ 64 →
      getPhys init.dma (vbase + o) = pbase + o := fun o ho _ => getPhys_add ho
  have hcontiguous : (∀ sg ∈ (init.allocAll sizes).granted,
      Contiguous (init.allocAll sizes).dma sg) ↔
      oneDomain.Along (FitsInt vbase) init sizes := by
    have hvirt : (init.allocAll sizes).dma.virtBase = vbase := by
      rw [init.allocAll_dma]
      rfl
    simp only [contiguous_iff, hvirt]
    rw [Pool.forall_granted_iff]
    exact and_iff_right (by simp [init, Pool.init])
  rw [hcontiguous, and_iff_right hexact]

/-- A pool at 0x80000000, where `virt_base` is negative as an `int`, and three requests. -/
theorem translation_exact_high_base :
    let init := Pool.init 0x40000000#64 0x80000000#64 0x80200000#64
    let sizes := [64#64, 0x200000#64, 0x1000#64]
    (∀ o : BitVec 64, o.toNat < 2 ^ 31 → 0x80000000 + o.toNat < 2 ^ 64 →
        getPhys init.dma (0x80000000#64 + o) = 0x40000000#64 + o) ∧
      ∀ sg ∈ (init.allocAll sizes).granted, Contiguous (init.allocAll sizes).dma sg :=
  (translation_exact_iff 0x40000000#64 0x80000000#64 0x80200000#64 (by decide) _).1.mpr
    (by decide)

/-- A size just below `2 ^ 64` is granted, and the physical addresses of the segment fall back
by four gigabytes where it passes the offset `2 ^ 31`. -/
theorem wrapped_grant_not_contiguous :
    ¬ ∀ (pbase vbase limit : BitVec 64), vbase ≤ limit → limit.toNat < vbase.toNat + 2 ^ 31 →
      ∀ sizes : List (BitVec 64), ∀ sg ∈ ((Pool.init pbase vbase limit).allocAll sizes).granted,
        ∀ k < sg.len, getPhys (sel4DmaInit pbase vbase limit) (sg.addr + k) =
          getPhys (sel4DmaInit pbase vbase limit) sg.addr + k := by
  intro h
  have hwrong := h 0x80000000#64 0x54000000#64 0x54200000#64 (by decide) (by decide)
    [64#64, 0xffffffffffffffc0#64] ⟨0x54000040#64, 0xffffffffffffffc0#64⟩ (by decide)
    0x80000000#64 (by decide)
  revert hwrong
  decide

end Sel4Xhci.Dma
