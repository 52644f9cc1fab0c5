import Sel4Xhci.Dma.Basic
import Sel4Xhci.Semantics.Machine

/-!
# One program on its DMA pool

Sequences of `sel4_dma_alloc` calls after one `sel4_dma_init`. The bound test adds the size
to the mark in 64 bits. A sum that wraps passes the test, and the mark moves back.

What the caller sees of a call is its return value, which is always 0, and the segment,
which a refused call leaves as it was. `sel4_dma_map` then maps whatever the segment held
before.

## Main definitions

* `oneDomain` — the calls as a machine
* `Sound` — the mark and all granted segments are in the pool, and no two of these overlap
* `Reports` — the caller can tell from one call what became of it

## Main results

* `sound_iff` — a run is sound and its mark never goes back exactly when no grant wraps
* `reports_iff` — a call reports what it did exactly when its size fits with room to spare, in
  memory that is free
-/

set_option autoImplicit false

namespace Sel4Xhci.Dma

open Semantics

/-- The program's calls, from a state after `sel4_dma_init` on. -/
def oneDomain : Machine Pool (BitVec 64) where
  start p := ∃ pbase vbase limit, p = Pool.init pbase vbase limit
  step p size := some (p.alloc size)

theorem exec_oneDomain (p : Pool) (sizes : List (BitVec 64)) :
    oneDomain.exec p sizes = some (p.allocAll sizes) := by
  induction sizes generalizing p with
  | nil => rfl
  | cons size sizes ih => exact ih (p.alloc size)

/-- The call is refused, or its sum does not wrap. -/
def NoWrap (p : Pool) (size : BitVec 64) : Prop :=
  p.dma.Admits size → p.dma.allocatedDma.toNat + size.toNat < 2 ^ 64

instance (p : Pool) (size : BitVec 64) : Decidable (NoWrap p size) :=
  inferInstanceAs (Decidable (_ → _))

/-! ## The state of the allocator -/

/-- The mark and all granted segments lie between base and limit, and no two segments
overlap. -/
structure Sound (vbase limit : BitVec 64) (p : Pool) : Prop where
  mark : vbase ≤ p.dma.allocatedDma ∧ p.dma.allocatedDma ≤ limit
  inside : ∀ sg ∈ p.granted, vbase.toNat ≤ sg.addr.toNat ∧
    sg.addr.toNat + sg.len.toNat ≤ limit.toNat
  disjoint : p.granted.Pairwise fun sg sg' => Disjoint sg.region sg'.region

/-- The invariant of the runs without a wrap: the segments lie one after the other below the
mark, and the mark has not passed the limit. -/
structure Bounded (vbase limit : BitVec 64) (p : Pool) : Prop where
  packed : p.Packed vbase.toNat
  dmaLimit : p.dma.dmaLimit = limit
  mark : p.dma.allocatedDma ≤ limit

section Step

variable {vbase limit size : BitVec 64} {p : Pool}

theorem Bounded.sound (h : Bounded vbase limit p) : Sound vbase limit p := by
  have hmark := h.mark
  rw [BitVec.le_def] at hmark
  refine ⟨⟨h.packed.base, h.mark⟩, ?_, h.packed.disjoint⟩
  intro sg hsg
  have hbelow := h.packed.below sg hsg
  omega

theorem bounded_init {pbase : BitVec 64} (h : vbase ≤ limit) :
    Bounded vbase limit (Pool.init pbase vbase limit) :=
  ⟨Pool.packed_init pbase vbase limit, rfl, h⟩

theorem Bounded.alloc (h : Bounded vbase limit p) (hwrap : NoWrap p size) :
    Bounded vbase limit (p.alloc size) := by
  refine ⟨h.packed.alloc hwrap, ?_, ?_⟩
  · by_cases hadmitted : p.dma.Admits size
    · rw [Pool.alloc_of_admits hadmitted]
      exact h.dmaLimit
    · rw [Pool.alloc_of_not_admits hadmitted]
      exact h.dmaLimit
  · by_cases hadmitted : p.dma.Admits size
    · rw [Pool.alloc_of_admits hadmitted, ← h.dmaLimit]
      exact BitVec.le_of_lt hadmitted
    · rw [Pool.alloc_of_not_admits hadmitted]
      exact h.mark

/-- One step keeps the mark or moves it up exactly when it does not wrap. -/
theorem mark_le_alloc_iff :
    p.dma.allocatedDma ≤ (p.alloc size).dma.allocatedDma ↔ NoWrap p size := by
  by_cases hadmitted : p.dma.Admits size
  · have hsize := size.isLt
    have hmark := p.dma.allocatedDma.isLt
    rw [Pool.alloc_of_admits hadmitted, BitVec.le_def, BitVec.toNat_add]
    simp only [NoWrap, hadmitted, forall_const]
    omega
  · rw [Pool.alloc_of_not_admits hadmitted]
    simp [NoWrap, hadmitted]

end Step

/-- For every sequence of calls: the allocator is sound after each of them, and its mark
never goes back, exactly when no grant on the way wraps. -/
theorem sound_iff {pbase vbase limit : BitVec 64} (h : vbase ≤ limit)
    (sizes : List (BitVec 64)) :
    (Sound vbase limit (Pool.init pbase vbase limit) ∧
      oneDomain.Along (fun p size => Sound vbase limit (p.alloc size) ∧
        p.dma.allocatedDma ≤ (p.alloc size).dma.allocatedDma)
        (Pool.init pbase vbase limit) sizes) ↔
    oneDomain.Along NoWrap (Pool.init pbase vbase limit) sizes := by
  constructor
  · -- The mark alone gives a wrap away.
    rintro ⟨-, halong⟩
    exact halong.mono fun p size hstep => mark_le_alloc_iff.mp hstep.2
  · intro hnowrap
    have hinit : Bounded vbase limit (Pool.init pbase vbase limit) := bounded_init h
    refine ⟨hinit.sound, hnowrap.strengthen ?_ hinit⟩
    intro p size hp hstep
    have hnext := hp.alloc hstep
    refine ⟨⟨hnext.sound, mark_le_alloc_iff.mpr hstep⟩, ?_⟩
    intro p' hp'
    obtain rfl := Option.some.inj hp'
    exact hnext

/-- Requests that are granted, do not fit, and fit again, none with a sum that wraps. -/
theorem sound_of_small_sizes :
    Sound 0x54000000#64 0x54200000#64
        (Pool.init 0x80000000#64 0x54000000#64 0x54200000#64) ∧
      oneDomain.Along (fun p size => Sound 0x54000000#64 0x54200000#64 (p.alloc size) ∧
        p.dma.allocatedDma ≤ (p.alloc size).dma.allocatedDma)
        (Pool.init 0x80000000#64 0x54000000#64 0x54200000#64)
        [64#64, 0x200000#64, 0x1000#64] :=
  (sound_iff (by decide) _).mpr (by decide)

/-- A size just below `2 ^ 64` is granted and takes the mark back to the base, so that the
next segment is the first one over again. -/
theorem wrapped_grant_overlaps :
    (¬ ∀ (pbase vbase limit : BitVec 64), vbase ≤ limit → ∀ sizes : List (BitVec 64),
      oneDomain.Along (fun p size => p.dma.allocatedDma ≤ (p.alloc size).dma.allocatedDma)
        (Pool.init pbase vbase limit) sizes) ∧
    ¬ ∀ (pbase vbase limit : BitVec 64), vbase ≤ limit → ∀ sizes : List (BitVec 64),
      Sound vbase limit ((Pool.init pbase vbase limit).allocAll sizes) := by
  constructor
  · intro h
    have hmark := h 0x80000000#64 0x54000000#64 0x54200000#64 (by decide)
      [64#64, 0xffffffffffffffc0#64]
    revert hmark
    decide
  · intro h
    have hsound := h 0x80000000#64 0x54000000#64 0x54200000#64 (by decide)
      [64#64, 0xffffffffffffffc0#64, 64#64]
    have hgranted : ((Pool.init 0x80000000#64 0x54000000#64 0x54200000#64).allocAll
        [64#64, 0xffffffffffffffc0#64, 64#64]).granted =
          [⟨0x54000000#64, 64#64⟩, ⟨0x54000040#64, 0xffffffffffffffc0#64⟩,
            ⟨0x54000000#64, 64#64⟩] := by decide
    have hdisjoint := hsound.disjoint
    rw [hgranted] at hdisjoint
    -- The first and the third segment start at the base.
    have hoverlap := (List.pairwise_cons.mp hdisjoint).1 ⟨0x54000000#64, 64#64⟩ (by simp)
    have hbase : 0x54000000#64 ∈ DmaSegment.region ⟨0x54000000#64, 64#64⟩ :=
      DmaSegment.addr_mem_region (by decide)
    exact Set.disjoint_left.mp hoverlap hbase hbase

/-! ## What the caller sees -/

/-- `sel4_dma_map`: the return value and `*k`. -/
def sel4DmaMap (sg : DmaSegment) : BitVec 32 × BitVec 64 := (0#32, sg.addr)

/-- A call on `p` with `sg` in the caller's segment tells the caller what became of it: after
a 0, the segment has the size asked for, and mapping it gives the start of that much memory
that nothing in `p` was granted; a size beyond the limit gives another value and changes
nothing; a size up to the limit gives 0. -/
structure Reports (p : Pool) (size : BitVec 64) (sg : DmaSegment) : Prop where
  fresh : (sel4DmaAlloc p.dma size sg).1 = 0#32 →
    (sel4DmaAlloc p.dma size sg).2.2.len = size ∧
    ∀ granted ∈ p.granted, Disjoint
      (DmaSegment.region ⟨(sel4DmaMap (sel4DmaAlloc p.dma size sg).2.2).2, size⟩) granted.region
  refused : p.dma.dmaLimit.toNat < p.dma.allocatedDma.toNat + size.toNat →
    (sel4DmaAlloc p.dma size sg).1 ≠ 0#32 ∧ (sel4DmaAlloc p.dma size sg).2 = (p.dma, sg)
  satisfied : p.dma.allocatedDma.toNat + size.toNat ≤ p.dma.dmaLimit.toNat →
    (sel4DmaAlloc p.dma size sg).1 = 0#32

section Caller

variable {p : Pool} {size : BitVec 64}

theorem sel4DmaAlloc_value (s : DmaState) (size : BitVec 64) (sg : DmaSegment) :
    (sel4DmaAlloc s size sg).1 = 0#32 := by
  unfold sel4DmaAlloc
  split_ifs <;> rfl

/-- Without a wrap, a call is admitted when its size leaves room. -/
theorem admits_iff (hwrap : p.dma.allocatedDma.toNat + size.toNat < 2 ^ 64) :
    p.dma.Admits size ↔ p.dma.allocatedDma.toNat + size.toNat < p.dma.dmaLimit.toNat := by
  rw [DmaState.Admits, BitVec.lt_def, BitVec.toNat_add, Nat.mod_eq_of_lt hwrap]

/-- In any state of the pool, a call reports what it did, whatever the caller's segment held,
exactly when it is admitted and the memory behind the mark is free. -/
theorem reports_iff_free (hwrap : p.dma.allocatedDma.toNat + size.toNat < 2 ^ 64) :
    (∀ sg, Reports p size sg) ↔ p.dma.Admits size ∧
      ∀ granted ∈ p.granted,
        Disjoint (DmaSegment.region ⟨p.dma.allocatedDma, size⟩) granted.region := by
  constructor
  · intro h
    have hadmitted : p.dma.Admits size := by
      by_contra hrefused
      -- A segment of another length shows that the call has not touched it.
      have hstale := h ⟨0#64, size + 1#64⟩
      have hlen := (hstale.fresh (sel4DmaAlloc_value _ _ _)).1
      rw [sel4DmaAlloc_of_not_admits hrefused] at hlen
      exact absurd hlen (by simp)
    have hfresh := ((h ⟨0#64, 0#64⟩).fresh (sel4DmaAlloc_value _ _ _)).2
    rw [sel4DmaAlloc_of_admits hadmitted] at hfresh
    exact ⟨hadmitted, hfresh⟩
  · rintro ⟨hadmitted, hfree⟩ sg
    have hfits := (admits_iff hwrap).mp hadmitted
    refine ⟨?_, fun hbeyond => by omega, fun _ => sel4DmaAlloc_value _ _ _⟩
    intro _
    rw [sel4DmaAlloc_of_admits hadmitted]
    exact ⟨rfl, hfree⟩

/-- In a packed pool the memory behind the mark is free. -/
theorem free_of_packed {vbase : ℕ} (hpacked : p.Packed vbase)
    (hwrap : p.dma.allocatedDma.toNat + size.toNat < 2 ^ 64) :
    ∀ granted ∈ p.granted,
      Disjoint (DmaSegment.region ⟨p.dma.allocatedDma, size⟩) granted.region := by
  intro granted hgranted
  have hbelow := hpacked.below granted hgranted
  have hmark := p.dma.allocatedDma.isLt
  rw [Set.disjoint_left]
  intro a hnew hold
  rw [DmaSegment.mem_region_iff hwrap] at hnew
  rw [DmaSegment.mem_region_iff (by omega)] at hold
  dsimp only at hnew
  omega

/-- After any sequence of calls: a further call reports what it did exactly when its size leaves
room below the limit and the memory behind the mark is free. That it is free is certain if no grant
on the way has wrapped. -/
theorem reports_iff (pbase vbase limit : BitVec 64) {sizes : List (BitVec 64)}
    (hp : oneDomain.exec (Pool.init pbase vbase limit) sizes = some p)
    (hwrap : p.dma.allocatedDma.toNat + size.toNat < 2 ^ 64) :
    ((∀ sg, Reports p size sg) ↔
      p.dma.allocatedDma.toNat + size.toNat < p.dma.dmaLimit.toNat ∧
        ∀ granted ∈ p.granted,
          Disjoint (DmaSegment.region ⟨p.dma.allocatedDma, size⟩) granted.region) ∧
    (oneDomain.Along NoWrap (Pool.init pbase vbase limit) sizes → ∀ granted ∈ p.granted,
      Disjoint (DmaSegment.region ⟨p.dma.allocatedDma, size⟩) granted.region) := by
  refine ⟨by rw [reports_iff_free hwrap, admits_iff hwrap], fun hnowrap => ?_⟩
  have hpacked : p.Packed vbase.toNat := by
    refine Machine.along_induction ?_ (Pool.packed_init pbase vbase limit) hnowrap hp
    intro q size q' hq hstep hq'
    obtain rfl := Option.some.inj hq'
    exact hq.alloc hstep
  exact free_of_packed hpacked hwrap

end Caller

/-- A pool of two megabytes. -/
def smallPool : Pool := Pool.init 0x80000000#64 0x54000000#64 0x54200000#64

/-- After a segment was granted and a request refused, a page is granted and reported. -/
theorem reports_page :
    Reports (smallPool.allocAll [64#64, 0x200000#64]) 0x1000#64 ⟨0#64, 0#64⟩ := by
  obtain ⟨hreports, hfree⟩ := reports_iff 0x80000000#64 0x54000000#64 0x54200000#64
    (exec_oneDomain smallPool [64#64, 0x200000#64])
    (show _ + (0x1000#64).toNat < 2 ^ 64 by decide)
  exact hreports.mpr ⟨by decide, hfree (by decide)⟩ _

/-- The second half of the pool fits exactly and is refused with a 0; the caller that tries
again with its old segment maps its live memory. A request beyond the limit gets a 0, too. -/
theorem refused_alloc_returns_zero :
    (¬ ∀ (pbase vbase limit : BitVec 64) (sizes : List (BitVec 64)) (p : Pool) (size : BitVec 64)
        (sg : DmaSegment), vbase ≤ limit →
      oneDomain.Along NoWrap (Pool.init pbase vbase limit) sizes →
      oneDomain.exec (Pool.init pbase vbase limit) sizes = some p →
      p.dma.allocatedDma.toNat + size.toNat < 2 ^ 64 →
      (sel4DmaAlloc p.dma size sg).1 = 0#32 →
      ∀ granted ∈ p.granted, Disjoint
        (DmaSegment.region ⟨(sel4DmaMap (sel4DmaAlloc p.dma size sg).2.2).2, size⟩)
        granted.region) ∧
    ¬ ∀ (pbase vbase limit : BitVec 64) (sizes : List (BitVec 64)) (p : Pool) (size : BitVec 64)
        (sg : DmaSegment), vbase ≤ limit →
      oneDomain.Along NoWrap (Pool.init pbase vbase limit) sizes →
      oneDomain.exec (Pool.init pbase vbase limit) sizes = some p →
      p.dma.allocatedDma.toNat + size.toNat < 2 ^ 64 →
      p.dma.dmaLimit.toNat < p.dma.allocatedDma.toNat + size.toNat →
      (sel4DmaAlloc p.dma size sg).1 ≠ 0#32 := by
  constructor
  · intro h
    have hdisjoint := h 0x80000000#64 0x54000000#64 0x54200000#64 [0x100000#64] _ 0x100000#64
      ⟨0x54000000#64, 0x100000#64⟩ (by decide) (by decide) (exec_oneDomain _ _) (by decide)
      (by decide) ⟨0x54000000#64, 0x100000#64⟩ (by decide)
    have hmapped : (sel4DmaMap (sel4DmaAlloc ((Pool.init 0x80000000#64 0x54000000#64
        0x54200000#64).allocAll [0x100000#64]).dma 0x100000#64
          ⟨0x54000000#64, 0x100000#64⟩).2.2).2 = 0x54000000#64 := by decide
    rw [hmapped] at hdisjoint
    have hbase : 0x54000000#64 ∈ DmaSegment.region ⟨0x54000000#64, 0x100000#64⟩ :=
      DmaSegment.addr_mem_region (by decide)
    exact Set.disjoint_left.mp hdisjoint hbase hbase
  · intro h
    have hvalue := h 0x80000000#64 0x54000000#64 0x54200000#64 [] _ 0x200001#64
      ⟨0#64, 0#64⟩ (by decide) (by decide) (exec_oneDomain _ _) (by decide) (by decide)
    exact hvalue (sel4DmaAlloc_value _ _ _)

end Sel4Xhci.Dma
