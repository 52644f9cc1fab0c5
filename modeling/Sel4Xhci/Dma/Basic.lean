import Mathlib.Algebra.GroupWithZero.Nat
import Mathlib.Data.Set.Lattice
import Mathlib.Order.CompletePartialOrder

/-!
# The DMA allocator

`sel4_dma_init` and `sel4_dma_alloc` of `dma.c`: an allocator that moves a mark through
the pool and never gives anything back. Addresses and sizes are 64-bit, and their sum
wraps.

A failed allocation returns 0, as a successful one does, and leaves the caller's segment
as it was. Whether a call succeeded is therefore read off the allocator's state, by
`DmaState.Admits`.

## Main definitions

* `sel4DmaInit`, `sel4DmaAlloc` — the code
* `Pool` — one program's allocator with the segments it has granted

## Main results

* `Pool.head?_granted` — the first segment granted starts at the base of the pool
* `Pool.granted_disjoint` — one program's segments do not overlap, unless a sum wraps
-/

set_option autoImplicit false

namespace Sel4Xhci.Dma

/-- The variables of `dma.c`. -/
structure DmaState where
  physBase : BitVec 64
  virtBase : BitVec 64
  dmaLimit : BitVec 64
  allocatedDma : BitVec 64
  deriving DecidableEq, Repr

/-- A `bus_dma_segment_t`. -/
structure DmaSegment where
  addr : BitVec 64
  len : BitVec 64
  deriving DecidableEq, Repr

/-- The addresses of a segment; a segment may run over the end of the address space. -/
def DmaSegment.region (sg : DmaSegment) : Set (BitVec 64) := {a | a - sg.addr < sg.len}

theorem DmaSegment.mem_region {sg : DmaSegment} {a : BitVec 64} :
    a ∈ sg.region ↔ a - sg.addr < sg.len := Iff.rfl

theorem DmaSegment.addr_mem_region {sg : DmaSegment} (h : 0#64 < sg.len) : sg.addr ∈ sg.region := by
  rw [mem_region, BitVec.sub_self]
  exact h

/-- Without wrap, a region is an interval. -/
theorem DmaSegment.mem_region_iff {sg : DmaSegment} (h : sg.addr.toNat + sg.len.toNat < 2 ^ 64)
    {a : BitVec 64} :
    a ∈ sg.region ↔ sg.addr.toNat ≤ a.toNat ∧ a.toNat < sg.addr.toNat + sg.len.toNat := by
  rw [mem_region, BitVec.lt_def, BitVec.toNat_sub]
  have ha := a.isLt
  have haddr := sg.addr.isLt
  omega

def sel4DmaInit (pbase vbase limit : BitVec 64) : DmaState where
  physBase := pbase
  virtBase := vbase
  dmaLimit := limit
  allocatedDma := vbase

/-- `sel4_dma_alloc`: the return value, the allocator and the segment afterwards. -/
def sel4DmaAlloc (s : DmaState) (size : BitVec 64) (sg : DmaSegment) :
    BitVec 32 × DmaState × DmaSegment :=
  -- Out of memory is reported as success, with `sg` untouched.
  if s.allocatedDma + size ≥ s.dmaLimit then (0#32, s, sg)
  else (0#32, { s with allocatedDma := s.allocatedDma + size }, ⟨s.allocatedDma, size⟩)

/-- The allocation succeeds. -/
def DmaState.Admits (s : DmaState) (size : BitVec 64) : Prop :=
  s.allocatedDma + size < s.dmaLimit

instance (s : DmaState) (size : BitVec 64) : Decidable (s.Admits size) :=
  inferInstanceAs (Decidable (_ < _))

theorem sel4DmaAlloc_of_admits {s : DmaState} {size : BitVec 64} (h : s.Admits size)
    (sg : DmaSegment) :
    sel4DmaAlloc s size sg =
      (0#32, { s with allocatedDma := s.allocatedDma + size }, ⟨s.allocatedDma, size⟩) :=
  if_neg (BitVec.not_le.mpr h)

theorem sel4DmaAlloc_of_not_admits {s : DmaState} {size : BitVec 64} (h : ¬ s.Admits size)
    (sg : DmaSegment) : sel4DmaAlloc s size sg = (0#32, s, sg) :=
  if_pos (BitVec.not_lt.mp h)

/-- One program's allocator and, as history, the segments it has granted. -/
structure Pool where
  dma : DmaState
  granted : List DmaSegment
  deriving DecidableEq

namespace Pool

/-- The pool of a program after `sel4_dma_init`. -/
def init (pbase vbase limit : BitVec 64) : Pool := ⟨sel4DmaInit pbase vbase limit, []⟩

/-- One call of `sel4_dma_alloc`. -/
def alloc (p : Pool) (size : BitVec 64) : Pool :=
  if p.dma.Admits size then
    let result := (sel4DmaAlloc p.dma size ⟨0#64, 0#64⟩).2
    ⟨result.1, p.granted ++ [result.2]⟩
  else p

/-- A sequence of calls. -/
def allocAll (p : Pool) (sizes : List (BitVec 64)) : Pool := sizes.foldl alloc p

theorem alloc_of_admits {p : Pool} {size : BitVec 64} (h : p.dma.Admits size) :
    p.alloc size = ⟨{ p.dma with allocatedDma := p.dma.allocatedDma + size },
      p.granted ++ [⟨p.dma.allocatedDma, size⟩]⟩ := by
  simp [alloc, h, sel4DmaAlloc_of_admits h]

theorem alloc_of_not_admits {p : Pool} {size : BitVec 64} (h : ¬ p.dma.Admits size) :
    p.alloc size = p := if_neg h

@[simp] theorem allocAll_nil (p : Pool) : p.allocAll [] = p := rfl

@[simp] theorem allocAll_cons (p : Pool) (size : BitVec 64) (sizes : List (BitVec 64)) :
    p.allocAll (size :: sizes) = (p.alloc size).allocAll sizes := rfl

/-- Nothing granted is taken back. -/
theorem granted_isPrefix (p : Pool) (sizes : List (BitVec 64)) :
    p.granted <+: (p.allocAll sizes).granted := by
  induction sizes generalizing p with
  | nil => exact List.prefix_rfl
  | cons size sizes ih =>
    refine List.IsPrefix.trans ?_ (ih (p.alloc size))
    by_cases h : p.dma.Admits size
    · rw [alloc_of_admits h]
      exact List.prefix_append _ _
    · simp only [alloc_of_not_admits h, List.prefix_rfl]

/-- The first segment granted starts at the base of the pool, and its size is the first
that fits there. -/
theorem head?_granted (pbase vbase limit : BitVec 64) (sizes : List (BitVec 64)) :
    ((init pbase vbase limit).allocAll sizes).granted.head? =
      (sizes.find? fun size => vbase + size < limit).map (DmaSegment.mk vbase) := by
  induction sizes with
  | nil => rfl
  | cons size sizes ih =>
    rw [allocAll_cons]
    by_cases h : (init pbase vbase limit).dma.Admits size
    · have hfits : vbase + size < limit := h
      obtain ⟨more, hmore⟩ := granted_isPrefix ((init pbase vbase limit).alloc size) sizes
      rw [← hmore, alloc_of_admits h]
      simp [hfits, init, sel4DmaInit]
    · have hfits : ¬ vbase + size < limit := h
      rw [alloc_of_not_admits h, ih]
      simp [hfits]

/-! ## One program -/

/-- Every granted segment lies between the base and the mark. -/
structure Packed (vbase : ℕ) (p : Pool) : Prop where
  below : ∀ sg ∈ p.granted, vbase ≤ sg.addr.toNat ∧
    sg.addr.toNat + sg.len.toNat ≤ p.dma.allocatedDma.toNat
  disjoint : p.granted.Pairwise fun sg sg' => Disjoint sg.region sg'.region
  base : vbase ≤ p.dma.allocatedDma.toNat

theorem Packed.alloc {vbase : ℕ} {p : Pool} {size : BitVec 64} (h : p.Packed vbase)
    (hwrap : p.dma.Admits size → p.dma.allocatedDma.toNat + size.toNat < 2 ^ 64) :
    (p.alloc size).Packed vbase := by
  -- A refused request changes nothing; a granted one is appended at the mark.
  by_cases hadmissible : p.dma.Admits size
  · have hwrap := hwrap hadmissible
    have hmark : (p.dma.allocatedDma + size).toNat = p.dma.allocatedDma.toNat + size.toNat := by
      rw [BitVec.toNat_add, Nat.mod_eq_of_lt hwrap]
    have hbase := h.base
    rw [alloc_of_admits hadmissible]
    refine ⟨?_, ?_, by simp only [hmark]; omega⟩
    · intro sg hsg
      simp only [hmark]
      rcases List.mem_append.mp hsg with hsg | hsg
      · have hbelow := h.below sg hsg
        omega
      · obtain rfl := List.mem_singleton.mp hsg
        exact ⟨hbase, le_refl _⟩
    · -- The new segment starts where all others have ended.
      refine List.pairwise_append.mpr ⟨h.disjoint, List.pairwise_singleton _ _, ?_⟩
      intro sg hsg new hnew
      obtain rfl := List.mem_singleton.mp hnew
      have hbelow := h.below sg hsg
      rw [Set.disjoint_left]
      intro a ha hnew
      rw [DmaSegment.mem_region_iff (by omega)] at ha
      rw [DmaSegment.mem_region_iff hwrap] at hnew
      dsimp only at hnew
      omega
  · rw [alloc_of_not_admits hadmissible]
    exact h

theorem alloc_mark_le (p : Pool) (size : BitVec 64) :
    (p.alloc size).dma.allocatedDma.toNat ≤ p.dma.allocatedDma.toNat + size.toNat := by
  by_cases hadmissible : p.dma.Admits size
  · rw [alloc_of_admits hadmissible]
    simp only [BitVec.toNat_add]
    exact Nat.mod_le _ _
  · rw [alloc_of_not_admits hadmissible]
    omega

theorem Packed.allocAll {vbase : ℕ} {p : Pool} {sizes : List (BitVec 64)} (h : p.Packed vbase)
    (hwrap : p.dma.allocatedDma.toNat + (sizes.map BitVec.toNat).sum < 2 ^ 64) :
    (p.allocAll sizes).Packed vbase := by
  induction sizes generalizing p with
  | nil => exact h
  | cons size sizes ih =>
    rw [List.map_cons, List.sum_cons] at hwrap
    have hmark := p.alloc_mark_le size
    exact ih (h.alloc fun _ => by omega) (by omega)

theorem packed_init (pbase vbase limit : BitVec 64) :
    (init pbase vbase limit).Packed vbase.toNat :=
  ⟨by simp [init], by simp [init], le_refl _⟩

/-- The segments granted to one program do not overlap, as long as the sizes asked for do
not run over the end of the address space. -/
theorem granted_disjoint (pbase vbase limit : BitVec 64) (sizes : List (BitVec 64))
    (hwrap : vbase.toNat + (sizes.map BitVec.toNat).sum < 2 ^ 64) :
    ((init pbase vbase limit).allocAll sizes).granted.Pairwise fun sg sg' =>
      Disjoint sg.region sg'.region :=
  ((packed_init pbase vbase limit).allocAll hwrap).disjoint

end Pool

end Sel4Xhci.Dma
