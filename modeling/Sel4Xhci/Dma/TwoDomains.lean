import Sel4Xhci.Dma.Basic
import Sel4Xhci.Semantics.Machine

/-!
# Two domains on one DMA pool

`xhci_stub` and `software_interrupts` map the same `dma_pool` at the same address, and
each initialises its own copy of the allocator with the same base and limit. Nothing
couples the two copies: each domain is granted what it would be granted alone, and starts
at the base of the pool.

## Main results

* `exec_domain` — an interleaving is seen by each domain as its own calls alone
* `granted_disjoint_iff` — the domains keep apart exactly when one of them is granted
  nothing
-/

set_option autoImplicit false

namespace Sel4Xhci.Dma

open Semantics

/-- The domains that allocate through `dma.o`. -/
inductive Domain
  | xhciStub
  | softwareInterrupts
  deriving DecidableEq, Repr

/-- An allocation: who asks, and for how much. -/
abbrev DmaCall := Domain × BitVec 64

/-- The two programs, each with its own copy of the allocator. -/
def twoDomains : Machine (Domain → Pool) DmaCall where
  start s := ∃ pbase vbase limit, s = fun _ => Pool.init pbase vbase limit
  step s call := some (Function.update s call.1 ((s call.1).alloc call.2))

/-- What domain `d` asks for, in order. -/
def sizesOf (d : Domain) (calls : List DmaCall) : List (BitVec 64) :=
  calls.filterMap fun call => if call.1 = d then some call.2 else none

/-- Each domain's allocator sees its own calls only. -/
theorem exec_domain {s s' : Domain → Pool} {calls : List DmaCall}
    (hrun : twoDomains.exec s calls = some s') (d : Domain) :
    s' d = (s d).allocAll (sizesOf d calls) := by
  induction calls generalizing s with
  | nil =>
    obtain rfl := Option.some.inj hrun
    rfl
  | cons call calls ih =>
    obtain ⟨mid, hmid, hrest⟩ := Machine.exec_cons_eq_some.mp hrun
    obtain rfl := Option.some.inj hmid
    rw [ih hrest]
    by_cases hd : call.1 = d
    · have hsizes : sizesOf d (call :: calls) = call.2 :: sizesOf d calls := by
        simp [sizesOf, hd]
      rw [hsizes, Pool.allocAll_cons, ← hd, Function.update_self]
    · have hsizes : sizesOf d (call :: calls) = sizesOf d calls := by simp [sizesOf, hd]
      rw [hsizes, Function.update_of_ne (Ne.symm hd)]

/-- Domain `d` asks for a size that fits at the base of the pool. -/
def Served (vbase limit : BitVec 64) (calls : List DmaCall) (d : Domain) : Prop :=
  ∃ size ∈ sizesOf d calls, vbase + size < limit

instance (vbase limit : BitVec 64) (calls : List DmaCall) (d : Domain) :
    Decidable (Served vbase limit calls d) :=
  inferInstanceAs (Decidable (∃ size ∈ sizesOf d calls, vbase + size < limit))

section Runs

variable {pbase vbase limit : BitVec 64} {calls : List DmaCall} {s : Domain → Pool}

/-- A served domain holds a segment at the base of the pool. -/
theorem Served.base_granted {d : Domain}
    (hrun : twoDomains.exec (fun _ => Pool.init pbase vbase limit) calls = some s)
    (h : Served vbase limit calls d) :
    ∃ size ∈ sizesOf d calls, ⟨vbase, size⟩ ∈ (s d).granted := by
  obtain ⟨size, hsize, hfits⟩ := h
  -- The first size that fits is granted, and granted at the base.
  have hhead := Pool.head?_granted pbase vbase limit (sizesOf d calls)
  rw [← exec_domain hrun d] at hhead
  obtain ⟨first, hfirst⟩ := Option.isSome_iff_exists.mp
    (List.find?_isSome (p := fun size => vbase + size < limit) |>.mpr
      ⟨size, hsize, decide_eq_true hfits⟩)
  rw [hfirst, Option.map_some] at hhead
  exact ⟨first, List.mem_of_find?_eq_some hfirst, List.mem_of_head? hhead⟩

/-- A domain that is granted anything is served. -/
theorem served_of_granted {d : Domain} {sg : DmaSegment}
    (hrun : twoDomains.exec (fun _ => Pool.init pbase vbase limit) calls = some s)
    (h : sg ∈ (s d).granted) : Served vbase limit calls d := by
  have hhead := Pool.head?_granted pbase vbase limit (sizesOf d calls)
  rw [← exec_domain hrun d] at hhead
  cases hfind : (sizesOf d calls).find? fun size => vbase + size < limit with
  | none =>
    rw [hfind, Option.map_none, List.head?_eq_none_iff] at hhead
    rw [hhead] at h
    cases h
  | some size =>
    have hfits := List.find?_some hfind
    exact ⟨size, List.mem_of_find?_eq_some hfind, by simpa using hfits⟩

/-- For every interleaving of allocations with positive sizes: the segments of one domain
are disjoint from those of the other exactly when not both ask for a size that fits at the
base of the pool. -/
theorem granted_disjoint_iff
    (hrun : twoDomains.exec (fun _ => Pool.init pbase vbase limit) calls = some s)
    (hpos : ∀ call ∈ calls, 0#64 < call.2) :
    (∀ sg ∈ (s .xhciStub).granted, ∀ sg' ∈ (s .softwareInterrupts).granted,
      Disjoint sg.region sg'.region) ↔
    ¬ (Served vbase limit calls .xhciStub ∧ Served vbase limit calls .softwareInterrupts) := by
  have hsize : ∀ d, ∀ size ∈ sizesOf d calls, 0#64 < size := by
    intro d size hmem
    obtain ⟨call, hcall, hsome⟩ := List.mem_filterMap.mp hmem
    split_ifs at hsome
    obtain rfl := Option.some.inj hsome
    exact hpos call hcall
  constructor
  · rintro hdisjoint ⟨hstub, hsoft⟩
    -- Both domains hold the base of the pool.
    obtain ⟨size, hmem, hgranted⟩ := hstub.base_granted hrun
    obtain ⟨size', hmem', hgranted'⟩ := hsoft.base_granted hrun
    exact Set.disjoint_left.mp (hdisjoint _ hgranted _ hgranted')
      (DmaSegment.addr_mem_region (hsize _ size hmem))
      (DmaSegment.addr_mem_region (hsize _ size' hmem'))
  · intro hserved sg hsg sg' hsg'
    exact absurd ⟨served_of_granted hrun hsg, served_of_granted hrun hsg'⟩ hserved

end Runs

/-- Three calls of which `software_interrupts` makes one, for more than the pool holds. -/
def oversizedCall : List DmaCall :=
  [(.xhciStub, 64#64), (.softwareInterrupts, 0x200000#64), (.xhciStub, 128#64)]

theorem granted_disjoint_oversizedCall :
    ∃ s, twoDomains.exec (fun _ => Pool.init 0x80000000#64 0x54000000#64 0x54200000#64)
        oversizedCall = some s ∧
      (s .xhciStub).granted = [⟨0x54000000#64, 64#64⟩, ⟨0x54000040#64, 128#64⟩] ∧
      ∀ sg ∈ (s .xhciStub).granted, ∀ sg' ∈ (s .softwareInterrupts).granted,
        Disjoint sg.region sg'.region := by
  obtain ⟨s, hrun, hgranted⟩ := Option.map_eq_some_iff.mp
    (show (twoDomains.exec (fun _ => Pool.init 0x80000000#64 0x54000000#64 0x54200000#64)
        oversizedCall).map (fun s => (s .xhciStub).granted) =
      some [⟨0x54000000#64, 64#64⟩, ⟨0x54000040#64, 128#64⟩] by decide)
  have hserved : ¬ (Served 0x54000000#64 0x54200000#64 oversizedCall .xhciStub ∧
      Served 0x54000000#64 0x54200000#64 oversizedCall .softwareInterrupts) := by
    rintro ⟨-, size, hsize, hfits⟩
    obtain rfl := List.mem_singleton.mp hsize
    exact absurd hfits (by decide)
  exact ⟨s, hrun, hgranted, (granted_disjoint_iff hrun (by decide)).mpr hserved⟩

/-- Two small allocations, one in each domain, get the same memory. -/
theorem both_domains_granted_base :
    ¬ ∀ (pbase vbase limit : BitVec 64) (calls : List DmaCall) (s : Domain → Pool),
      twoDomains.exec (fun _ => Pool.init pbase vbase limit) calls = some s →
      (∀ call ∈ calls, 0#64 < call.2) →
      ∀ sg ∈ (s .xhciStub).granted, ∀ sg' ∈ (s .softwareInterrupts).granted,
        Disjoint sg.region sg'.region := by
  intro h
  obtain ⟨s, hrun, hobs⟩ := Option.map_eq_some_iff.mp
    (show (twoDomains.exec (fun _ => Pool.init 0x80000000#64 0x54000000#64 0x54200000#64)
        [(.xhciStub, 64#64), (.softwareInterrupts, 64#64)]).map
      (fun s => ((s .xhciStub).granted, (s .softwareInterrupts).granted)) =
        some ([⟨0x54000000#64, 64#64⟩], [⟨0x54000000#64, 64#64⟩]) by decide)
  obtain ⟨hstub, hsoft⟩ := Prod.mk.inj hobs
  have hdisjoint := h _ _ _ _ s hrun (by decide) ⟨0x54000000#64, 64#64⟩ (by simp [hstub])
    ⟨0x54000000#64, 64#64⟩ (by simp [hsoft])
  have hbase : 0x54000000#64 ∈ DmaSegment.region ⟨0x54000000#64, 64#64⟩ :=
    DmaSegment.addr_mem_region (by decide)
  exact Set.disjoint_left.mp hdisjoint hbase hbase

end Sel4Xhci.Dma
