import Sel4Xhci.Semantics.FreeRunning

/-!
# The shared ring buffer

The data structures and the sequential operations of `shared_ringbuffer.h`: a ring
of `SIZE` descriptors between two free-running 32-bit indices, one written by the
side that enqueues, the other by the side that dequeues.

A `void *` cookie is either the client's own pointer or, from `driver_dequeue`, a
pointer to a slot of the ring.

## Main definitions

* `RingBuffer`, `enqueue`, `dequeue`, `driverDequeue` — the code
* `RingBuffer.Stores` — the ring stores a list of descriptors, oldest first

## Main results

* `Stores.ringEmpty_iff`, `Stores.ringFull_iff` — the two tests against the list
* `Stores.enqueue`, `Stores.take` — one call at a time, the ring is a bounded queue
-/

set_option autoImplicit false

namespace Sel4Xhci.Ring

open Semantics.FreeRunning

/-- `SIZE`: the number of slots of a ring. -/
abbrev SIZE : ℕ := 512

/-- A `void *` that travels with a buffer. -/
inductive Cookie
  | client (pointer : BitVec 64)
  | entry (slot : Fin SIZE)
  deriving DecidableEq, Repr

/-- `struct buff_desc`. -/
structure BuffDesc where
  encodedAddr : BitVec 64
  len : BitVec 32
  cookie : Cookie
  deriving DecidableEq, Repr

/-- `struct ring_buffer`. -/
structure RingBuffer where
  writeIdx : BitVec 32
  readIdx : BitVec 32
  buffers : Fin SIZE → BuffDesc

/-- The three fields of a slot, in the order the code stores and loads them. -/
inductive Field
  | encodedAddr
  | len
  | cookie
  deriving DecidableEq, Repr

/-- Copy one field of a descriptor into another. -/
def BuffDesc.copyField (dst src : BuffDesc) : Field → BuffDesc
  | .encodedAddr => { dst with encodedAddr := src.encodedAddr }
  | .len => { dst with len := src.len }
  | .cookie => { dst with cookie := src.cookie }

namespace RingBuffer

variable (ring : RingBuffer)

/-- `ring->buffers[i % SIZE]`. -/
def entry (i : BitVec 32) : BuffDesc := ring.buffers (slot SIZE i)

/-- The store of one field of `d` to `ring->buffers[i % SIZE]`. -/
def storeField (i : BitVec 32) (d : BuffDesc) (f : Field) : RingBuffer :=
  { ring with
    buffers := Function.update ring.buffers (slot SIZE i) ((ring.entry i).copyField d f) }

end RingBuffer

/-- The test of `ring_empty` on the two index values it has loaded. -/
def emptyTest (writeIdx readIdx : BitVec 32) : Bool := (writeIdx - readIdx) % 512#32 == 0#32

/-- The test of `ring_full` on the two index values it has loaded. -/
def fullTest (writeIdx readIdx : BitVec 32) : Bool :=
  (writeIdx - readIdx + 1#32) % 512#32 == 0#32

/-- `ring_empty`. -/
def ringEmpty (ring : RingBuffer) : Bool := emptyTest ring.writeIdx ring.readIdx

/-- `ring_full`. -/
def ringFull (ring : RingBuffer) : Bool := fullTest ring.writeIdx ring.readIdx

/-- `ring_size`. -/
def ringSize (ring : RingBuffer) : BitVec 32 := ring.writeIdx - ring.readIdx

/-- `enqueue` of `d.encodedAddr`, `d.len` and `d.cookie`: the return value and the ring
afterwards. -/
def enqueue (ring : RingBuffer) (d : BuffDesc) : ℤ × RingBuffer :=
  if ringFull ring then
    (-1, ring)
  else
    -- The slot is complete before the index makes it visible.
    let ring := ring.storeField ring.writeIdx d .encodedAddr
    let ring := ring.storeField ring.writeIdx d .len
    let ring := ring.storeField ring.writeIdx d .cookie
    (0, { ring with writeIdx := ring.writeIdx + 1#32 })

/-- The two functions that take a descriptor from a ring. -/
inductive Taker
  | dequeue
  | driverDequeue
  deriving DecidableEq, Repr

/-- What a taker stores through `*addr`, `*len` and `*cookie`, from the slot that index
`i` names. They differ in the cookie: `driver_dequeue` hands out a pointer to the slot. -/
def Taker.outputs (t : Taker) (ring : RingBuffer) (i : BitVec 32) : BuffDesc :=
  match t with
  | .dequeue => ring.entry i
  | .driverDequeue => { ring.entry i with cookie := .entry (slot SIZE i) }

/-- The body shared by `dequeue` and `driver_dequeue`: the return value, the caller's
three variables (`out` before the call) and the ring. -/
def Taker.take (t : Taker) (ring : RingBuffer) (out : BuffDesc) : ℤ × BuffDesc × RingBuffer :=
  if ringEmpty ring then
    (-1, out, ring)
  else
    (0, t.outputs ring ring.readIdx, { ring with readIdx := ring.readIdx + 1#32 })

/-- `dequeue`. -/
def dequeue (ring : RingBuffer) (out : BuffDesc) : ℤ × BuffDesc × RingBuffer :=
  Taker.dequeue.take ring out

/-- `driver_dequeue`. -/
def driverDequeue (ring : RingBuffer) (out : BuffDesc) : ℤ × BuffDesc × RingBuffer :=
  Taker.driverDequeue.take ring out

theorem take_of_empty {ring : RingBuffer} (h : ringEmpty ring = true) (t : Taker)
    (out : BuffDesc) : t.take ring out = (-1, out, ring) := if_pos h

theorem take_of_not_empty {ring : RingBuffer} (h : ringEmpty ring ≠ true) (t : Taker)
    (out : BuffDesc) : t.take ring out =
      (0, t.outputs ring ring.readIdx, { ring with readIdx := ring.readIdx + 1#32 }) := if_neg h

@[simp] theorem storeField_writeIdx (ring : RingBuffer) (i : BitVec 32) (d : BuffDesc) (f : Field) :
    (ring.storeField i d f).writeIdx = ring.writeIdx := rfl

@[simp] theorem storeField_readIdx (ring : RingBuffer) (i : BitVec 32) (d : BuffDesc) (f : Field) :
    (ring.storeField i d f).readIdx = ring.readIdx := rfl

@[simp] theorem entry_storeField (ring : RingBuffer) (i : BitVec 32) (d : BuffDesc) (f : Field) :
    (ring.storeField i d f).entry i = (ring.entry i).copyField d f := by
  simp [RingBuffer.entry, RingBuffer.storeField]

@[simp] theorem outputs_encodedAddr (t : Taker) (ring : RingBuffer) (i : BitVec 32) :
    (t.outputs ring i).encodedAddr = (ring.entry i).encodedAddr := by
  cases t <;> rfl

@[simp] theorem outputs_len (t : Taker) (ring : RingBuffer) (i : BitVec 32) :
    (t.outputs ring i).len = (ring.entry i).len := by
  cases t <;> rfl

theorem size_dvd : SIZE ∣ 2 ^ 32 := by decide

theorem emptyTest_iff (w r : BitVec 32) :
    emptyTest w r = true ↔ (w - r).toNat % 512 = 0 := by
  simp only [emptyTest, beq_iff_eq, ← BitVec.toNat_inj, BitVec.toNat_umod]
  rfl

theorem fullTest_iff (w r : BitVec 32) :
    fullTest w r = true ↔ ((w - r).toNat + 1) % 512 = 0 := by
  have hsucc : (w - r + 1#32).toNat % 512 = ((w - r).toNat + 1) % 512 := by
    rw [BitVec.toNat_add, BitVec.toNat_one (by decide)]
    omega
  simp only [fullTest, beq_iff_eq, ← BitVec.toNat_inj, BitVec.toNat_umod]
  exact iff_of_eq (congrArg (· = 0) hsucc)

namespace RingBuffer

/-- The ring stores the descriptors `q`, oldest first: they sit in the slots from
`read_idx` on, `write_idx` is just behind the last one, and one slot is free. -/
structure Stores (ring : RingBuffer) (q : List BuffDesc) : Prop where
  holds : Holds ring.buffers ring.readIdx q
  writeIdx : ring.writeIdx = ring.readIdx + BitVec.ofNat 32 q.length
  length_lt : q.length < SIZE

namespace Stores

variable {ring : RingBuffer} {q : List BuffDesc}

/-- A ring whose two indices are equal stores nothing. -/
theorem of_eq (h : ring.writeIdx = ring.readIdx) : ring.Stores [] :=
  ⟨trivial, by simpa using h, by decide⟩

/-- The free-running difference of the indices is the number of stored descriptors. -/
theorem toNat_sub (h : ring.Stores q) : (ring.writeIdx - ring.readIdx).toNat = q.length := by
  have hlt : q.length < 512 := h.length_lt
  rw [h.writeIdx, BitVec.add_comm, BitVec.add_sub_cancel, BitVec.toNat_ofNat,
    Nat.mod_eq_of_lt (by omega)]

theorem ringEmpty_iff (h : ring.Stores q) : ringEmpty ring = true ↔ q = [] := by
  have hlt := h.length_lt
  rw [ringEmpty, emptyTest_iff, h.toNat_sub, Nat.mod_eq_of_lt hlt, List.length_eq_zero_iff]

theorem ringFull_iff (h : ring.Stores q) : ringFull ring = true ↔ q.length = SIZE - 1 := by
  have hlt : q.length < 512 := h.length_lt
  rw [ringFull, fullTest_iff, h.toNat_sub]
  change (q.length + 1) % 512 = 0 ↔ q.length = 511
  omega

/-- The slot that `read_idx` names holds the oldest descriptor. -/
theorem entry_readIdx {d : BuffDesc} {rest : List BuffDesc} (h : ring.Stores (d :: rest)) :
    ring.entry ring.readIdx = d :=
  (holds_cons.mp h.holds).1

/-- A store to the slot behind the last descriptor leaves all of them in place. -/
theorem storeField (h : ring.Stores q) (d : BuffDesc) (f : Field) :
    (ring.storeField ring.writeIdx d f).Stores q := by
  refine ⟨?_, h.writeIdx, h.length_lt⟩
  have hbeyond := h.holds.update_beyond size_dvd le_rfl h.length_lt
    ((ring.entry ring.writeIdx).copyField d f)
  rwa [← h.writeIdx] at hbeyond

/-- Advancing `write_idx` appends what the slot behind the last descriptor holds. -/
theorem advance_writeIdx (h : ring.Stores q) (hroom : q.length + 1 < SIZE) :
    ({ ring with writeIdx := ring.writeIdx + 1#32 } : RingBuffer).Stores
      (q ++ [ring.entry ring.writeIdx]) := by
  refine ⟨h.holds.push ?_, ?_, by simpa using hroom⟩
  · rw [entry, h.writeIdx]
  · simp only [List.length_append, List.length_singleton, BitVec.ofNat_add]
    rw [h.writeIdx, BitVec.add_assoc]

/-- Advancing `read_idx` removes the oldest descriptor, which is the one in the slot that
`read_idx` names. -/
theorem advance_readIdx (h : ring.Stores q) (hne : 0 < q.length) :
    ∃ rest, q = ring.entry ring.readIdx :: rest ∧
      ({ ring with readIdx := ring.readIdx + 1#32 } : RingBuffer).Stores rest := by
  obtain ⟨rest, hq, hrest⟩ := h.holds.pop hne
  refine ⟨rest, hq, hrest, ?_, ?_⟩
  · rw [h.writeIdx, hq, List.length_cons, Nat.add_comm, BitVec.ofNat_add, BitVec.add_assoc]
  · have hlt := h.length_lt
    rw [hq, List.length_cons] at hlt
    omega

/-- Once all fields of the slot behind the last descriptor are stored, the slot holds
what was to be enqueued. -/
theorem entry_stored (ring : RingBuffer) (d : BuffDesc) :
    (((ring.storeField ring.writeIdx d .encodedAddr).storeField ring.writeIdx d .len).storeField
      ring.writeIdx d .cookie).entry ring.writeIdx = d := by
  simp [BuffDesc.copyField]

/-- `enqueue` refuses a descriptor when `SIZE - 1` are stored, and else stores it last. -/
theorem enqueue (h : ring.Stores q) (d : BuffDesc) :
    q.length = SIZE - 1 ∧ Ring.enqueue ring d = (-1, ring) ∨
    q.length < SIZE - 1 ∧ (Ring.enqueue ring d).1 = 0 ∧
      (Ring.enqueue ring d).2.Stores (q ++ [d]) := by
  have hlt := h.length_lt
  by_cases hfull : ringFull ring = true
  · refine .inl ⟨h.ringFull_iff.mp hfull, ?_⟩
    simp [Ring.enqueue, hfull]
  · have hroom : q.length ≠ SIZE - 1 := fun hlength => hfull (h.ringFull_iff.mpr hlength)
    -- Three stores to the free slot, then the index.
    have hstored := ((h.storeField d .encodedAddr).storeField d .len).storeField d .cookie
    have hadvanced := hstored.advance_writeIdx (by omega)
    simp only [storeField_writeIdx, entry_stored] at hadvanced
    refine .inr ⟨by omega, ?_, ?_⟩
    · simp [Ring.enqueue, hfull]
    · simpa [Ring.enqueue, hfull] using hadvanced

/-- `dequeue` and `driver_dequeue` fail on an empty ring and leave the caller's variables
alone; else they hand out the address and length of the oldest descriptor and remove it. -/
theorem take (h : ring.Stores q) (t : Taker) (out : BuffDesc) :
    q = [] ∧ t.take ring out = (-1, out, ring) ∨
    ∃ d rest, q = d :: rest ∧ (t.take ring out).1 = 0 ∧
      (t.take ring out).2.1.encodedAddr = d.encodedAddr ∧
      (t.take ring out).2.1.len = d.len ∧ (t.take ring out).2.2.Stores rest := by
  by_cases hempty : ringEmpty ring = true
  · exact .inl ⟨h.ringEmpty_iff.mp hempty, take_of_empty hempty t out⟩
  · have hne : q ≠ [] := fun hnil => hempty (h.ringEmpty_iff.mpr hnil)
    obtain ⟨rest, hq, hrest⟩ := h.advance_readIdx (List.length_pos_of_ne_nil hne)
    refine .inr ⟨_, rest, hq, ?_⟩
    rw [take_of_not_empty hempty]
    exact ⟨rfl, outputs_encodedAddr t ring _, outputs_len t ring _, hrest⟩

end Stores

end RingBuffer

end Sel4Xhci.Ring
