import Sel4Xhci.Ring.Basic
import Sel4Xhci.Semantics.BoundedQueue

/-!
# The ring as a bounded queue

Whole runs of `enqueue`, `dequeue` and `driver_dequeue` on one ring, by one side at a time.
One of the `SIZE` slots stays free, so the ring is a queue of capacity 511.

## Main definitions

* `ringRun` — the operations as a machine, with a record of what they returned
* `RingRun.pending` — the descriptors enqueued and not yet dequeued
* `ActsAsQueue` — the tests and the next operation behave as those of a bounded queue

## Main results

* `ringRun_simulates` — the ring refines the abstract bounded queue
* `actsAsQueue_of_exec` — after every run the ring acts as the queue of what is pending
-/

set_option autoImplicit false

namespace Sel4Xhci.Ring

open Semantics Semantics.FreeRunning

/-- A ring with the descriptors that `enqueue` has returned 0 for, and how many calls that
take a descriptor have returned 0. -/
structure RingRun where
  ring : RingBuffer
  accepted : List BuffDesc
  taken : ℕ

/-- The descriptors enqueued and not yet dequeued. -/
def RingRun.pending (r : RingRun) : List BuffDesc := r.accepted.drop r.taken

/-- The operations on a ring; a taker is called with some contents of its three output
variables. -/
inductive RingOp
  | enqueue (d : BuffDesc)
  | take (t : Taker) (out : BuffDesc)

/-- The ring as a machine, started with equal indices. -/
def ringRun : Machine RingRun RingOp where
  start r := r.ring.writeIdx = r.ring.readIdx ∧ r.accepted = [] ∧ r.taken = 0
  step r
    | .enqueue d =>
      let (value, ring) := enqueue r.ring d
      some ⟨ring, if value = 0 then r.accepted ++ [d] else r.accepted, r.taken⟩
    | .take t out =>
      let (value, _, ring) := t.take r.ring out
      some ⟨ring, r.accepted, if value = 0 then r.taken + 1 else r.taken⟩

theorem ringRun_enqueue (r : RingRun) (d : BuffDesc) :
    ringRun.step r (.enqueue d) = some ⟨(enqueue r.ring d).2,
      if (enqueue r.ring d).1 = 0 then r.accepted ++ [d] else r.accepted, r.taken⟩ := rfl

theorem ringRun_take (r : RingRun) (t : Taker) (out : BuffDesc) :
    ringRun.step r (.take t out) = some ⟨(t.take r.ring out).2.2, r.accepted,
      if (t.take r.ring out).1 = 0 then r.taken + 1 else r.taken⟩ := rfl

/-! ## Refinement -/

/-- The operation of the abstract queue that an operation on the ring carries out. -/
def RingOp.toOp : RingOp → BoundedQueue.Op BuffDesc
  | .enqueue d => .put d
  | .take _ _ => .get

/-- The ring stores the items of the abstract queue, and both records agree. -/
structure Refines (r : RingRun) (t : BoundedQueue.Trace BuffDesc (SIZE - 1)) : Prop where
  stores : r.ring.Stores t.queue.items
  accepted : r.accepted = t.accepted
  taken : r.taken = t.delivered.length

theorem refines_enqueue {r r' : RingRun} {t : BoundedQueue.Trace BuffDesc (SIZE - 1)}
    (h : Refines r t) {d : BuffDesc} (hstep : ringRun.step r (.enqueue d) = some r') :
    ∃ t', (BoundedQueue.machine BuffDesc (SIZE - 1)).step t (.put d) = some t' ∧
      Refines r' t' := by
  rw [ringRun_enqueue, Option.some.injEq] at hstep
  subst hstep
  rcases h.stores.enqueue d with ⟨hfull, henqueue⟩ | ⟨hroom, hvalue, hstores⟩
  · -- Both sides refuse the descriptor.
    refine ⟨t, ?_, ?_, ?_, h.taken⟩
    · simp [BoundedQueue.machine, BoundedQueue.put_of_full hfull]
    · simpa only [henqueue] using h.stores
    · simpa [henqueue] using h.accepted
  · -- Both sides put it last.
    obtain ⟨q, hq, hitems⟩ := BoundedQueue.put_of_room hroom d
    refine ⟨⟨q, t.accepted ++ [d], t.delivered⟩, ?_, ?_, ?_, h.taken⟩
    · simp [BoundedQueue.machine, hq]
    · rw [hitems]
      exact hstores
    · simp [hvalue, h.accepted]

theorem refines_take {r r' : RingRun} {t : BoundedQueue.Trace BuffDesc (SIZE - 1)}
    (h : Refines r t) {taker : Taker} {out : BuffDesc}
    (hstep : ringRun.step r (.take taker out) = some r') :
    ∃ t', (BoundedQueue.machine BuffDesc (SIZE - 1)).step t .get = some t' ∧ Refines r' t' := by
  rw [ringRun_take, Option.some.injEq] at hstep
  subst hstep
  rcases h.stores.take taker out with ⟨hempty, htake⟩ | ⟨d, rest, hitems, hvalue, -, -, hstores⟩
  · refine ⟨t, ?_, ?_, h.accepted, ?_⟩
    · simp [BoundedQueue.machine, BoundedQueue.get_of_nil hempty]
    · simpa only [htake] using h.stores
    · simpa [htake] using h.taken
  · obtain ⟨q, hq, hrest⟩ := BoundedQueue.get_of_cons hitems
    refine ⟨⟨q, t.accepted, t.delivered ++ [d]⟩, ?_, ?_, h.accepted, ?_⟩
    · simp [BoundedQueue.machine, hq]
    · rw [hrest]
      exact hstores
    · simp [hvalue, h.taken]

/-- Every operation on the ring is one operation on the abstract queue. -/
theorem refines_step {r r' : RingRun} {t : BoundedQueue.Trace BuffDesc (SIZE - 1)}
    (h : Refines r t) {op : RingOp} (hstep : ringRun.step r op = some r') :
    ∃ t', (BoundedQueue.machine BuffDesc (SIZE - 1)).step t op.toOp = some t' ∧
      Refines r' t' := by
  cases op with
  | enqueue d => exact refines_enqueue h hstep
  | take taker out => exact refines_take h hstep

theorem ringRun_simulates :
    ringRun.Simulates (BoundedQueue.machine BuffDesc (SIZE - 1)) Refines where
  start r hr := by
    obtain ⟨hindices, haccepted, htaken⟩ := hr
    exact ⟨⟨BoundedQueue.empty, [], []⟩, rfl, RingBuffer.Stores.of_eq hindices, haccepted, htaken⟩
  step r t op r' h hstep := by
    obtain ⟨t', ht', h'⟩ := refines_step h hstep
    exact ⟨[op.toOp], t', Machine.exec_singleton.mpr ht', h'⟩

/-- After any run, the ring stores what is pending. -/
theorem stores_pending {r r' : RingRun} {ops : List RingOp} (hstart : ringRun.start r)
    (hrun : ringRun.exec r ops = some r') : r'.ring.Stores r'.pending := by
  obtain ⟨t, ht, h⟩ := ringRun_simulates.start r hstart
  obtain ⟨steps, t', hsteps, h'⟩ := ringRun_simulates.exec h hrun
  have hconserves := BoundedQueue.conservation ht hsteps
  -- What the abstract queue holds is what it has accepted and not yet delivered.
  rw [RingRun.pending, h'.accepted, h'.taken, ← hconserves.items_eq]
  exact h'.stores

/-! ## The behaviour of the next call -/

/-- The ring acts as the bounded queue `q`: the three tests tell its length, and one more
call does to the ring what it would do to `q`. -/
structure ActsAsQueue (ring : RingBuffer) (q : List BuffDesc) : Prop where
  size : (ringSize ring).toNat = q.length ∧ q.length ≤ 511
  empty : ringEmpty ring = true ↔ q = []
  full : ringFull ring = true ↔ q.length = 511
  refuses_enqueue : ∀ d, (enqueue ring d).1 = -1 ↔ q.length = 511
  enqueue_full : q.length = 511 → ∀ d, (enqueue ring d).2 = ring
  enqueue_room : q.length < 511 → ∀ d, (enqueue ring d).1 = 0 ∧
    (enqueue ring d).2.Stores (q ++ [d]) ∧ (enqueue ring d).2.readIdx = ring.readIdx ∧
    ∀ n < q.length, (enqueue ring d).2.entry (ring.readIdx + BitVec.ofNat 32 n) =
      ring.entry (ring.readIdx + BitVec.ofNat 32 n)
  refuses_take : ∀ (t : Taker) out, (t.take ring out).1 = -1 ↔ q = []
  take_empty : q = [] → ∀ (t : Taker) out, t.take ring out = (-1, out, ring)
  take_head : ∀ d rest, q = d :: rest → ∀ (t : Taker) out, (t.take ring out).1 = 0 ∧
    (t.take ring out).2.1.encodedAddr = d.encodedAddr ∧ (t.take ring out).2.1.len = d.len ∧
    (t.take ring out).2.2.Stores rest ∧ (t.take ring out).2.2.buffers = ring.buffers
  dequeue_head : ∀ d rest, q = d :: rest → ∀ out, (dequeue ring out).2.1 = d

section NextCall

variable {ring : RingBuffer} {q : List BuffDesc}

theorem enqueue_cases (h : ring.Stores q) (d : BuffDesc) :
    q.length = 511 ∧ enqueue ring d = (-1, ring) ∨
    q.length < 511 ∧ (enqueue ring d).1 = 0 ∧ (enqueue ring d).2.Stores (q ++ [d]) :=
  h.enqueue d

theorem enqueue_readIdx (ring : RingBuffer) (d : BuffDesc) :
    (enqueue ring d).2.readIdx = ring.readIdx := by
  unfold enqueue
  split_ifs <;> rfl

/-- `enqueue` leaves the slots of all stored descriptors as they are. -/
theorem entry_enqueue (h : ring.Stores q) (d : BuffDesc)
    (hstores : (enqueue ring d).2.Stores (q ++ [d])) {n : ℕ} (hn : n < q.length) :
    (enqueue ring d).2.entry (ring.readIdx + BitVec.ofNat 32 n) =
      ring.entry (ring.readIdx + BitVec.ofNat 32 n) := by
  -- Before and after, the slot holds the `n`-th descriptor.
  have hlength : n < (q ++ [d]).length := by
    rw [List.length_append]
    omega
  have hafter := hstores.holds.getElem hlength
  rw [enqueue_readIdx, List.getElem_append_left hn] at hafter
  exact hafter.trans (h.holds.getElem hn).symm

theorem take_buffers (t : Taker) (ring : RingBuffer) (out : BuffDesc) :
    (t.take ring out).2.2.buffers = ring.buffers := by
  unfold Taker.take
  split_ifs <;> rfl

theorem dequeue_of_cons {d : BuffDesc} {rest : List BuffDesc} (h : ring.Stores (d :: rest))
    (out : BuffDesc) : (dequeue ring out).2.1 = d := by
  have hne : ringEmpty ring ≠ true := by
    rw [Ne, h.ringEmpty_iff]
    exact List.cons_ne_nil d rest
  rw [dequeue, take_of_not_empty hne]
  exact h.entry_readIdx

/-- A ring that stores a list acts as the queue of that list. -/
theorem actsAsQueue (h : ring.Stores q) : ActsAsQueue ring q := by
  have hlt : q.length < 512 := h.length_lt
  constructor
  case size => exact ⟨h.toNat_sub, by omega⟩
  case empty => exact h.ringEmpty_iff
  case full => exact h.ringFull_iff
  case refuses_enqueue =>
    intro d
    rcases enqueue_cases h d with ⟨hfull, henqueue⟩ | ⟨hroom, hvalue, -⟩
    · rw [henqueue]
      exact ⟨fun _ => hfull, fun _ => rfl⟩
    · rw [hvalue]
      exact ⟨fun hminus => absurd hminus (by decide), fun hfull => by omega⟩
  case enqueue_full =>
    intro hfull d
    rcases enqueue_cases h d with ⟨-, henqueue⟩ | ⟨hroom, -⟩
    · rw [henqueue]
    · omega
  case enqueue_room =>
    intro hroom d
    rcases enqueue_cases h d with ⟨hfull, -⟩ | ⟨-, hvalue, hstores⟩
    · omega
    · exact ⟨hvalue, hstores, enqueue_readIdx ring d, fun n hn => entry_enqueue h d hstores hn⟩
  case refuses_take =>
    intro t out
    rcases h.take t out with ⟨hnil, htake⟩ | ⟨d, rest, hcons, hvalue, -⟩
    · rw [htake]
      exact ⟨fun _ => hnil, fun _ => rfl⟩
    · rw [hvalue, hcons]
      exact ⟨fun hminus => absurd hminus (by decide), fun hnil => absurd hnil (by simp)⟩
  case take_empty =>
    rintro rfl t out
    rcases h.take t out with ⟨-, htake⟩ | ⟨d, rest, hcons, -⟩
    · exact htake
    · cases hcons
  case take_head =>
    rintro d rest rfl t out
    rcases h.take t out with ⟨hnil, -⟩ | ⟨first, more, hcons, hvalue, haddr, hlen, hstores⟩
    · cases hnil
    · obtain ⟨rfl, rfl⟩ := List.cons.inj hcons
      exact ⟨hvalue, haddr, hlen, hstores, take_buffers t ring out⟩
  case dequeue_head =>
    rintro d rest rfl out
    exact dequeue_of_cons h out

end NextCall

/-- After every run from equal indices, however often it has wrapped them, the ring acts as
the queue of what is pending. -/
theorem actsAsQueue_of_exec {r r' : RingRun} {ops : List RingOp} (hstart : ringRun.start r)
    (hrun : ringRun.exec r ops = some r') : ActsAsQueue r'.ring r'.pending :=
  actsAsQueue (stores_pending hstart hrun)

/-- A descriptor of the client. -/
def sampleDesc (len : BitVec 32) : BuffDesc := ⟨0x54000000#64, len, .client 0#64⟩

/-- The indices of a ring wrap in this run. -/
theorem actsAsQueue_across_wrap :
    ∃ r, ringRun.exec
        ⟨⟨0xffffffff#32, 0xffffffff#32, fun _ => sampleDesc 0#32⟩, [], 0⟩
        [.enqueue (sampleDesc 8#32), .take .driverDequeue (sampleDesc 0#32),
          .enqueue (sampleDesc 16#32), .enqueue (sampleDesc 24#32),
          .take .dequeue (sampleDesc 0#32)] = some r ∧
      r.ring.readIdx = 1#32 ∧ r.pending = [sampleDesc 24#32] ∧
      ActsAsQueue r.ring r.pending := by
  obtain ⟨r, hrun, hobs⟩ := Option.map_eq_some_iff.mp
    (show (ringRun.exec
        ⟨⟨0xffffffff#32, 0xffffffff#32, fun _ => sampleDesc 0#32⟩, [], 0⟩
        [.enqueue (sampleDesc 8#32), .take .driverDequeue (sampleDesc 0#32),
          .enqueue (sampleDesc 16#32), .enqueue (sampleDesc 24#32),
          .take .dequeue (sampleDesc 0#32)]).map (fun r => (r.ring.readIdx, r.pending)) =
      some (1#32, [sampleDesc 24#32]) by decide)
  obtain ⟨hreadIdx, hpending⟩ := Prod.mk.inj hobs
  exact ⟨r, hrun, hreadIdx, hpending, actsAsQueue_of_exec ⟨rfl, rfl, rfl⟩ hrun⟩

end Sel4Xhci.Ring
