import Sel4Xhci.Ring.Queue

/-!
# The cookie of `driver_dequeue`

Where `dequeue` returns the cookie of a descriptor, `driver_dequeue` returns a pointer to the
slot that holds it, and by then it has released the slot. What keeps the slot from being written
again is the one slot that `ring_full` leaves free: an enqueue never reaches the slot just behind
`read_idx`.

## Main definitions

* `Agrees` — `driver_dequeue` does what `dequeue` does, and points to the cookie
* `Lends` — a slot has been released, and is the last one that was
* `KeepsLent` — the slot that the cookie points to stays as it is

## Main results

* `Lends.enqueue` — an enqueue leaves the slot alone, even the one that fills the ring
* `cookie_valid` — in every reachable ring the cookie can be relied on until the next descriptor
  is taken
-/

set_option autoImplicit false

namespace Sel4Xhci.Ring

open Semantics Semantics.FreeRunning

/-- `driver_dequeue` succeeds when `dequeue` does, with the same address, length and ring
afterwards; its cookie points to a slot with the cookie that `dequeue` returns. -/
structure Agrees (ring : RingBuffer) (out : BuffDesc) : Prop where
  value : (driverDequeue ring out).1 = (dequeue ring out).1
  encodedAddr : (driverDequeue ring out).2.1.encodedAddr = (dequeue ring out).2.1.encodedAddr
  len : (driverDequeue ring out).2.1.len = (dequeue ring out).2.1.len
  afterwards : (driverDequeue ring out).2.2 = (dequeue ring out).2.2
  cookie : (driverDequeue ring out).1 = 0 → ∃ slot,
    (driverDequeue ring out).2.1.cookie = .entry slot ∧
      (ring.buffers slot).cookie = (dequeue ring out).2.1.cookie

/-- An operation that takes no descriptor: an enqueue, or a taker that fails. -/
def TakesNone (r : RingRun) : RingOp → Prop
  | .enqueue _ => True
  | .take t out => (t.take r.ring out).1 ≠ 0

instance (r : RingRun) : DecidablePred (TakesNone r)
  | .enqueue _ => .isTrue trivial
  | .take _ _ => inferInstanceAs (Decidable (_ ≠ _))

/-- If `driver_dequeue` succeeds, the slot that its cookie points to keeps its contents through
all operations up to the next one that takes a descriptor. -/
def KeepsLent (r : RingRun) (out : BuffDesc) : Prop :=
  (driverDequeue r.ring out).1 = 0 → ∀ slot, (driverDequeue r.ring out).2.1.cookie = .entry slot →
    ∀ lent later now, ringRun.step r (.take .driverDequeue out) = some lent →
      ringRun.Along TakesNone lent later → ringRun.exec lent later = some now →
        now.ring.buffers slot = r.ring.buffers slot

/-! ## A released slot -/

/-- The slot of index `i` is the last one that has been released, and holds `d`. -/
structure Lends (ring : RingBuffer) (i : BitVec 32) (d : BuffDesc) : Prop where
  readIdx : ring.readIdx = i + 1#32
  entry : ring.entry i = d
  stores : ∃ q, ring.Stores q

section Released

variable {ring : RingBuffer} {i : BitVec 32} {d : BuffDesc}

theorem entry_storeField_of_ne {j : BitVec 32} (h : slot SIZE i ≠ slot SIZE j) (new : BuffDesc)
    (f : Field) : (ring.storeField j new f).entry i = ring.entry i :=
  Function.update_of_ne h _ _

/-- A ring with room has its next slot to write apart from the one released last. -/
theorem Lends.slot_ne (h : Lends ring i d) (hroom : ringFull ring ≠ true) :
    slot SIZE i ≠ slot SIZE ring.writeIdx := by
  obtain ⟨q, hq⟩ := h.stores
  have hlt : q.length < 512 := hq.length_lt
  have hlength : q.length ≠ 511 := fun hfull => hroom (hq.ringFull_iff.mpr hfull)
  have hwrite : ring.writeIdx = i + BitVec.ofNat 32 (q.length + 1) := by
    rw [hq.writeIdx, h.readIdx, Nat.add_comm, BitVec.ofNat_add, BitVec.add_assoc]
  rw [hwrite]
  exact (slot_add_ne size_dvd i q.length.succ_pos (by omega : q.length + 1 < 512)).symm

/-- An enqueue leaves the slot alone, even the one that fills the ring. -/
theorem Lends.enqueue (h : Lends ring i d) (new : BuffDesc) :
    Lends (Ring.enqueue ring new).2 i d := by
  obtain ⟨q, hq⟩ := h.stores
  refine ⟨(enqueue_readIdx ring new).trans h.readIdx, ?_, ?_⟩
  · by_cases hfull : ringFull ring = true
    · rw [Ring.enqueue, if_pos hfull]
      exact h.entry
    · -- Three stores to another slot, and the index, which no slot depends on.
      have hne := h.slot_ne hfull
      rw [Ring.enqueue, if_neg hfull]
      refine Eq.trans ?_ h.entry
      exact (entry_storeField_of_ne hne new .cookie).trans <|
        (entry_storeField_of_ne hne new .len).trans (entry_storeField_of_ne hne new .encodedAddr)
  · rcases enqueue_cases hq new with ⟨-, hrefused⟩ | ⟨-, -, hstores⟩
    · exact ⟨q, by rwa [hrefused]⟩
    · exact ⟨_, hstores⟩

/-- A taker fails on an empty ring only, and leaves it as it is. -/
theorem take_refused {t : Taker} {out : BuffDesc} (h : (t.take ring out).1 ≠ 0) :
    (t.take ring out).2.2 = ring := by
  by_cases hempty : ringEmpty ring = true
  · rw [take_of_empty hempty]
  · rw [take_of_not_empty hempty] at h
    exact absurd rfl h

theorem not_empty_of_taken {t : Taker} {out : BuffDesc} (h : (t.take ring out).1 = 0) :
    ringEmpty ring ≠ true := by
  intro hempty
  rw [take_of_empty hempty] at h
  simp at h

/-- A taker that succeeds releases the slot of the oldest descriptor. -/
theorem lends_take {q : List BuffDesc} (h : ring.Stores q) (hne : ringEmpty ring ≠ true)
    (t : Taker) (out : BuffDesc) :
    Lends (t.take ring out).2.2 ring.readIdx (ring.entry ring.readIdx) := by
  rcases h.take t out with ⟨hnil, -⟩ | ⟨-, rest, -, -, -, -, hrest⟩
  · exact absurd (h.ringEmpty_iff.mpr hnil) hne
  · refine ⟨?_, ?_, rest, hrest⟩
    · rw [take_of_not_empty hne]
    · rw [take_of_not_empty hne]
      rfl

end Released

/-- As long as no descriptor is taken, the slot stays as it is. -/
theorem lends_step {r r' : RingRun} {i : BitVec 32} {d : BuffDesc} {op : RingOp}
    (h : Lends r.ring i d) (hnone : TakesNone r op) (hstep : ringRun.step r op = some r') :
    Lends r'.ring i d := by
  cases op with
  | enqueue new =>
    rw [ringRun_enqueue, Option.some.injEq] at hstep
    subst hstep
    exact h.enqueue new
  | take t out =>
    rw [ringRun_take, Option.some.injEq, take_refused hnone] at hstep
    subst hstep
    exact h

/-! ## The two functions -/

/-- The two functions differ in the cookie alone. -/
theorem agrees (ring : RingBuffer) (out : BuffDesc) : Agrees ring out := by
  by_cases hempty : ringEmpty ring = true
  · have hdriver : driverDequeue ring out = (-1, out, ring) := take_of_empty hempty _ out
    have hdequeue : dequeue ring out = (-1, out, ring) := take_of_empty hempty _ out
    have hfails : (driverDequeue ring out).1 ≠ 0 := fun h => not_empty_of_taken h hempty
    exact ⟨by rw [hdriver, hdequeue], by rw [hdriver, hdequeue], by rw [hdriver, hdequeue],
      by rw [hdriver, hdequeue], fun hvalue => absurd hvalue hfails⟩
  · have hdriver : driverDequeue ring out = _ := take_of_not_empty hempty _ out
    have hdequeue : dequeue ring out = _ := take_of_not_empty hempty _ out
    constructor
    case cookie =>
      rw [hdriver, hdequeue]
      exact fun _ => ⟨slot SIZE ring.readIdx, rfl, rfl⟩
    case value | afterwards => rw [hdriver, hdequeue]
    case encodedAddr | len =>
      rw [hdriver, hdequeue]
      rfl

/-- In every reachable ring `driver_dequeue` agrees with `dequeue`, and the slot that its cookie
points to is not written before the next descriptor is taken. -/
theorem cookie_valid {r r' : RingRun} {ops : List RingOp} (hstart : ringRun.start r)
    (hrun : ringRun.exec r ops = some r') (out : BuffDesc) :
    Agrees r'.ring out ∧ KeepsLent r' out := by
  refine ⟨agrees r'.ring out, ?_⟩
  intro hvalue slot hcookie lent later now hlent hnone hnow
  have hne : ringEmpty r'.ring ≠ true := not_empty_of_taken hvalue
  rw [driverDequeue, take_of_not_empty hne] at hcookie
  obtain rfl := Cookie.entry.inj hcookie
  rw [ringRun_take, Option.some.injEq] at hlent
  subst hlent
  have hreleased := lends_take (stores_pending hstart hrun) hne .driverDequeue out
  exact (Machine.along_induction (P := fun r => Lends r.ring _ _)
    (fun _ _ _ => lends_step) hreleased hnone hnow).entry

/-- A ring with its indices just in front of the wrap, and two descriptors in it. -/
theorem cookie_valid_across_wrap :
    ∃ r, ringRun.exec ⟨⟨0xffffffff#32, 0xffffffff#32, fun _ => sampleDesc 0#32⟩, [], 0⟩
        [.enqueue (sampleDesc 8#32), .enqueue (sampleDesc 16#32)] = some r ∧
      (driverDequeue r.ring (sampleDesc 0#32)).2.1.cookie = .entry 511 ∧
      Agrees r.ring (sampleDesc 0#32) ∧ KeepsLent r (sampleDesc 0#32) := by
  obtain ⟨r, hrun, hcookie⟩ := Option.map_eq_some_iff.mp
    (show (ringRun.exec ⟨⟨0xffffffff#32, 0xffffffff#32, fun _ => sampleDesc 0#32⟩, [], 0⟩
        [.enqueue (sampleDesc 8#32), .enqueue (sampleDesc 16#32)]).map
          (fun r => (driverDequeue r.ring (sampleDesc 0#32)).2.1.cookie) =
        some (.entry 511) by decide)
  exact ⟨r, hrun, hcookie, cookie_valid ⟨rfl, rfl, rfl⟩ hrun (sampleDesc 0#32)⟩

end Sel4Xhci.Ring
