import Sel4Xhci.Umass.Api
import Sel4Xhci.Umass.Stub

/-!
# Service under coalescing signals

Any client of the request queue: it appends a request and then signals, as
`execute_next` does, and need not wait for an answer. The pending `UMASS_FLUSH` signal is
one bit, so the driver may be run fewer times than it was signalled; it may also be
run once more than there are requests. Each run of the handler takes at most one request
and does not look whether it got one.

The request queue is a channel from the client to the driver. What the driver has
taken and what is queued make up what the client has placed, for all requests that carry
something the handler reads off them.

## Main definitions

* `Service`, `service` — client, driver and stack as a machine
* `Stub.channel` — the request queue as a channel
* `Stub.turns` — the handler runs that are still to read the queue

## Main results

* `Carries.exec` — the channel loses and invents nothing
* `Service.backlog_step` — how a step changes the balance of requests and handler runs
* `late_signal_strands` — a signal that merges too late leaves a request on the queue
* `serves_each_once` — what a run needs for every request to be served exactly once
-/

set_option autoImplicit false

namespace Sel4Xhci.Umass

open Semantics

variable {RQ : Fifo BlkReq} {SQ : Fifo Answer}

/-- Driver and stack with a client of the request queue. `owed`: a request has been
appended and its signal is still to come. The last two fields are history: the requests
that the queue took, and how many these were when `in_progress` was last raised. -/
structure Service (RQ : Fifo BlkReq) (SQ : Fifo Answer) where
  stub : Stub RQ SQ
  owed : Bool
  placed : List BlkReq
  raisedAt : ℕ

/-- What a client can do, a signal out of order, and the driver's and the stack's
steps. -/
inductive ServiceLabel
  | append (req : BlkReq)
  | signal
  | spurious
  | raise
  | collect
  | stub (l : StubLabel)

namespace Service

variable (s : Service RQ SQ)

/-- One step. The client signals after every append, also when the queue refused the
request. -/
def step : ServiceLabel → Option (Service RQ SQ)
  | .append req =>
    if s.owed then none
    else match RQ.enqueue s.stub.shared.reqQueue req with
      | some q =>
        some { s with
          stub := { s.stub with shared := { s.stub.shared with reqQueue := q } }
          owed := true
          placed := s.placed ++ [req] }
      | none => some { s with owed := true }
  | .signal =>
    if s.owed then some { s with stub := { s.stub with flushPending := true }, owed := false }
    else none
  | .spurious => some { s with stub := { s.stub with flushPending := true } }
  | .raise =>
    if s.owed then none
    else some { s with
      stub := { s.stub with shared := { s.stub.shared with inProgress := true } }
      raisedAt := s.placed.length }
  | .collect => some { s with stub := { s.stub with shared := (dequeueResp s.stub.shared).2 } }
  | .stub l => (s.stub.step l).map fun stub => { s with stub := stub }

/-- Before the first request: a driver at rest, an empty queue, no history. -/
structure Initial : Prop where
  stub : s.stub.Quiet
  owed : s.owed = false
  reqQueue : RQ.items s.stub.shared.reqQueue = []
  placed : s.placed = []
  raisedAt : s.raisedAt = 0
  dispatched : s.stub.dispatched = []
  started : s.stub.started = []
  responses : s.stub.responses = []
  signalled : s.stub.signalled = []

/-- Client and driver before the first request, over queues of a bounded capacity. -/
def fresh (room : ℕ) : Service (Fifo.bounded BlkReq room) (Fifo.bounded Answer room) :=
  ⟨Stub.fresh room, false, [], 0⟩

theorem fresh_initial (room : ℕ) : (fresh room).Initial where
  stub := Stub.fresh_quiet room
  owed := rfl
  reqQueue := rfl
  placed := rfl
  raisedAt := rfl
  dispatched := rfl
  started := rfl
  responses := rfl
  signalled := rfl

variable {s} {s' : Service RQ SQ}

@[simp] theorem step_append {req : BlkReq} : s.step (.append req) = some s' ↔
    s.owed = false ∧
      ((∃ q, RQ.enqueue s.stub.shared.reqQueue req = some q ∧ s' = { s with
          stub := { s.stub with shared := { s.stub.shared with reqQueue := q } }
          owed := true
          placed := s.placed ++ [req] }) ∨
        RQ.enqueue s.stub.shared.reqQueue req = none ∧ s' = { s with owed := true }) := by
  cases howed : s.owed <;> cases hq : RQ.enqueue s.stub.shared.reqQueue req <;>
    simp [step, howed, hq, eq_comm (b := s')]

@[simp] theorem step_signal : s.step .signal = some s' ↔
    s.owed = true ∧
      s' = { s with stub := { s.stub with flushPending := true }, owed := false } := by
  simp [step, eq_comm (b := s')]

@[simp] theorem step_spurious : s.step .spurious = some s' ↔
    s' = { s with stub := { s.stub with flushPending := true } } := by
  simp [step, eq_comm (b := s')]

@[simp] theorem step_raise : s.step .raise = some s' ↔
    s.owed = false ∧ s' = { s with
      stub := { s.stub with shared := { s.stub.shared with inProgress := true } }
      raisedAt := s.placed.length } := by
  simp [step, eq_comm (b := s')]

@[simp] theorem step_collect : s.step .collect = some s' ↔
    s' = { s with stub := { s.stub with shared := (dequeueResp s.stub.shared).2 } } := by
  simp [step, eq_comm (b := s')]

@[simp] theorem step_stub {l : StubLabel} : s.step (.stub l) = some s' ↔
    ∃ stub, s.stub.step l = some stub ∧ s' = { s with stub := stub } := by
  simp [step, eq_comm (b := s')]

end Service

/-- Client, driver and stack as a machine. -/
def service (RQ : Fifo BlkReq) (SQ : Fifo Answer) : Machine (Service RQ SQ) ServiceLabel where
  start := Service.Initial
  step := Service.step

@[simp] theorem dequeueResp_reqQueue (sh : Shared RQ SQ) :
    (dequeueResp sh).2.reqQueue = sh.reqQueue := by
  unfold dequeueResp
  split <;> rfl

/-! ## The request queue as a channel -/

/-- The request in the handler's hands. -/
def StubPc.hand : StubPc → List BlkReq
  | .dispatch req => [req]
  | _ => []

/-- The handler is about to read the queue. -/
def StubPc.reading : StubPc → ℕ
  | .dequeue => 1
  | _ => 0

namespace Stub

/-- From the client to the driver: the requests taken, and those queued. -/
def channel (s : Stub RQ SQ) : Channel BlkReq :=
  ⟨s.dispatched ++ s.pc.hand, RQ.items s.shared.reqQueue⟩

/-- The handler runs that are signalled or under way and still to read the queue. -/
def turns (s : Stub RQ SQ) : ℕ := s.flushPending.toNat + s.pc.reading

variable {s s' : Stub RQ SQ} {β : Type}

theorem dispatchStep_pc (s : Stub RQ SQ) (req : BlkReq) :
    (s.dispatchStep req).pc.hand = [] ∧ (s.dispatchStep req).pc.reading = 0 := by
  unfold dispatchStep
  split
  · exact ⟨rfl, rfl⟩
  · split <;> exact ⟨rfl, rfl⟩
  · exact ⟨rfl, rfl⟩

/-- A dequeue moves the oldest request to the driver; from an empty queue the driver gets
what its locals held. -/
theorem sent_dequeue {locals : BlkReq} (hs : s.step (.dequeue locals) = some s') :
    (∃ req rest, RQ.items s.shared.reqQueue = req :: rest ∧
      RQ.items s'.shared.reqQueue = rest ∧ s'.channel.sent = s.channel.sent) ∨
    RQ.items s.shared.reqQueue = [] ∧ RQ.items s'.shared.reqQueue = [] ∧
      s'.channel.sent = s.channel.sent ++ [locals] := by
  obtain ⟨hpc, rfl⟩ := step_dequeue.mp hs
  have hbefore : s.channel = ⟨s.dispatched, RQ.items s.shared.reqQueue⟩ := by
    simp [channel, hpc, StubPc.hand]
  cases hq : RQ.dequeue s.shared.reqQueue with
  | none =>
    have hempty := RQ.items_dequeue_none hq
    have hlocals : dequeueReq s.shared locals = (locals, s.shared) := by simp [dequeueReq, hq]
    refine .inr ⟨hempty, by rw [hlocals]; exact hempty, ?_⟩
    rw [hbefore, hempty]
    simp [channel, Channel.sent, hlocals, hempty, StubPc.hand]
  | some taken =>
    obtain ⟨req, q⟩ := taken
    have htaken : dequeueReq s.shared locals = (req, { s.shared with reqQueue := q }) := by
      simp [dequeueReq, hq]
    refine .inl ⟨req, RQ.items q, RQ.items_dequeue hq, by rw [htaken], ?_⟩
    -- The driver receives the request from the channel.
    rw [hbefore, ← Channel.sent_of_receive _ (RQ.receive_of_dequeue s.dispatched hq)]
    simp [channel, htaken, StubPc.hand]

/-- No other step of the driver or the stack touches the request queue. -/
theorem channel_step {l : StubLabel} (hl : ∀ locals, l ≠ .dequeue locals)
    (hs : s.step l = some s') : s'.channel.sent = s.channel.sent ∧
      RQ.items s'.shared.reqQueue = RQ.items s.shared.reqQueue ∧ s'.turns = s.turns := by
  cases l with
  | takeFlush =>
    obtain ⟨hpc, hflush, rfl⟩ := step_takeFlush.mp hs
    simp [channel, turns, Channel.sent, hpc, hflush, StubPc.hand, StubPc.reading]
  | takeComplete =>
    obtain ⟨hpc, -, rfl⟩ := step_takeComplete.mp hs
    simp [channel, turns, Channel.sent, hpc, StubPc.hand, StubPc.reading]
  | dequeue locals => exact absurd rfl (hl locals)
  -- The request goes from the hand to those that are dispatched.
  | dispatch =>
    obtain ⟨req, hpc, rfl⟩ := step_dispatch.mp hs
    obtain ⟨hhand, hreading⟩ := s.dispatchStep_pc req
    have hinHand : s.pc.hand = [req] := by rw [hpc, StubPc.hand]
    have hidle : s.pc.reading = 0 := by rw [hpc, StubPc.reading]; simp
    simp [channel, turns, Channel.sent, hhand, hreading, hinHand, hidle]
  | notifyClient =>
    obtain ⟨hpc, rfl⟩ := step_notifyClient.mp hs
    simp [channel, turns, Channel.sent, hpc, StubPc.hand, StubPc.reading]
  | clear =>
    obtain ⟨hpc, rfl⟩ := step_clear.mp hs
    simp [channel, turns, Channel.sent, hpc, StubPc.hand, StubPc.reading]
  | answer origin resp =>
    obtain ⟨-, q, -, rfl⟩ := step_answer.mp hs
    exact ⟨rfl, rfl, rfl⟩
  | complete origin =>
    obtain ⟨-, rfl⟩ := step_complete.mp hs
    exact ⟨rfl, rfl, rfl⟩

end Stub

/-- The handler reads the queue only while a request is there, or else finds locals on
its stack that carry nothing. -/
def ReadsRequests {β : Type} (f : BlkReq → Option β) (s : Service RQ SQ) : ServiceLabel → Prop
  | .stub (.dequeue locals) => RQ.items s.stub.shared.reqQueue ≠ [] ∨ f locals = none
  | _ => True

/-- What `f` reads off the requests sent on the channel is what it reads off those
placed. -/
def Carries {β : Type} (f : BlkReq → Option β) (s : Service RQ SQ) : Prop :=
  s.stub.channel.sent.filterMap f = s.placed.filterMap f

section Channel

variable {s s' : Service RQ SQ} {β : Type} {f : BlkReq → Option β}

theorem Carries.step {l : ServiceLabel} (h : Carries f s) (hread : ReadsRequests f s l)
    (hs : s.step l = some s') : Carries f s' := by
  unfold Carries at h ⊢
  -- Only an append and a dequeue touch the channel.
  cases l with
  | append req =>
    obtain ⟨-, ⟨q, hq, rfl⟩ | ⟨-, rfl⟩⟩ := Service.step_append.mp hs
    · have hsent : Channel.sent ⟨s.stub.dispatched ++ s.stub.pc.hand, RQ.items q⟩ =
          s.stub.channel.sent ++ [req] := by
        simp [Stub.channel, Channel.sent, RQ.items_enqueue hq]
      change (Channel.sent ⟨s.stub.dispatched ++ s.stub.pc.hand, RQ.items q⟩).filterMap f = _
      rw [hsent, List.filterMap_append, List.filterMap_append, h]
    · exact h
  | signal =>
    obtain ⟨-, rfl⟩ := Service.step_signal.mp hs
    exact h
  | spurious =>
    obtain rfl := Service.step_spurious.mp hs
    exact h
  | raise =>
    obtain ⟨-, rfl⟩ := Service.step_raise.mp hs
    exact h
  | collect =>
    obtain rfl := Service.step_collect.mp hs
    simpa [Stub.channel] using h
  | stub l =>
    obtain ⟨stub, hstub, rfl⟩ := Service.step_stub.mp hs
    by_cases hl : ∀ locals, l ≠ .dequeue locals
    · rw [(Stub.channel_step hl hstub).1, h]
    · obtain ⟨locals, rfl⟩ : ∃ locals, l = .dequeue locals := by simpa using hl
      rcases Stub.sent_dequeue hstub with ⟨req, rest, -, -, hsent⟩ | ⟨hempty, -, hsent⟩
      · rw [hsent, h]
      · -- An empty queue leaves the locals, which carry nothing.
        have hlocals : f locals = none := hread.resolve_left (not_not.mpr hempty)
        rw [hsent, List.filterMap_append, h]
        simp [hlocals]

/-- The channel loses and invents nothing, whatever the interleaving. -/
theorem Carries.exec {labels : List ServiceLabel} (hstart : s.Initial)
    (hread : (service RQ SQ).Along (ReadsRequests f) s labels)
    (hrun : (service RQ SQ).exec s labels = some s') : Carries f s' := by
  apply Machine.along_induction (P := Carries f) ?_ ?_ hread hrun
  · intro t l t' ht hl hs
    exact ht.step hl hs
  · simp [Carries, Stub.channel, Channel.sent, hstart.dispatched, hstart.reqQueue, hstart.placed,
      hstart.stub.pc, StubPc.hand]

end Channel

/-! ## Requests and handler runs -/

/-- The handler runs still to read the queue, with the one the client still has to
signal. -/
def Service.turns (s : Service RQ SQ) : ℕ := s.owed.toNat + s.stub.turns

/-- The signal does not merge with a pending one while there are more requests than
handler runs to take them. -/
def SignalsInTime (s : Service RQ SQ) : ServiceLabel → Prop
  | .signal => s.stub.flushPending = true →
      (RQ.items s.stub.shared.reqQueue).length ≤ 1 + s.stub.pc.reading
  | _ => True

/-- Requests and handler runs balance at every step but four: a signal that merges with a
pending one, a request that the queue refuses, a signal out of order, and a read of an
empty queue. -/
theorem Service.backlog_step {s s' : Service RQ SQ} {l : ServiceLabel}
    (hs : s.step l = some s') :
    (RQ.items s'.stub.shared.reqQueue).length + s.turns =
        (RQ.items s.stub.shared.reqQueue).length + s'.turns ∨
    RQ.items s'.stub.shared.reqQueue = RQ.items s.stub.shared.reqQueue ∧
      ((l = .signal ∧ s.stub.flushPending = true ∧ s.turns = s'.turns + 1 ∧
          s'.turns = 1 + s.stub.pc.reading) ∨
        (∃ req, l = .append req ∧ RQ.enqueue s.stub.shared.reqQueue req = none ∧
          s'.turns = s.turns + 1) ∨
        (l = .spurious ∧ s.turns ≤ s'.turns) ∨
        (RQ.items s.stub.shared.reqQueue = [] ∧ 1 ≤ s.turns)) := by
  cases l with
  | append req =>
    obtain ⟨howed, ⟨q, hq, rfl⟩ | ⟨hrefused, rfl⟩⟩ := Service.step_append.mp hs
    · left
      simp only [Service.turns, Stub.turns, howed, Bool.toNat_false, Bool.toNat_true,
        RQ.items_enqueue hq, List.length_append, List.length_singleton]
      omega
    · refine .inr ⟨rfl, .inr (.inl ⟨req, rfl, hrefused, ?_⟩)⟩
      simp only [Service.turns, howed, Bool.toNat_false, Bool.toNat_true]
      omega
  | signal =>
    obtain ⟨howed, rfl⟩ := Service.step_signal.mp hs
    -- A signal is owed before and pending after, unless one was pending already.
    cases hflush : s.stub.flushPending with
    | true =>
      refine .inr ⟨rfl, .inl ⟨rfl, rfl, ?_, ?_⟩⟩ <;>
        simp only [Service.turns, Stub.turns, howed, hflush, Bool.toNat_false, Bool.toNat_true] <;>
        omega
    | false =>
      left
      simp only [Service.turns, Stub.turns, howed, hflush, Bool.toNat_false, Bool.toNat_true]
      omega
  | spurious =>
    obtain rfl := Service.step_spurious.mp hs
    have hflush := s.stub.flushPending.toNat_le
    refine .inr ⟨rfl, .inr (.inr (.inl ⟨rfl, ?_⟩))⟩
    simp only [Service.turns, Stub.turns, Bool.toNat_true]
    omega
  | raise =>
    obtain ⟨-, rfl⟩ := Service.step_raise.mp hs
    exact .inl rfl
  | collect =>
    obtain rfl := Service.step_collect.mp hs
    left
    simp [Service.turns, Stub.turns]
  | stub l =>
    obtain ⟨stub, hstub, rfl⟩ := Service.step_stub.mp hs
    by_cases hl : ∀ locals, l ≠ .dequeue locals
    · obtain ⟨-, hitems, hturns⟩ := Stub.channel_step hl hstub
      left
      simp [Service.turns, hitems, hturns]
    · obtain ⟨locals, rfl⟩ : ∃ locals, l = .dequeue locals := by simpa using hl
      have hturns : s.turns = s.owed.toNat + stub.turns + 1 := by
        obtain ⟨hpc, rfl⟩ := Stub.step_dequeue.mp hstub
        simp [Service.turns, Stub.turns, hpc, StubPc.reading, Nat.add_assoc]
      rcases Stub.sent_dequeue hstub with ⟨req, rest, hq, hrest, -⟩ | ⟨hempty, hrest, -⟩
      · left
        change (RQ.items stub.shared.reqQueue).length + s.turns = _ + (s.owed.toNat + stub.turns)
        rw [hrest, hq, hturns, List.length_cons]
        omega
      · exact .inr ⟨hrest.trans hempty.symm, .inr (.inr (.inr ⟨hempty, by omega⟩))⟩

/-- A step in time keeps the requests within the handler runs. -/
theorem items_le_turns_step {s s' : Service RQ SQ} {l : ServiceLabel}
    (h : (RQ.items s.stub.shared.reqQueue).length ≤ s.turns) (hl : SignalsInTime s l)
    (hs : s.step l = some s') : (RQ.items s'.stub.shared.reqQueue).length ≤ s'.turns := by
  rcases Service.backlog_step hs with hbalance | ⟨hitems, hcase⟩
  · omega
  rw [hitems]
  rcases hcase with ⟨rfl, hflush, -, hturns⟩ | ⟨req, -, -, hturns⟩ | ⟨-, hturns⟩ | ⟨hempty, -⟩
  · -- Two signals have become one, and the condition makes up for it.
    rw [hturns]
    exact hl hflush
  · omega
  · omega
  · simp [hempty]

/-- With all signals in time, there are never more requests than handler runs. -/
theorem items_le_turns_of_exec {s₀ s : Service RQ SQ} {labels : List ServiceLabel}
    (hstart : s₀.Initial) (htime : (service RQ SQ).Along SignalsInTime s₀ labels)
    (hrun : (service RQ SQ).exec s₀ labels = some s) :
    (RQ.items s.stub.shared.reqQueue).length ≤ s.turns := by
  apply Machine.along_induction
    (P := fun t : Service RQ SQ => (RQ.items t.stub.shared.reqQueue).length ≤ t.turns)
    ?_ ?_ htime hrun
  · intro t l t' ht hl hs
    exact items_le_turns_step ht hl hs
  · rw [hstart.reqQueue, List.length_nil]
    exact Nat.zero_le _

/-- No handler run is signalled without a request to go with it: the queue takes every
request, and no signal comes out of order. -/
def NoSpareTurn (s : Service RQ SQ) : ServiceLabel → Prop
  | .append req => (RQ.enqueue s.stub.shared.reqQueue req).isSome
  | .spurious => False
  | _ => True

/-- Without spare handler runs, the requests stay as far ahead of the handler runs as they
are. -/
theorem turns_add_le_items_step {s s' : Service RQ SQ} {l : ServiceLabel} {k : ℕ}
    (h : s.turns + k ≤ (RQ.items s.stub.shared.reqQueue).length) (hl : NoSpareTurn s l)
    (hs : s.step l = some s') : s'.turns + k ≤ (RQ.items s'.stub.shared.reqQueue).length := by
  rcases Service.backlog_step hs with hbalance | ⟨hitems, hcase⟩
  · omega
  rw [hitems]
  rcases hcase with ⟨-, -, hturns, -⟩ | ⟨req, rfl, hrefused, -⟩ | ⟨rfl, -⟩ | ⟨hempty, hturns⟩
  · omega
  · have haccepted : (RQ.enqueue s.stub.shared.reqQueue req).isSome := hl
    rw [hrefused] at haccepted
    cases haccepted
  · cases hl
  · -- A handler run in sight of an empty queue would be a spare one.
    rw [hempty, List.length_nil] at h
    omega

/-- A signal that merges too late strands a request: in every continuation without spare
handler runs, the queue is not empty when the driver is at rest. -/
theorem late_signal_strands {s mid s' : Service RQ SQ} {labels : List ServiceLabel}
    (hlate : ¬ SignalsInTime s .signal) (hsignal : s.step .signal = some mid)
    (hspare : (service RQ SQ).Along NoSpareTurn mid labels)
    (hrun : (service RQ SQ).exec mid labels = some s') (hflush : s'.stub.flushPending = false)
    (hidle : s'.stub.pc = .idle) (howed : s'.owed = false) :
    RQ.items s'.stub.shared.reqQueue ≠ [] := by
  -- From the merge on the requests are ahead of the handler runs by one.
  have hahead : mid.turns + 1 ≤ (RQ.items mid.stub.shared.reqQueue).length := by
    obtain ⟨-, rfl⟩ := Service.step_signal.mp hsignal
    simp only [SignalsInTime, Classical.not_imp, Nat.not_le] at hlate
    simp only [Service.turns, Stub.turns, Bool.toNat_false, Bool.toNat_true]
    omega
  have hstays : s'.turns + 1 ≤ (RQ.items s'.stub.shared.reqQueue).length := by
    apply Machine.along_induction
      (P := fun t : Service RQ SQ => t.turns + 1 ≤ (RQ.items t.stub.shared.reqQueue).length)
      ?_ hahead hspare hrun
    intro t l t' ht hl hs
    exact turns_add_le_items_step ht hl hs
  have hrest : s'.turns = 0 := by
    simp [Service.turns, Stub.turns, hflush, hidle, howed, StubPc.reading]
  intro hempty
  rw [hempty, List.length_nil] at hstays
  omega

/-! ## Serving every request once -/

/-- The handler runs of a run find requests, and no signal comes too late. -/
def Serves (s : Service RQ SQ) (l : ServiceLabel) : Prop :=
  ReadsRequests BlkReq.blockOp? s l ∧ SignalsInTime s l

instance {β : Type} [DecidableEq β] (f : BlkReq → Option β) (s : Service RQ SQ)
    (l : ServiceLabel) : Decidable (ReadsRequests f s l) := by
  unfold ReadsRequests
  split <;> infer_instance

instance (s : Service RQ SQ) (l : ServiceLabel) : Decidable (SignalsInTime s l) := by
  unfold SignalsInTime
  split <;> infer_instance

instance (s : Service RQ SQ) (l : ServiceLabel) : Decidable (Serves s l) :=
  inferInstanceAs (Decidable (_ ∧ _))

theorem Service.started_step {s s' : Service RQ SQ} {l : ServiceLabel}
    (h : s.stub.started = s.stub.dispatched.filterMap BlkReq.blockOp?) (hs : s.step l = some s') :
    s'.stub.started = s'.stub.dispatched.filterMap BlkReq.blockOp? := by
  cases l with
  | append req =>
    obtain ⟨-, ⟨q, -, rfl⟩ | ⟨-, rfl⟩⟩ := Service.step_append.mp hs <;> exact h
  | signal => obtain ⟨-, rfl⟩ := Service.step_signal.mp hs; exact h
  | spurious => obtain rfl := Service.step_spurious.mp hs; exact h
  | raise => obtain ⟨-, rfl⟩ := Service.step_raise.mp hs; exact h
  | collect => obtain rfl := Service.step_collect.mp hs; exact h
  | stub l =>
    obtain ⟨stub, hstub, rfl⟩ := Service.step_stub.mp hs
    exact Stub.started_step h hstub

theorem Service.started_of_exec {s₀ s : Service RQ SQ} {labels : List ServiceLabel}
    (hstart : s₀.Initial) (hrun : (service RQ SQ).exec s₀ labels = some s) :
    s.stub.started = s.stub.dispatched.filterMap BlkReq.blockOp? := by
  apply Machine.exec_induction
    (P := fun t : Service RQ SQ => t.stub.started = t.stub.dispatched.filterMap BlkReq.blockOp?)
    ?_ ?_ hrun
  · intro t l t' ht hs
    exact Service.started_step ht hs
  · rw [hstart.started, hstart.dispatched, List.filterMap_nil]

/-- In a run whose steps all meet `Serves`, the operations started are those of the first
requests placed, each once and in order; and at rest the queue is empty and all have been
started. -/
theorem serves_each_once {s₀ s : Service RQ SQ} {labels : List ServiceLabel}
    (hstart : s₀.Initial) (hserves : (service RQ SQ).Along Serves s₀ labels)
    (hrun : (service RQ SQ).exec s₀ labels = some s) :
    s.stub.started <+: s.placed.filterMap BlkReq.blockOp? ∧
    (s.stub.flushPending = false → s.stub.pc = .idle → s.owed = false →
      RQ.items s.stub.shared.reqQueue = [] ∧
      s.stub.started = s.placed.filterMap BlkReq.blockOp?) := by
  have hcarries : Carries BlkReq.blockOp? s :=
    Carries.exec hstart (hserves.mono fun _ _ h => h.1) hrun
  have hstarted := Service.started_of_exec hstart hrun
  have hturns := items_le_turns_of_exec hstart (hserves.mono fun _ _ h => h.2) hrun
  rw [hstarted, ← hcarries]
  constructor
  · -- What is dispatched was received first.
    have hinitial : s.stub.dispatched <+: s.stub.channel.sent :=
      (List.prefix_append _ _).trans s.stub.channel.received_isPrefix_sent
    exact hinitial.filterMap _
  · -- When nothing is due, nothing is left in the queue or in the hand.
    intro hflush hidle howed
    have hnone : s.turns = 0 := by
      simp [Service.turns, Stub.turns, hflush, hidle, howed, StubPc.reading]
    have hempty : RQ.items s.stub.shared.reqQueue = [] := by
      rw [← List.length_eq_zero_iff]
      omega
    refine ⟨hempty, ?_⟩
    simp [Stub.channel, Channel.sent, hempty, hidle, StubPc.hand]

/-- Two requests, the second appended while the driver is about to take the first. -/
def overlappingRequests : List ServiceLabel :=
  [.append ⟨.readBlocks, 0x1000#64, 7#32, 1#16, 0#32⟩, .signal, .stub .takeFlush,
    .append ⟨.writeBlocks, 0x2000#64, 8#32, 1#16, 1#32⟩, .signal, .stub (.dequeue default),
    .stub .dispatch, .stub .takeFlush, .stub (.dequeue default), .stub .dispatch]

theorem serves_each_once_overlapping :
    ∃ s, (service _ _).exec (Service.fresh 1) overlappingRequests = some s ∧
      s.stub.shared.reqQueue = ([] : List BlkReq) ∧
      s.stub.started = s.placed.filterMap BlkReq.blockOp? := by
  obtain ⟨s, hrun, hobs⟩ := Option.map_eq_some_iff.mp
    (show ((service _ _).exec (Service.fresh 1) overlappingRequests).map
      (fun s => (s.stub.flushPending, s.stub.pc, s.owed)) = some (false, .idle, false) by decide)
  obtain ⟨hflush, hrest⟩ := Prod.mk.inj hobs
  obtain ⟨hidle, howed⟩ := Prod.mk.inj hrest
  have hserves : (service _ _).Along Serves (Service.fresh 1) overlappingRequests := by decide
  exact ⟨s, hrun,
    (serves_each_once (Service.fresh_initial 1) hserves hrun).2 hflush hidle howed⟩

/-- Two requests whose signals merge: the driver runs once. -/
def mergedSignals : List ServiceLabel :=
  [.append ⟨.readBlocks, 0x1000#64, 7#32, 1#16, 0#32⟩, .signal,
    .append ⟨.writeBlocks, 0x2000#64, 8#32, 1#16, 1#32⟩, .signal,
    .stub .takeFlush, .stub (.dequeue default), .stub .dispatch]

/-- One request and one signal too many: the second run finds the queue empty and its
locals as the first run left them. -/
def repeatedRun : List ServiceLabel :=
  [.append ⟨.writeBlocks, 0x2000#64, 8#32, 1#16, 0#32⟩, .signal,
    .stub .takeFlush, .stub (.dequeue default), .stub .dispatch, .spurious,
    .stub .takeFlush, .stub (.dequeue ⟨.writeBlocks, 0x2000#64, 8#32, 1#16, 0#32⟩), .stub .dispatch]

/-- A run on an empty queue repeats a write, and merged signals strand a request. -/
theorem signals_repeat_and_strand :
    (¬ ∀ (s₀ s : Service (Fifo.bounded BlkReq 1) (Fifo.bounded Answer 1))
        (labels : List ServiceLabel), s₀.Initial → (service _ _).exec s₀ labels = some s →
        s.stub.started <+: s.placed.filterMap BlkReq.blockOp?) ∧
    (¬ ∀ (s₀ s : Service (Fifo.bounded BlkReq 1) (Fifo.bounded Answer 1))
        (labels : List ServiceLabel), s₀.Initial → (service _ _).exec s₀ labels = some s →
        s.stub.flushPending = false → s.stub.pc = .idle → s.owed = false →
        s.stub.shared.reqQueue = ([] : List BlkReq)) := by
  constructor
  · intro h
    obtain ⟨s, hrun, hobs⟩ := Option.map_eq_some_iff.mp
      (show ((service _ _).exec (Service.fresh 1) repeatedRun).map
        (fun s => (s.stub.started.length, s.placed.length)) = some (2, 1) by decide)
    obtain ⟨hstarted, hplaced⟩ := Prod.mk.inj hobs
    have hle := (h _ s repeatedRun (Service.fresh_initial 1) hrun).length_le
    have hops := List.length_filterMap_le BlkReq.blockOp? s.placed
    omega
  · intro h
    obtain ⟨s, hrun, hobs⟩ := Option.map_eq_some_iff.mp
      (show ((service _ _).exec (Service.fresh 1) mergedSignals).map
        (fun s => ((s.stub.flushPending, s.stub.pc, s.owed),
          (s.stub.shared.reqQueue : List BlkReq).length)) =
          some ((false, .idle, false), 1) by decide)
    obtain ⟨hrest, hlength⟩ := Prod.mk.inj hobs
    obtain ⟨hflush, hpc, howed⟩ : _ ∧ _ ∧ _ := by simpa using hrest
    have hempty := h _ s mergedSignals (Service.fresh_initial 1) hrun hflush hpc howed
    rw [hempty] at hlength
    cases hlength

end Sel4Xhci.Umass
