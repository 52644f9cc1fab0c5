import Sel4Xhci.Umass.Request

/-!
# The driver's side of the mass-storage queues

The two notification handlers of `xhci_stub.c` that touch the queues, one shared
access at a time, together with the USB stack that carries out the transfers they
start. The stack is not part of the sources; it may answer outstanding transfers in
any order with any result, but answers each once and then signals `UMASS_COMPLETE`
once for it.

A pending signal is one bit, so signals that arrive before the driver takes the first
of them merge. `create_umass_xfer` keeps the request in local variables that a failed
dequeue leaves as they were: the label `dequeue` says what the stack frame held.

## Main definitions

* `createUmassXfer` — the handler of `UMASS_FLUSH` as one function
* `Stub`, `Stub.step` — driver and USB stack, access by access

## Main results

* `Stub.step_dequeue_dispatch` — the accesses of one handler run add up to the function
* `Stub.started_step` — the operations started are those of the dispatched requests
-/

set_option autoImplicit false

namespace Sel4Xhci.Umass

open Semantics

variable {RQ : Fifo BlkReq} {SQ : Fifo Answer}

/-- `blk_dequeue_req` into local variables: an empty queue leaves them unwritten. -/
def dequeueReq (sh : Shared RQ SQ) (locals : BlkReq) : BlkReq × Shared RQ SQ :=
  match RQ.dequeue sh.reqQueue with
  | some (req, q) => (req, { sh with reqQueue := q })
  | none => (locals, sh)

theorem dequeueReq_of_items {sh : Shared RQ SQ} {req : BlkReq} {rest : List BlkReq}
    (h : RQ.items sh.reqQueue = req :: rest) (locals : BlkReq) :
    ∃ q, dequeueReq sh locals = (req, { sh with reqQueue := q }) ∧ RQ.items q = rest := by
  obtain ⟨q, hq, hrest⟩ := RQ.dequeue_items h
  exact ⟨q, by simp [dequeueReq, hq], hrest⟩

/-- `create_umass_xfer` up to the calls it makes: what it decides to do, and the shared
memory after the dequeue. -/
def createUmassXfer (sh : Shared RQ SQ) (locals : BlkReq) : XferAction × Shared RQ SQ :=
  ((dequeueReq sh locals).1.action, (dequeueReq sh locals).2)

/-- The two channels on which the stub serves mass storage. -/
inductive StubChannel
  | umassFlush
  | umassComplete
  deriving DecidableEq, Repr

/-- Where the driver is: in its event loop, or before the named access of a handler. -/
inductive StubPc
  | idle
  | dequeue
  | dispatch (locals : BlkReq)
  | notifyClient
  | clear
  deriving DecidableEq, Repr

/-- `notified`: where the handler of a channel starts. -/
def notified : StubChannel → StubPc
  | .umassFlush => .dequeue
  | .umassComplete => .clear

/-- The driver, the USB stack and the signals between them and the client.
`outstanding` are the transfers the stack works on, `answered` those whose response is
queued and whose `UMASS_COMPLETE` is still to come; both name a transfer by its place in
`dispatched`. The last four fields are history. -/
structure Stub (RQ : Fifo BlkReq) (SQ : Fifo Answer) where
  shared : Shared RQ SQ
  flushPending : Bool
  completePending : Bool
  clientPending : Bool
  pc : StubPc
  outstanding : List ℕ
  answered : List ℕ
  dispatched : List BlkReq
  started : List BlockOp
  responses : List Answer
  signalled : List ℕ

/-- One access of the driver or one action of the stack. -/
inductive StubLabel
  | takeFlush
  | takeComplete
  | dequeue (locals : BlkReq)
  | dispatch
  | notifyClient
  | clear
  | answer (origin : ℕ) (resp : BlkResp)
  | complete (origin : ℕ)

namespace Stub

variable (s : Stub RQ SQ)

/-- A driver at rest: idle, nothing pending, no transfer under way. -/
structure Quiet : Prop where
  pc : s.pc = .idle
  flushPending : s.flushPending = false
  completePending : s.completePending = false
  outstanding : s.outstanding = []
  answered : s.answered = []

instance : Decidable s.Quiet :=
  decidable_of_iff (s.pc = .idle ∧ s.flushPending = false ∧ s.completePending = false ∧
      s.outstanding = [] ∧ s.answered = [])
    ⟨fun ⟨h₁, h₂, h₃, h₄, h₅⟩ => ⟨h₁, h₂, h₃, h₄, h₅⟩, fun ⟨h₁, h₂, h₃, h₄, h₅⟩ =>
      ⟨h₁, h₂, h₃, h₄, h₅⟩⟩

/-- A driver that has served nothing yet, over queues of a bounded capacity. -/
def fresh (room : ℕ) : Stub (Fifo.bounded BlkReq room) (Fifo.bounded Answer room) where
  shared := ⟨([] : List BlkReq), ([] : List Answer), false, fun _ => 0#8⟩
  flushPending := false
  completePending := false
  clientPending := false
  pc := .idle
  outstanding := []
  answered := []
  dispatched := []
  started := []
  responses := []
  signalled := []

theorem fresh_quiet (room : ℕ) : (fresh room).Quiet := ⟨rfl, rfl, rfl, rfl, rfl⟩

/-- The dispatch of the locals, and the calls that follow from it. -/
def dispatchStep (req : BlkReq) : Stub RQ SQ :=
  match req.action with
  | .start op =>
    { s with
      pc := .idle
      outstanding := s.outstanding ++ [s.dispatched.length]
      dispatched := s.dispatched ++ [req]
      started := s.started ++ [op] }
  | .respond resp =>
    -- The client is notified also when the queue refuses the response.
    match SQ.enqueue s.shared.respQueue ⟨resp, s.dispatched.length⟩ with
    | some q =>
      { s with
        shared := { s.shared with respQueue := q }
        pc := .notifyClient
        dispatched := s.dispatched ++ [req]
        responses := s.responses ++ [⟨resp, s.dispatched.length⟩] }
    | none => { s with pc := .notifyClient, dispatched := s.dispatched ++ [req] }
  | .unrecognised _ => { s with pc := .idle, dispatched := s.dispatched ++ [req] }

/-- One step of the driver or the stack. -/
def step : StubLabel → Option (Stub RQ SQ)
  | .takeFlush =>
    if s.pc = .idle ∧ s.flushPending = true then
      some { s with flushPending := false, pc := notified .umassFlush }
    else none
  | .takeComplete =>
    if s.pc = .idle ∧ s.completePending = true then
      some { s with completePending := false, pc := notified .umassComplete }
    else none
  | .dequeue locals =>
    if s.pc = .dequeue then
      some { s with
        shared := (dequeueReq s.shared locals).2
        pc := .dispatch (dequeueReq s.shared locals).1 }
    else none
  | .dispatch =>
    match s.pc with
    | .dispatch req => some (s.dispatchStep req)
    | _ => none
  | .notifyClient =>
    if s.pc = .notifyClient then some { s with clientPending := true, pc := .idle } else none
  | .clear =>
    if s.pc = .clear then
      some { s with shared := { s.shared with inProgress := false }, pc := .idle }
    else none
  | .answer origin resp =>
    -- The stack waits while the response queue is full.
    if origin ∈ s.outstanding then
      (SQ.enqueue s.shared.respQueue ⟨resp, origin⟩).map fun q =>
        { s with
          shared := { s.shared with respQueue := q }
          outstanding := s.outstanding.erase origin
          answered := s.answered ++ [origin]
          responses := s.responses ++ [⟨resp, origin⟩] }
    else none
  | .complete origin =>
    if origin ∈ s.answered then
      some { s with
        completePending := true
        answered := s.answered.erase origin
        signalled := s.signalled ++ [origin] }
    else none

/-! ## What each step does -/

variable {s} {s' : Stub RQ SQ}

@[simp] theorem step_takeFlush : s.step .takeFlush = some s' ↔
    s.pc = .idle ∧ s.flushPending = true ∧
      s' = { s with flushPending := false, pc := .dequeue } := by
  simp [step, notified, and_assoc, eq_comm (b := s')]

@[simp] theorem step_takeComplete : s.step .takeComplete = some s' ↔
    s.pc = .idle ∧ s.completePending = true ∧
      s' = { s with completePending := false, pc := .clear } := by
  simp [step, notified, and_assoc, eq_comm (b := s')]

@[simp] theorem step_dequeue {locals : BlkReq} : s.step (.dequeue locals) = some s' ↔
    s.pc = .dequeue ∧ s' = { s with
      shared := (dequeueReq s.shared locals).2
      pc := .dispatch (dequeueReq s.shared locals).1 } := by
  simp [step, eq_comm (b := s')]

@[simp] theorem step_dispatch : s.step .dispatch = some s' ↔
    ∃ req, s.pc = .dispatch req ∧ s' = s.dispatchStep req := by
  unfold step
  cases s.pc <;> simp [eq_comm (b := s')]

@[simp] theorem step_notifyClient : s.step .notifyClient = some s' ↔
    s.pc = .notifyClient ∧ s' = { s with clientPending := true, pc := .idle } := by
  simp [step, eq_comm (b := s')]

@[simp] theorem step_clear : s.step .clear = some s' ↔
    s.pc = .clear ∧
      s' = { s with shared := { s.shared with inProgress := false }, pc := .idle } := by
  simp [step, eq_comm (b := s')]

@[simp] theorem step_answer {origin : ℕ} {resp : BlkResp} :
    s.step (.answer origin resp) = some s' ↔
      origin ∈ s.outstanding ∧ ∃ q, SQ.enqueue s.shared.respQueue ⟨resp, origin⟩ = some q ∧
        s' = { s with
          shared := { s.shared with respQueue := q }
          outstanding := s.outstanding.erase origin
          answered := s.answered ++ [origin]
          responses := s.responses ++ [⟨resp, origin⟩] } := by
  simp [step, eq_comm (b := s')]

@[simp] theorem step_complete {origin : ℕ} : s.step (.complete origin) = some s' ↔
    origin ∈ s.answered ∧ s' = { s with
      completePending := true
      answered := s.answered.erase origin
      signalled := s.signalled ++ [origin] } := by
  simp [step, eq_comm (b := s')]

/-- A dispatch is recorded, and touches neither the request queue nor the flag nor the
signals between the domains. -/
theorem dispatchStep_frame (req : BlkReq) :
    (s.dispatchStep req).dispatched = s.dispatched ++ [req] ∧
    (s.dispatchStep req).shared.reqQueue = s.shared.reqQueue ∧
    (s.dispatchStep req).shared.inProgress = s.shared.inProgress ∧
    (s.dispatchStep req).flushPending = s.flushPending ∧
    (s.dispatchStep req).completePending = s.completePending ∧
    (s.dispatchStep req).signalled = s.signalled := by
  unfold dispatchStep
  cases req.action with
  | start op => exact ⟨rfl, rfl, rfl, rfl, rfl, rfl⟩
  | respond resp =>
    -- The response queue may be full; nothing here depends on it.
    dsimp only
    split <;> exact ⟨rfl, rfl, rfl, rfl, rfl, rfl⟩
  | unrecognised code => exact ⟨rfl, rfl, rfl, rfl, rfl, rfl⟩

@[simp] theorem dispatchStep_dispatched (req : BlkReq) :
    (s.dispatchStep req).dispatched = s.dispatched ++ [req] := (dispatchStep_frame req).1

@[simp] theorem dispatchStep_reqQueue (req : BlkReq) :
    (s.dispatchStep req).shared.reqQueue = s.shared.reqQueue := (dispatchStep_frame req).2.1

@[simp] theorem dispatchStep_inProgress (req : BlkReq) :
    (s.dispatchStep req).shared.inProgress = s.shared.inProgress :=
  (dispatchStep_frame req).2.2.1

@[simp] theorem dispatchStep_flushPending (req : BlkReq) :
    (s.dispatchStep req).flushPending = s.flushPending := (dispatchStep_frame req).2.2.2.1

@[simp] theorem dispatchStep_completePending (req : BlkReq) :
    (s.dispatchStep req).completePending = s.completePending :=
  (dispatchStep_frame req).2.2.2.2.1

@[simp] theorem dispatchStep_signalled (req : BlkReq) :
    (s.dispatchStep req).signalled = s.signalled := (dispatchStep_frame req).2.2.2.2.2

@[simp] theorem dispatchStep_started (req : BlkReq) :
    (s.dispatchStep req).started = s.started ++ req.blockOp?.toList := by
  unfold dispatchStep BlkReq.blockOp?
  cases req.action with
  | start op => rfl
  | respond resp =>
    dsimp only
    split <;> simp
  | unrecognised code => simp

/-- The two accesses of `create_umass_xfer` start what the function decides to start and
leave the memory it leaves, up to the response of a flush. -/
theorem step_dequeue_dispatch (locals : BlkReq) (hpc : s.pc = .dequeue) :
    ∃ s', ((s.step (.dequeue locals)).bind fun t => t.step .dispatch) = some s' ∧
      s'.shared.reqQueue = (createUmassXfer s.shared locals).2.reqQueue ∧
      s'.started = s.started ++ (match (createUmassXfer s.shared locals).1 with
        | .start op => [op]
        | _ => []) := by
  obtain ⟨req, hreq⟩ : ∃ req, req = (dequeueReq s.shared locals).1 := ⟨_, rfl⟩
  refine ⟨_, Option.bind_eq_some_iff.mpr ⟨_, step_dequeue.mpr ⟨hpc, rfl⟩,
    step_dispatch.mpr ⟨req, by rw [hreq], rfl⟩⟩, by simp [createUmassXfer], ?_⟩
  simp only [dispatchStep_started, createUmassXfer, BlkReq.blockOp?, ← hreq]
  cases req.action <;> rfl

/-- The operations started are those of the requests dispatched, in order. -/
theorem started_step {l : StubLabel} (h : s.started = s.dispatched.filterMap BlkReq.blockOp?)
    (hs : s.step l = some s') : s'.started = s'.dispatched.filterMap BlkReq.blockOp? := by
  cases l with
  | dispatch =>
    obtain ⟨req, -, rfl⟩ := step_dispatch.mp hs
    have hlast : [req].filterMap BlkReq.blockOp? = req.blockOp?.toList := by
      cases hop : req.blockOp? <;> simp [hop]
    rw [dispatchStep_started, dispatchStep_dispatched, List.filterMap_append, h, hlast]
  | takeFlush => obtain ⟨-, -, rfl⟩ := step_takeFlush.mp hs; exact h
  | takeComplete => obtain ⟨-, -, rfl⟩ := step_takeComplete.mp hs; exact h
  | dequeue locals => obtain ⟨-, rfl⟩ := step_dequeue.mp hs; exact h
  | notifyClient => obtain ⟨-, rfl⟩ := step_notifyClient.mp hs; exact h
  | clear => obtain ⟨-, rfl⟩ := step_clear.mp hs; exact h
  | answer origin resp => obtain ⟨-, q, -, rfl⟩ := step_answer.mp hs; exact h
  | complete origin => obtain ⟨-, rfl⟩ := step_complete.mp hs; exact h

end Stub

end Sel4Xhci.Umass
