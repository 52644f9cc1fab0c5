import Sel4Xhci.Umass.Api
import Sel4Xhci.Umass.Stub

/-!
# The synchronous completion protocol

One client calls `enqueue_umass_request` again and again; the driver and the USB stack
serve it. The only synchronisation is the `in_progress` flag, raised by the client
before it queues a request and cleared by the driver when the stack has signalled
`UMASS_COMPLETE`. All interleavings of the shared accesses are allowed, except that no
other party signals the driver.

The abstract view of the protocol is a token that goes round: `Phase` names the
fourteen places a call can be in, and every access of every party either moves the
token one place on or polls. In each phase the whole shared state is determined.

## Main definitions

* `Sync`, `sync` — client, driver and stack as a machine
* `Phase`, `handshake` — the abstract cycle
* `AtPhase` — what the phase says about every component

## Main results

* `sync_simulates` — the accesses refine the cycle
* `call_completes_own_transfer` — a call returns only when its own transfer is
  complete, with its own response, and leaves nothing behind
* `exec_call` — a run of one call computes `enqueueUmassRequest`
-/

set_option autoImplicit false

namespace Sel4Xhci.Umass

open Semantics

variable {RQ : Fifo BlkReq} {SQ : Fifo Answer}

/-- An accepted call: the device it names, its arguments and the id it was given. -/
structure Job where
  dev : SelUsbDevice
  call : Call
  xferId : BitVec 32
  deriving DecidableEq, Inhabited

/-- The request that the call allocates. -/
def Job.request (j : Job) : UmassRequest := j.call.request j.dev j.xferId

/-- The queue entry of the request. -/
def Job.entry (j : Job) : BlkReq := j.request.toBlkReq

/-- Where the client is inside `enqueue_umass_request`: before the named access. The
`ticket` is history: how many requests were queued before its own. -/
inductive ClientPc
  | idle
  | raise (j : Job)
  | enqueue (j : Job)
  | notify (j : Job) (ticket : ℕ)
  | poll (j : Job) (ticket : ℕ)
  | collect (j : Job) (ticket : ℕ)
  | unlock (j : Job) (ticket : ℕ) (response : Option Answer)
  deriving DecidableEq

/-- A call that went through the queue and returned, with the response it dequeued. -/
structure Return where
  job : Job
  ticket : ℕ
  response : Option Answer

/-- Client, driver and stack. The last two fields are history. -/
structure Sync (RQ : Fifo BlkReq) (SQ : Fifo Answer) where
  vars : ApiVars
  client : ClientPc
  stub : Stub RQ SQ
  placed : List Job
  returns : List Return

/-- Whose turn it is. -/
inductive SyncLabel
  | call (c : Call)
  | client
  | stub (l : StubLabel)

namespace Sync

variable (s : Sync RQ SQ)

/-- The client's next shared access. A refusal of the request queue goes unnoticed. -/
def clientStep : Option (Sync RQ SQ) :=
  match s.client with
  | .idle => none
  | .raise j =>
    some { s with
      stub := { s.stub with shared := { s.stub.shared with inProgress := true } }
      client := .enqueue j }
  | .enqueue j =>
    match RQ.enqueue s.stub.shared.reqQueue j.entry with
    | some q =>
      some { s with
        stub := { s.stub with shared := { s.stub.shared with reqQueue := q } }
        client := .notify j s.placed.length
        placed := s.placed ++ [j] }
    | none => some { s with client := .notify j s.placed.length }
  -- The signal is one bit.
  | .notify j k =>
    some { s with stub := { s.stub with flushPending := true }, client := .poll j k }
  | .poll j k => if s.stub.shared.inProgress then some s else some { s with client := .collect j k }
  | .collect j k =>
    some { s with
      stub := { s.stub with shared := (dequeueResp s.stub.shared).2 }
      client := .unlock j k (dequeueResp s.stub.shared).1 }
  | .unlock j k response =>
    some { s with
      vars := s.vars.unlock j.call.devId
      client := .idle
      returns := s.returns ++ [⟨j, k, response⟩] }

/-- A call by an idle client: only an accepted one goes on to the queue, a refused one
returns at once, a bad device id faults. -/
def callStep (c : Call) : Option (Sync RQ SQ) :=
  if s.client = .idle then
    match s.vars.device c.devId, admitCall s.vars c with
    | some dev, (.accepted xfer, vars) =>
      some { s with vars := vars, client := .raise ⟨dev, c, xfer.xferId⟩ }
    | some _, (_, vars) => some { s with vars := vars }
    | none, _ => none
  else none

def step : SyncLabel → Option (Sync RQ SQ)
  | .call c => s.callStep c
  | .client => s.clientStep
  | .stub l => (s.stub.step l).map fun stub => { s with stub := stub }

/-- Before the first call: an idle client, a driver at rest, two empty queues, a clear
flag, no history. -/
structure Initial : Prop where
  client : s.client = .idle
  stub : s.stub.Quiet
  reqQueue : RQ.items s.stub.shared.reqQueue = []
  respQueue : SQ.items s.stub.shared.respQueue = []
  inProgress : s.stub.shared.inProgress = false
  placed : s.placed = []
  dispatched : s.stub.dispatched = []
  started : s.stub.started = []
  returns : s.returns = []

end Sync

/-- Client and driver before the first call, over queues of a bounded capacity. -/
def Sync.fresh (vars : ApiVars) (room : ℕ) :
    Sync (Fifo.bounded BlkReq room) (Fifo.bounded Answer room) :=
  ⟨vars, .idle, Stub.fresh room, [], []⟩

theorem Sync.fresh_initial (vars : ApiVars) (room : ℕ) : (Sync.fresh vars room).Initial where
  client := rfl
  stub := Stub.fresh_quiet room
  reqQueue := rfl
  respQueue := rfl
  inProgress := rfl
  placed := rfl
  dispatched := rfl
  started := rfl
  returns := rfl

/-- The synchronous protocol as a machine. -/
def sync (RQ : Fifo BlkReq) (SQ : Fifo Answer) : Machine (Sync RQ SQ) SyncLabel where
  start := Sync.Initial
  step := Sync.step

/-! ## The cycle -/

/-- The places of the token, in the order it visits them. -/
inductive Phase
  | quiet
  | raising
  | queueing
  | notifying
  | flushed
  | taken
  | dequeued
  | started
  | answered
  | completed
  | clearing
  | released
  | collecting
  | collected
  deriving DecidableEq, Repr

namespace Phase

/-- The next place. -/
def next : Phase → Phase
  | quiet => raising
  | raising => queueing
  | queueing => notifying
  | notifying => flushed
  | flushed => taken
  | taken => dequeued
  | dequeued => started
  | started => answered
  | answered => completed
  | completed => clearing
  | clearing => released
  | released => collecting
  | collecting => collected
  | collected => quiet

/-- The client in each phase of the call `j`, with ticket `k` and response `a`. -/
def client (j : Job) (k : ℕ) (a : Answer) : Phase → ClientPc
  | quiet => .idle
  | raising => .raise j
  | queueing => .enqueue j
  | notifying => .notify j k
  | collecting => .collect j k
  | collected => .unlock j k (some a)
  | _ => .poll j k

/-- The driver in each phase. -/
def stubPc (j : Job) : Phase → StubPc
  | taken => .dequeue
  | dequeued => .dispatch j.entry
  | clearing => .clear
  | _ => .idle

/-- The request queue holds the request. -/
def queued : Phase → Bool
  | notifying | flushed | taken => true
  | _ => false

/-- The response queue holds the response. -/
def responded : Phase → Bool
  | answered | completed | clearing | released | collecting => true
  | _ => false

/-- `in_progress` is set. -/
def raised : Phase → Bool
  | quiet | raising | released | collecting | collected => false
  | _ => true

/-- The request has been queued. -/
def placed : Phase → Bool
  | quiet | raising | queueing => false
  | _ => true

/-- The driver has dispatched the request. -/
def dispatched : Phase → Bool
  | quiet | raising | queueing | notifying | flushed | taken | dequeued => false
  | _ => true

/-- The stack has signalled that the transfer is complete. -/
def signalled : Phase → Bool
  | completed | clearing | released | collecting | collected => true
  | _ => false

end Phase

/-- The abstract protocol: the token moves one place on. -/
def handshake : Machine Phase Unit where
  start ph := ph = .quiet
  step ph _ := some ph.next

/-- A returned call has dequeued the response to the request that it had queued itself. -/
def Return.Own (r : Return) (dispatched : List BlkReq) : Prop :=
  dispatched[r.ticket]? = some r.job.entry ∧ ∃ a, r.response = some a ∧ a.origin = r.ticket

/-- What phase `ph` of the call `j` says about the state, after the earlier calls `done`.
`a` is the response, once there is one. -/
structure AtPhase (s : Sync RQ SQ) (ph : Phase) (done : List Job) (j : Job) (a : Answer) :
    Prop where
  client : s.client = ph.client j done.length a
  pc : s.stub.pc = ph.stubPc j
  reqQueue : RQ.items s.stub.shared.reqQueue = bif ph.queued then [j.entry] else []
  respQueue : SQ.items s.stub.shared.respQueue = bif ph.responded then [a] else []
  inProgress : s.stub.shared.inProgress = ph.raised
  flushPending : s.stub.flushPending = decide (ph = .flushed)
  completePending : s.stub.completePending = decide (ph = .completed)
  outstanding : s.stub.outstanding = if ph = .started then [done.length] else []
  answered : s.stub.answered = if ph = .answered then [done.length] else []
  origin : a.origin = done.length
  placed : s.placed = done ++ bif ph.placed then [j] else []
  dispatched : s.stub.dispatched = (done ++ bif ph.dispatched then [j] else []).map Job.entry
  signalled : ph.signalled = true → done.length ∈ s.stub.signalled
  returns : ∀ r ∈ s.returns, r.Own s.stub.dispatched

/-- The state is in phase `ph` of some call. -/
def InPhase (s : Sync RQ SQ) (ph : Phase) : Prop := ∃ done j a, AtPhase s ph done j a

theorem Sync.Initial.inPhase {s : Sync RQ SQ} (h : s.Initial) : InPhase s .quiet := by
  refine ⟨[], default, default, ?_⟩
  exact {
    client := h.client
    pc := h.stub.pc
    reqQueue := h.reqQueue
    respQueue := h.respQueue
    inProgress := h.inProgress
    flushPending := h.stub.flushPending
    completePending := h.stub.completePending
    outstanding := h.stub.outstanding
    answered := h.stub.answered
    origin := rfl
    placed := h.placed
    dispatched := h.dispatched
    signalled := fun hsig => by cases hsig
    returns := by simp [h.returns] }

theorem Return.Own.append {r : Return} {dispatched : List BlkReq} (h : r.Own dispatched)
    (more : List BlkReq) : r.Own (dispatched ++ more) := by
  obtain ⟨hentry, ha⟩ := h
  exact ⟨List.getElem?_append_left (List.getElem?_eq_some_iff.mp hentry).1 ▸ hentry, ha⟩

section Steps

variable {s s' : Sync RQ SQ} {ph : Phase} {j : Job} {req : BlkReq}

theorem Phase.stubPc_eq_dequeue : ph.stubPc j = .dequeue ↔ ph = .taken := by
  cases ph <;> simp [stubPc]

theorem Phase.stubPc_eq_dispatch :
    ph.stubPc j = .dispatch req ↔ ph = .dequeued ∧ req = j.entry := by
  cases ph <;> simp [stubPc, eq_comm]

theorem Phase.stubPc_ne_notifyClient : ph.stubPc j ≠ .notifyClient := by
  cases ph <;> simp [stubPc]

theorem Phase.stubPc_eq_clear : ph.stubPc j = .clear ↔ ph = .clearing := by
  cases ph <;> simp [stubPc]

/-- The request of a call always starts a transfer. -/
theorem Stub.dispatchStep_entry (s : Stub RQ SQ) (j : Job) :
    s.dispatchStep j.entry = { s with
      pc := .idle
      outstanding := s.outstanding ++ [s.dispatched.length]
      dispatched := s.dispatched ++ [j.entry]
      started := s.started ++ [⟨j.call.read, 0#32, j.call.blkno,
        (j.call.nblks.setWidth 16).setWidth 32, j.call.val⟩] } := by
  simp [dispatchStep, Job.entry, UmassRequest.action_toBlkReq, Job.request, Call.request]

/-- An access of the driver or an action of the stack moves the token on. -/
theorem InPhase.stubStep {l : StubLabel} {stub : Stub RQ SQ} (h : InPhase s ph)
    (hs : s.stub.step l = some stub) : InPhase { s with stub := stub } ph.next := by
  obtain ⟨done, j, a, h⟩ := h
  cases l with
  | takeFlush =>
    obtain ⟨-, hflush, rfl⟩ := Stub.step_takeFlush.mp hs
    obtain rfl : ph = .flushed := by simpa [h.flushPending] using hflush
    exact ⟨done, j, a, { h with
      pc := rfl
      flushPending := rfl
      signalled := fun hsig => by cases hsig }⟩
  | takeComplete =>
    obtain ⟨-, hcomplete, rfl⟩ := Stub.step_takeComplete.mp hs
    obtain rfl : ph = .completed := by simpa [h.completePending] using hcomplete
    exact ⟨done, j, a, { h with pc := rfl, completePending := rfl }⟩
  | dequeue locals =>
    obtain ⟨hpc, rfl⟩ := Stub.step_dequeue.mp hs
    obtain rfl := Phase.stubPc_eq_dequeue.mp (h.pc.symm.trans hpc)
    -- The request is on the queue, so the locals are all written.
    obtain ⟨q, hq, hrest⟩ := dequeueReq_of_items h.reqQueue locals
    rw [hq]
    exact ⟨done, j, a, { h with pc := rfl, reqQueue := hrest }⟩
  | dispatch =>
    obtain ⟨req, hpc, rfl⟩ := Stub.step_dispatch.mp hs
    obtain ⟨rfl, rfl⟩ := Phase.stubPc_eq_dispatch.mp (h.pc.symm.trans hpc)
    have hdispatched : s.stub.dispatched = done.map Job.entry := by
      simpa [Phase.dispatched] using h.dispatched
    rw [Stub.dispatchStep_entry]
    exact ⟨done, j, a, { h with
      pc := rfl
      outstanding := by simp [h.outstanding, hdispatched, Phase.next]
      dispatched := by simp [hdispatched, Phase.dispatched, Phase.next]
      signalled := fun hsig => by cases hsig
      returns := fun r hr => (h.returns r hr).append _ }⟩
  | notifyClient =>
    obtain ⟨hpc, -⟩ := Stub.step_notifyClient.mp hs
    exact absurd (h.pc.symm.trans hpc) Phase.stubPc_ne_notifyClient
  | clear =>
    obtain ⟨hpc, rfl⟩ := Stub.step_clear.mp hs
    obtain rfl := Phase.stubPc_eq_clear.mp (h.pc.symm.trans hpc)
    exact ⟨done, j, a, { h with pc := rfl, inProgress := rfl }⟩
  | answer origin resp =>
    obtain ⟨hmem, q, hq, rfl⟩ := Stub.step_answer.mp hs
    obtain ⟨rfl, rfl⟩ : ph = .started ∧ origin = done.length := by simpa [h.outstanding] using hmem
    refine ⟨done, j, ⟨resp, done.length⟩, { h with
      respQueue := ?_
      outstanding := by simp [h.outstanding, Phase.next]
      answered := by simp [h.answered, Phase.next]
      origin := rfl
      signalled := fun hsig => by cases hsig }⟩
    simp [SQ.items_enqueue hq, h.respQueue, Phase.responded, Phase.next]
  | complete origin =>
    obtain ⟨hmem, rfl⟩ := Stub.step_complete.mp hs
    obtain ⟨rfl, rfl⟩ : ph = .answered ∧ origin = done.length := by simpa [h.answered] using hmem
    exact ⟨done, j, a, { h with
      completePending := rfl
      answered := by simp [h.answered, Phase.next]
      signalled := fun _ => by simp }⟩

/-- An access of the client moves the token on, or polls. -/
theorem InPhase.clientStep (h : InPhase s ph) (hs : s.clientStep = some s') :
    InPhase s' ph ∨ InPhase s' ph.next := by
  obtain ⟨done, j, a, h⟩ := h
  have hclient := h.client
  cases ph with
  | quiet => simp [Sync.clientStep, hclient, Phase.client] at hs
  | raising =>
    simp only [Sync.clientStep, hclient, Phase.client, Option.some.injEq] at hs
    subst hs
    exact .inr ⟨done, j, a, { h with client := rfl, inProgress := rfl }⟩
  | queueing =>
    -- The queue is empty, so it takes the request.
    obtain ⟨q, hq⟩ := Option.isSome_iff_exists.mp
      (RQ.accepts_of_empty (a := j.entry) h.reqQueue)
    simp only [Sync.clientStep, hclient, Phase.client, hq, Option.some.injEq] at hs
    subst hs
    have hplaced : s.placed = done := by simpa [Phase.placed] using h.placed
    refine .inr ⟨done, j, a, { h with
      client := by simp [hplaced, Phase.client, Phase.next]
      reqQueue := ?_
      placed := by simp [hplaced, Phase.placed, Phase.next] }⟩
    simp [RQ.items_enqueue hq, h.reqQueue, Phase.queued, Phase.next]
  | notifying =>
    simp only [Sync.clientStep, hclient, Phase.client, Option.some.injEq] at hs
    subst hs
    exact .inr ⟨done, j, a, { h with client := rfl, flushPending := rfl }⟩
  | flushed | taken | dequeued | started | answered | completed | clearing =>
    -- The flag is up in all of these phases, so the client goes on polling.
    have hraised := h.inProgress
    simp only [Phase.raised] at hraised
    simp only [Sync.clientStep, hclient, Phase.client, hraised, if_true, Option.some.injEq] at hs
    subst hs
    exact .inl ⟨done, j, a, h⟩
  | released =>
    have hraised := h.inProgress
    simp only [Phase.raised] at hraised
    simp only [Sync.clientStep, hclient, Phase.client, hraised, Bool.false_eq_true, if_false,
      Option.some.injEq] at hs
    subst hs
    exact .inr ⟨done, j, a, { h with client := rfl }⟩
  | collecting =>
    obtain ⟨q, hq, hrest⟩ := dequeueResp_of_items h.respQueue
    simp only [Sync.clientStep, hclient, Phase.client, hq, Option.some.injEq] at hs
    subst hs
    exact .inr ⟨done, j, a, { h with client := rfl, respQueue := hrest }⟩
  | collected =>
    simp only [Sync.clientStep, hclient, Phase.client, Option.some.injEq] at hs
    subst hs
    have hdispatched : s.stub.dispatched = (done ++ [j]).map Job.entry := h.dispatched
    -- The call joins the earlier ones, and the next one gets the next ticket.
    refine .inr ⟨done ++ [j], j, { a with origin := done.length + 1 }, { h with
      client := rfl
      outstanding := h.outstanding
      answered := h.answered
      origin := by simp
      placed := by simpa [Phase.placed, Phase.next] using h.placed
      dispatched := by simpa [Phase.dispatched, Phase.next] using h.dispatched
      signalled := fun hsig => by cases hsig
      returns := ?_ }⟩
    intro r hr
    rcases List.mem_append.mp hr with hr | hr
    · exact h.returns r hr
    · obtain rfl := List.mem_singleton.mp hr
      exact ⟨by simp [hdispatched], a, rfl, h.origin⟩

/-- A call begins in the quiet phase, and a refused one ends there. -/
theorem InPhase.callStep {c : Call} (h : InPhase s ph) (hs : s.callStep c = some s') :
    InPhase s' ph ∨ InPhase s' ph.next := by
  obtain ⟨done, j, a, h⟩ := h
  unfold Sync.callStep at hs
  split_ifs at hs with hidle
  -- The client is idle in one phase only.
  obtain rfl : ph = .quiet := by
    have hclient := h.client.symm.trans hidle
    cases ph <;> simp [Phase.client] at hclient ⊢
  split at hs
  · rename_i dev xfer vars hdev hadmitted
    cases hs
    exact .inr ⟨done, ⟨dev, c, xfer.xferId⟩, a, { h with client := rfl }⟩
  · cases hs
    exact .inl ⟨done, j, a, { h with }⟩
  · cases hs

end Steps

/-- Client, driver and stack refine the cycle: every access moves the token to the next
place or leaves it. -/
theorem sync_simulates : (sync RQ SQ).Simulates handshake InPhase where
  start s hs := ⟨.quiet, rfl, hs.inPhase⟩
  step := by
    intro s ph l s' h hs
    have hadvance : InPhase s' ph ∨ InPhase s' ph.next := by
      cases l with
      | call c => exact h.callStep hs
      | client => exact h.clientStep hs
      | stub l =>
        obtain ⟨stub, hstub, rfl⟩ := Option.map_eq_some_iff.mp hs
        exact .inr (h.stubStep hstub)
    rcases hadvance with hsame | hnext
    · exact ⟨[], ph, rfl, hsame⟩
    · exact ⟨[()], ph.next, rfl, hnext⟩

/-! ## Completion -/

/-- In every reachable state the token is in some place. -/
theorem inPhase_of_exec {s₀ s : Sync RQ SQ} {labels : List SyncLabel} (hstart : s₀.Initial)
    (hrun : (sync RQ SQ).exec s₀ labels = some s) : ∃ ph, InPhase s ph := by
  obtain ⟨ph₀, -, hph₀⟩ := sync_simulates.start s₀ hstart
  obtain ⟨-, ph, -, hph⟩ := sync_simulates.exec hph₀ hrun
  exact ⟨ph, hph⟩

/-- For any number of calls and every interleaving of client, driver and stack: a client
past its polling loop has its own transfer completed; every call that returned dequeued
the response to its own transfer; and between calls both queues are empty and
`in_progress` is clear. -/
theorem call_completes_own_transfer {s₀ s : Sync RQ SQ} {labels : List SyncLabel}
    (hstart : s₀.Initial) (hrun : (sync RQ SQ).exec s₀ labels = some s) :
    (∀ j k, (s.client = .collect j k ∨ ∃ response, s.client = .unlock j k response) →
      s.stub.dispatched[k]? = some j.entry ∧ k ∈ s.stub.signalled) ∧
    (∀ r ∈ s.returns, r.Own s.stub.dispatched) ∧
    (s.client = .idle → RQ.items s.stub.shared.reqQueue = [] ∧
      SQ.items s.stub.shared.respQueue = [] ∧ s.stub.shared.inProgress = false) := by
  obtain ⟨ph, done, j, a, h⟩ := inPhase_of_exec hstart hrun
  have hclient := h.client
  refine ⟨?_, h.returns, ?_⟩
  · intro j' k hpast
    -- Past the loop, the token has gone by the dispatch and the signal.
    obtain ⟨hph, rfl, rfl⟩ : (ph = .collecting ∨ ph = .collected) ∧ j' = j ∧ k = done.length := by
      rw [hclient] at hpast
      cases ph <;> simp [Phase.client, eq_comm] at hpast ⊢ <;> exact hpast
    have hdispatched : s.stub.dispatched = (done ++ [j']).map Job.entry := by
      rcases hph with rfl | rfl <;> exact h.dispatched
    refine ⟨by simp [hdispatched], h.signalled ?_⟩
    rcases hph with rfl | rfl <;> rfl
  · intro hidle
    obtain rfl : ph = .quiet := by
      rw [hclient] at hidle
      cases ph <;> simp [Phase.client] at hidle ⊢
    exact ⟨h.reqQueue, h.respQueue, h.inProgress⟩

/-- The accesses of one call that is served at once: it is the `k`-th to be dispatched,
and the stack answers it with `resp`. -/
def servedCall (c : Call) (k : ℕ) (resp : BlkResp) : List SyncLabel :=
  [.call c, .client, .client, .client, .stub .takeFlush, .stub (.dequeue default),
    .stub .dispatch, .client, .stub (.answer k resp), .stub (.complete k),
    .stub .takeComplete, .stub .clear, .client, .client, .client]

/-- Two reads of one drive, one after the other. -/
def twoReads : List SyncLabel :=
  servedCall ⟨5#32, true, 7#32, 1#32, 0x1000#64, 0#64⟩ 0 ⟨0#32, 0x1000#64, 1#16, 1#16, 0#32⟩ ++
    servedCall ⟨5#32, true, 8#32, 1#32, 0x2000#64, 0#64⟩ 1 ⟨0#32, 0x2000#64, 1#16, 1#16, 1#32⟩

theorem call_completes_own_transfer_two_reads :
    ∃ s, (sync _ _).exec (Sync.fresh oneDrive 0) twoReads = some s ∧
      s.client = .idle ∧ s.returns.map Return.ticket = [0, 1] ∧
      (∀ r ∈ s.returns, r.Own s.stub.dispatched) ∧ s.stub.shared.inProgress = false := by
  obtain ⟨s, hrun, hobs⟩ := Option.map_eq_some_iff.mp
    (show ((sync _ _).exec (Sync.fresh oneDrive 0) twoReads).map
      (fun s => (s.client, s.returns.map Return.ticket)) = some (.idle, [0, 1]) by decide)
  obtain ⟨hidle, htickets⟩ := Prod.mk.inj hobs
  have htransfers := call_completes_own_transfer (Sync.fresh_initial oneDrive 0) hrun
  exact ⟨s, hrun, hidle, htickets, htransfers.2.1, (htransfers.2.2 hidle).2.2⟩

/-! ## One call as a function -/

/-- The driver and the stack alone, as a machine. -/
def stubMachine (RQ : Fifo BlkReq) (SQ : Fifo Answer) : Machine (Stub RQ SQ) StubLabel where
  start _ := True
  step := Stub.step

theorem exec_stub {s : Sync RQ SQ} {env : List StubLabel} {stub : Stub RQ SQ}
    (henv : (stubMachine RQ SQ).exec s.stub env = some stub) :
    (sync RQ SQ).exec s (env.map .stub) = some { s with stub := stub } := by
  induction env generalizing s with
  | nil =>
    obtain rfl := Option.some.inj henv
    rfl
  | cons l env ih =>
    obtain ⟨mid, hmid, hrest⟩ := Machine.exec_cons_eq_some.mp henv
    refine Machine.exec_cons_eq_some.mpr ⟨{ s with stub := mid }, ?_, ih hrest⟩
    change (s.stub.step l).map _ = _
    rw [show s.stub.step l = some mid from hmid]
    rfl

/-- The driver as the client leaves it when it starts to poll. -/
def Sync.submitted (s : Sync RQ SQ) (xfer : UmassRequest) : Stub RQ SQ :=
  { s.stub with
    shared := (executeNext { s.stub.shared with inProgress := true } xfer).2
    flushPending := true }

/-- The accesses of an accepted call up to its polling loop compute `executeNext`. -/
theorem exec_submit {s : Sync RQ SQ} {c : Call} {xfer : UmassRequest} {vars : ApiVars}
    (hidle : s.client = .idle) (hadmitted : admitCall s.vars c = (.accepted xfer, vars)) :
    ∃ t, (sync RQ SQ).exec s [.call c, .client, .client, .client] = some t ∧
      t.stub = s.submitted xfer ∧ t.vars = vars ∧
      ∃ j k, j.call = c ∧ t.client = .poll j k := by
  obtain ⟨dev, hdev, -, -, hxfer⟩ := admitCall_accepted hadmitted
  let j : Job := ⟨dev, c, xfer.xferId⟩
  have hentry : j.entry = xfer.toBlkReq := by simp [Job.entry, Job.request, j, hxfer, Call.request]
  -- The two shared accesses before the queue is touched.
  let raised : Sync RQ SQ := { s with
    vars := vars
    client := .enqueue j
    stub := { s.stub with shared := { s.stub.shared with inProgress := true } } }
  have hcall : s.step (.call c) = some { s with vars := vars, client := .raise j } := by
    simp [Sync.step, Sync.callStep, hidle, hdev, hadmitted, j]
  have hraised : ({ s with vars := vars, client := .raise j } : Sync RQ SQ).step .client =
      some raised := rfl
  -- A refusal by the queue takes the client just as far.
  obtain ⟨queued, hqueued, hstub⟩ : ∃ queued : Sync RQ SQ, raised.step .client = some queued ∧
      queued.vars = vars ∧ queued.client = .notify j s.placed.length ∧
      queued.stub = { s.stub with
        shared := (executeNext { s.stub.shared with inProgress := true } xfer).2 } := by
    cases hq : RQ.enqueue s.stub.shared.reqQueue j.entry with
    | some q =>
      refine ⟨{ raised with
        stub := { raised.stub with shared := { raised.stub.shared with reqQueue := q } }
        client := .notify j s.placed.length
        placed := s.placed ++ [j] }, ?_, rfl, rfl, ?_⟩
      · simp [Sync.step, Sync.clientStep, raised, hq]
      · simp [raised, executeNext, ← hentry, hq]
    | none =>
      refine ⟨{ raised with client := .notify j s.placed.length }, ?_, rfl, rfl, ?_⟩
      · simp [Sync.step, Sync.clientStep, raised, hq]
      · simp [raised, executeNext, ← hentry, hq]
  obtain ⟨hvars, hclient, hstub⟩ := hstub
  let polling : Sync RQ SQ := { queued with
    stub := { queued.stub with flushPending := true }
    client := .poll j s.placed.length }
  have hpolling : queued.step .client = some polling := by
    simp [Sync.step, Sync.clientStep, hclient, polling]
  refine ⟨polling, ?_, ?_, hvars, j, s.placed.length, rfl, rfl⟩
  · exact Machine.exec_cons_eq_some.mpr ⟨_, hcall, Machine.exec_cons_eq_some.mpr
      ⟨_, hraised, Machine.exec_cons_eq_some.mpr ⟨_, hqueued, Machine.exec_singleton.mpr hpolling⟩⟩⟩
  · simp [polling, hstub, Sync.submitted]

/-- The accesses of one accepted call, with the driver and the stack running while the
client polls, compute `enqueueUmassRequest`. -/
theorem exec_call {s : Sync RQ SQ} {c : Call} {xfer : UmassRequest} {vars : ApiVars}
    {env : List StubLabel} {stub : Stub RQ SQ} (hidle : s.client = .idle)
    (hadmitted : admitCall s.vars c = (.accepted xfer, vars))
    (henv : (stubMachine RQ SQ).exec (s.submitted xfer) env = some stub)
    (hclear : stub.shared.inProgress = false) :
    ∃ s', (sync RQ SQ).exec s ([.call c, .client, .client, .client] ++
        (env.map .stub ++ [.client, .client, .client])) = some s' ∧
      s'.client = .idle ∧
      enqueueUmassRequest (fun _ => some stub.shared) ⟨s.vars, s.stub.shared⟩ c =
        (.returns 1#32,
          (executeNext { s.stub.shared with inProgress := true } xfer).1 ++
            [.released, .dequeueResp (dequeueResp stub.shared).1],
          ⟨s'.vars, s'.stub.shared⟩) := by
  obtain ⟨t, ht, htstub, htvars, j, k, hj, htclient⟩ := exec_submit hidle hadmitted
  have hserved : (sync RQ SQ).exec t (env.map .stub) = some { t with stub := stub } :=
    exec_stub (htstub ▸ henv)
  -- A clear flag, the response, and `locked`.
  let done : Sync RQ SQ := { t with
    vars := t.vars.unlock c.devId
    client := .idle
    stub := { stub with shared := (dequeueResp stub.shared).2 }
    returns := t.returns ++ [⟨j, k, (dequeueResp stub.shared).1⟩] }
  have hreturn : (sync RQ SQ).exec { t with stub := stub } [.client, .client, .client] =
      some done := by
    simp [Machine.exec, sync, Sync.step, Sync.clientStep, htclient, hclear, hj, done]
  refine ⟨done, ?_, rfl, ?_⟩
  · exact Machine.exec_append.mpr ⟨t, ht, Machine.exec_append.mpr ⟨_, hserved, hreturn⟩⟩
  · simp [enqueueUmassRequest, hadmitted, htvars, done]

end Sel4Xhci.Umass
