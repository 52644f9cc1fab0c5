import Sel4Xhci.Umass.Service

/-!
# Which requests are answered, and what releases a waiter

A request takes one of three paths through the driver. A read or write is handed to the
stack, which queues the response and then signals `UMASS_COMPLETE`; a flush, meant for
asynchronous clients, is answered at once; any other code is reported and dropped. Only
the first path clears `in_progress`.

## Main definitions

* `BlkReq.answers` — how many responses a request is owed
* `Stub.Accounts` — every dispatched request is answered, or the stack is working on it
* `Orderly` — the queues take what is put on them, and signals follow requests

## Main results

* `Stub.Accounts.step` — one step of driver or stack keeps the accounts
* `answered_once` — what holds when all requests have been handled
-/

set_option autoImplicit false

namespace Sel4Xhci.Umass

open Semantics

variable {RQ : Fifo BlkReq} {SQ : Fifo Answer}

/-- The responses a request is owed: none for a code that the driver does not know. -/
def BlkReq.answers (req : BlkReq) : ℕ :=
  match req.code with
  | .other _ => 0
  | _ => 1

theorem BlkReq.answers_eq (req : BlkReq) :
    req.answers = match req.action with
      | .unrecognised _ => 0
      | _ => 1 := by
  obtain ⟨code, addr, blockNumber, count, id⟩ := req
  cases code <;> rfl

/-! ## The accounts of the driver -/

/-- Every dispatched request is answered as often as it is owed, counting the transfers
the stack works on; an immediate response is the one the dispatch decided on; and each
transfer is with the stack, waits for its signal, or has been signalled. -/
structure Stub.Accounts (s : Stub RQ SQ) : Prop where
  counts : ∀ i, (s.responses.map Answer.origin).count i + s.outstanding.count i =
    s.dispatched[i]?.elim 0 BlkReq.answers
  contents : ∀ a ∈ s.responses, ∀ req resp, s.dispatched[a.origin]? = some req →
    req.action = .respond resp → a.toBlkResp = resp
  transfers : ∀ i ∈ s.outstanding, ∃ req, s.dispatched[i]? = some req ∧ req.IsTransfer
  underWay : ∀ i req, s.dispatched[i]? = some req → req.IsTransfer →
    i ∈ s.outstanding ∨ i ∈ s.answered ∨ i ∈ s.signalled
  known : ∀ i, i ∈ s.answered ∨ i ∈ s.signalled → i < s.dispatched.length

/-- The response of a flush finds room. -/
def Stub.FlushHasRoom (s : Stub RQ SQ) (l : StubLabel) : Prop :=
  match l, s.pc with
  | .dispatch, .dispatch req =>
    match req.action with
    | .respond resp => (SQ.enqueue s.shared.respQueue ⟨resp, s.dispatched.length⟩).isSome
    | _ => True
  | _, _ => True

instance (s : Stub RQ SQ) (l : StubLabel) : Decidable (s.FlushHasRoom l) := by
  unfold Stub.FlushHasRoom
  split
  · split <;> infer_instance
  · infer_instance

theorem getElem?_snoc {α : Type} (l : List α) (a : α) (i : ℕ) :
    (l ++ [a])[i]? = if i = l.length then some a else l[i]? := by
  rw [List.getElem?_append]
  split_ifs with hlt heq heq
  · omega
  · rfl
  · simp [heq]
  · rw [List.getElem?_eq_none (by simp; omega), List.getElem?_eq_none (by omega)]

namespace Stub

variable {s s' : Stub RQ SQ}

theorem Accounts.origin_lt (h : s.Accounts) {a : Answer} (ha : a ∈ s.responses) :
    a.origin < s.dispatched.length := by
  have hcount := h.counts a.origin
  have hpos : 0 < (s.responses.map Answer.origin).count a.origin :=
    List.count_pos_iff.mpr (List.mem_map_of_mem ha)
  by_contra hge
  rw [List.getElem?_eq_none (by omega), Option.elim_none] at hcount
  omega

/-- The next request dispatched has no responses yet and is not with the stack. -/
theorem Accounts.fresh (h : s.Accounts) :
    (s.responses.map Answer.origin).count s.dispatched.length = 0 ∧
      s.outstanding.count s.dispatched.length = 0 := by
  have hcount := h.counts s.dispatched.length
  rw [List.getElem?_eq_none (le_refl _), Option.elim_none] at hcount
  omega

/-- The counts are right for one more request, if its own are. -/
theorem Accounts.counts_snoc {req : BlkReq} {origins outstanding : List ℕ} (h : s.Accounts)
    (hnew : ∀ i, origins.count i + outstanding.count i =
      (s.responses.map Answer.origin).count i + s.outstanding.count i +
        if i = s.dispatched.length then req.answers else 0) (i : ℕ) :
    origins.count i + outstanding.count i = (s.dispatched ++ [req])[i]?.elim 0 BlkReq.answers := by
  rw [hnew, getElem?_snoc]
  split_ifs with hlast
  · obtain ⟨hresponses, houtstanding⟩ := h.fresh
    rw [hlast, hresponses, houtstanding, Option.elim_some, Nat.zero_add]
  · exact h.counts i

/-- A request that starts no transfer leaves the transfers where they are. -/
theorem Accounts.underWay_snoc {req : BlkReq} (h : s.Accounts) (hreq : ¬ req.IsTransfer) (i : ℕ)
    (r : BlkReq) (hr : (s.dispatched ++ [req])[i]? = some r) (htransfer : r.IsTransfer) :
    i ∈ s.outstanding ∨ i ∈ s.answered ∨ i ∈ s.signalled := by
  rw [getElem?_snoc] at hr
  -- The request itself is no transfer; all others are where they were.
  split_ifs at hr with hlast
  · obtain rfl := Option.some.inj hr
    exact absurd htransfer hreq
  · exact h.underWay i r hr htransfer

/-- The dispatch of a request opens its account. -/
theorem Accounts.dispatchStep {req : BlkReq} (h : s.Accounts) (hpc : s.pc = .dispatch req)
    (hroom : s.FlushHasRoom .dispatch) : (s.dispatchStep req).Accounts := by
  have hcontents : ∀ a ∈ s.responses, ∀ r resp, (s.dispatched ++ [req])[a.origin]? = some r →
      r.action = .respond resp → a.toBlkResp = resp := by
    intro a ha r resp hr
    rw [getElem?_snoc, if_neg (h.origin_lt ha).ne] at hr
    exact h.contents a ha r resp hr
  have hknown : ∀ i, i ∈ s.answered ∨ i ∈ s.signalled → i < (s.dispatched ++ [req]).length := by
    intro i hi
    rw [List.length_append]
    exact Nat.lt_add_right _ (h.known i hi)
  have htransfers : ∀ i ∈ s.outstanding, ∃ r, (s.dispatched ++ [req])[i]? = some r ∧
      r.IsTransfer := by
    intro i hi
    obtain ⟨r, hr, htransfer⟩ := h.transfers i hi
    have hlt := (List.getElem?_eq_some_iff.mp hr).1
    exact ⟨r, by rw [getElem?_snoc, if_neg hlt.ne, hr], htransfer⟩
  cases haction : req.action with
  | start op =>
    -- The transfer is with the stack.
    have hstate : s.dispatchStep req = { s with
        pc := .idle
        outstanding := s.outstanding ++ [s.dispatched.length]
        dispatched := s.dispatched ++ [req]
        started := s.started ++ [op] } := by simp [Stub.dispatchStep, haction]
    rw [hstate]
    refine ⟨h.counts_snoc fun i => ?_, hcontents, ?_, ?_, hknown⟩
    · simp only [List.count_append, List.count_singleton, beq_iff_eq, BlkReq.answers_eq, haction,
        eq_comm (a := s.dispatched.length), Nat.add_assoc]
    · intro i hi
      rcases List.mem_append.mp hi with hi | hi
      · exact htransfers i hi
      · obtain rfl := List.mem_singleton.mp hi
        exact ⟨req, by simp, op, haction⟩
    · intro i r hr htransfer
      rw [getElem?_snoc] at hr
      split_ifs at hr with hlast
      · exact .inl (by simp [hlast])
      · rcases h.underWay i r hr htransfer with hmem | hrest
        · exact .inl (List.mem_append_left _ hmem)
        · exact .inr hrest
  | respond resp =>
    -- The response is queued at once.
    have hnoTransfer : ¬ req.IsTransfer := by simp [BlkReq.IsTransfer, haction]
    simp only [FlushHasRoom, hpc, haction] at hroom
    obtain ⟨q, hq⟩ := Option.isSome_iff_exists.mp hroom
    have hstate : s.dispatchStep req = { s with
        shared := { s.shared with respQueue := q }
        pc := .notifyClient
        dispatched := s.dispatched ++ [req]
        responses := s.responses ++ [⟨resp, s.dispatched.length⟩] } := by
      simp [Stub.dispatchStep, haction, hq]
    rw [hstate]
    refine ⟨h.counts_snoc fun i => ?_, ?_, htransfers, h.underWay_snoc hnoTransfer, hknown⟩
    · simp only [List.map_append, List.map_cons, List.map_nil, List.count_append,
        List.count_singleton, beq_iff_eq, BlkReq.answers_eq, haction,
        eq_comm (a := s.dispatched.length)]
      omega
    · intro a ha r resp' hr haction'
      rcases List.mem_append.mp ha with ha | ha
      · exact hcontents a ha r resp' hr haction'
      · obtain rfl := List.mem_singleton.mp ha
        rw [getElem?_snoc, if_pos rfl, Option.some.injEq] at hr
        rw [← hr, haction, XferAction.respond.injEq] at haction'
        exact haction'
  | unrecognised code =>
    -- Nothing is owed, and nothing happens.
    have hnoTransfer : ¬ req.IsTransfer := by simp [BlkReq.IsTransfer, haction]
    have hstate : s.dispatchStep req =
        { s with pc := .idle, dispatched := s.dispatched ++ [req] } := by
      simp [Stub.dispatchStep, haction]
    rw [hstate]
    refine ⟨h.counts_snoc fun i => ?_, hcontents, htransfers, h.underWay_snoc hnoTransfer, hknown⟩
    simp only [BlkReq.answers_eq, haction, ite_self, Nat.add_zero]

/-- A response by the stack moves a transfer from one column to the other. -/
theorem Accounts.answer {origin : ℕ} {resp : BlkResp} {q : SQ.Carrier} (h : s.Accounts)
    (hmem : origin ∈ s.outstanding) : ({ s with
      shared := { s.shared with respQueue := q }
      outstanding := s.outstanding.erase origin
      answered := s.answered ++ [origin]
      responses := s.responses ++ [⟨resp, origin⟩] } : Stub RQ SQ).Accounts := by
  obtain ⟨req, hreq, op, hop⟩ := h.transfers origin hmem
  refine ⟨?_, ?_, ?_, ?_, ?_⟩
  · -- The number goes from the transfers under way to those answered.
    intro i
    have hpos : 0 < s.outstanding.count origin := List.count_pos_iff.mpr hmem
    simp only [List.map_append, List.map_cons, List.map_nil, List.count_append,
      List.count_singleton, List.count_erase, beq_iff_eq, ← h.counts i]
    by_cases hi : origin = i
    · subst hi
      simp only [if_true]
      omega
    · simp [hi]
  · intro a ha r resp' hr haction
    rcases List.mem_append.mp ha with ha | ha
    · exact h.contents a ha r resp' hr haction
    · -- The stack answers transfers, not flushes.
      obtain rfl := List.mem_singleton.mp ha
      obtain rfl := Option.some.inj (hreq.symm.trans hr)
      rw [hop] at haction
      cases haction
  · intro i hi
    exact h.transfers i (List.mem_of_mem_erase hi)
  · -- Every other transfer stays where it was.
    intro i r hr htransfer
    by_cases hi : i = origin
    · exact .inr (.inl (by simp [hi]))
    · rcases h.underWay i r hr htransfer with hout | hans | hsig
      · exact .inl ((List.mem_erase_of_ne hi).mpr hout)
      · exact .inr (.inl (List.mem_append_left _ hans))
      · exact .inr (.inr hsig)
  · intro i hi
    rcases hi with hi | hi
    · rcases List.mem_append.mp hi with hi | hi
      · exact h.known i (.inl hi)
      · obtain rfl := List.mem_singleton.mp hi
        exact (List.getElem?_eq_some_iff.mp hreq).1
    · exact h.known i (.inr hi)

/-- One step of the driver or the stack keeps the accounts. -/
theorem Accounts.step {l : StubLabel} (h : s.Accounts) (hroom : s.FlushHasRoom l)
    (hs : s.step l = some s') : s'.Accounts := by
  cases l with
  -- The program counter moves, and the accounts do not mention it.
  | takeFlush => obtain ⟨-, -, rfl⟩ := step_takeFlush.mp hs; exact { h with }
  | takeComplete => obtain ⟨-, -, rfl⟩ := step_takeComplete.mp hs; exact { h with }
  | dequeue locals => obtain ⟨-, rfl⟩ := step_dequeue.mp hs; exact { h with }
  | dispatch =>
    obtain ⟨req, hpc, rfl⟩ := step_dispatch.mp hs
    exact h.dispatchStep hpc hroom
  | notifyClient => obtain ⟨-, rfl⟩ := step_notifyClient.mp hs; exact { h with }
  | clear => obtain ⟨-, rfl⟩ := step_clear.mp hs; exact { h with }
  | answer origin resp =>
    obtain ⟨hmem, q, -, rfl⟩ := step_answer.mp hs
    exact h.answer hmem
  | complete origin =>
    obtain ⟨hmem, rfl⟩ := step_complete.mp hs
    refine ⟨h.counts, h.contents, h.transfers, ?_, ?_⟩
    · intro i r hr htransfer
      by_cases hi : i = origin
      · exact .inr (.inr (by simp [hi]))
      · rcases h.underWay i r hr htransfer with hout | hans | hsig
        · exact .inl hout
        · exact .inr (.inl ((List.mem_erase_of_ne hi).mpr hans))
        · exact .inr (.inr (List.mem_append_left _ hsig))
    · intro i hi
      rcases hi with hi | hi
      · exact h.known i (.inl (List.mem_of_mem_erase hi))
      · rcases List.mem_append.mp hi with hi | hi
        · exact h.known i (.inr hi)
        · obtain rfl := List.mem_singleton.mp hi
          exact h.known _ (.inl hmem)

end Stub

/-! ## Whole runs -/

/-- The request queue takes every request, no signal comes out of order, and the response
of a flush finds room. -/
def Orderly (s : Service RQ SQ) : ServiceLabel → Prop
  | .append req => (RQ.enqueue s.stub.shared.reqQueue req).isSome
  | .spurious => False
  | .stub l => s.stub.FlushHasRoom l
  | _ => True

instance (s : Service RQ SQ) (l : ServiceLabel) : Decidable (Orderly s l) := by
  unfold Orderly
  split <;> infer_instance

theorem Orderly.noSpareTurn {s : Service RQ SQ} {l : ServiceLabel} (h : Orderly s l) :
    NoSpareTurn s l := by
  cases l with
  | append req => exact h
  | spurious => exact h
  | signal | raise | collect | stub _ => trivial

/-- The accounts of a whole service: what was placed is dispatched, in hand or queued, and
no handler run lacks a request; and a transfer placed since `in_progress` was raised has
cleared it once its signal is handled. -/
structure Service.Accounts (s : Service RQ SQ) : Prop where
  carries : s.stub.channel.sent = s.placed
  turns : s.turns ≤ (RQ.items s.stub.shared.reqQueue).length
  stub : s.stub.Accounts
  released : ∀ i ∈ s.stub.signalled, s.raisedAt ≤ i →
    s.stub.completePending = true ∨ s.stub.pc = .clear ∨ s.stub.shared.inProgress = false

/-- All requests have been handled: the queue is empty and the driver at rest. -/
def Service.Handled (s : Service RQ SQ) : Prop :=
  s.stub.Quiet ∧ RQ.items s.stub.shared.reqQueue = []

instance (s : Service RQ SQ) : Decidable s.Handled := inferInstanceAs (Decidable (_ ∧ _))

namespace Service

variable {s s' : Service RQ SQ}

theorem Initial.accounts (h : s.Initial) : s.Accounts where
  carries := by
    simp [Stub.channel, Channel.sent, h.dispatched, h.reqQueue, h.placed, h.stub.pc, StubPc.hand]
  turns := by
    simp [turns, Stub.turns, h.owed, h.stub.flushPending, h.stub.pc, StubPc.reading]
  stub := {
    counts := by simp [h.responses, h.stub.outstanding, h.dispatched]
    contents := by simp [h.responses]
    transfers := by simp [h.stub.outstanding]
    underWay := by simp [h.dispatched]
    known := by simp [h.stub.answered, h.signalled] }
  released := by simp [h.signalled]

/-- A handler run that reads the queue finds a request. -/
theorem Accounts.readsRequests {β : Type} (h : s.Accounts) (f : BlkReq → Option β)
    (l : ServiceLabel) (hs : s.step l = some s') : ReadsRequests f s l := by
  unfold ReadsRequests
  split
  · rename_i locals
    obtain ⟨stub, hstub, -⟩ := step_stub.mp hs
    obtain ⟨hpc, -⟩ := Stub.step_dequeue.mp hstub
    have hturns := h.turns
    -- The handler run counts, so there is a request for it.
    simp only [Service.turns, Stub.turns, hpc, StubPc.reading] at hturns
    left
    intro hempty
    rw [hempty, List.length_nil] at hturns
    omega
  · trivial

theorem Accounts.released_step {l : ServiceLabel} (h : s.Accounts) (hs : s.step l = some s') :
    ∀ i ∈ s'.stub.signalled, s'.raisedAt ≤ i →
      s'.stub.completePending = true ∨ s'.stub.pc = .clear ∨ s'.stub.shared.inProgress = false := by
  intro i hi hraised
  cases l with
  | append req =>
    obtain ⟨-, ⟨q, -, rfl⟩ | ⟨-, rfl⟩⟩ := step_append.mp hs <;> exact h.released i hi hraised
  | signal => obtain ⟨-, rfl⟩ := step_signal.mp hs; exact h.released i hi hraised
  | spurious => obtain rfl := step_spurious.mp hs; exact h.released i hi hraised
  | raise =>
    -- Every transfer signalled so far was placed before.
    obtain ⟨-, rfl⟩ := step_raise.mp hs
    have hlt := h.stub.known i (.inr hi)
    have hle : s.stub.dispatched.length ≤ s.placed.length := by
      rw [← h.carries, Stub.channel, Channel.sent]
      simp only [List.length_append]
      omega
    change s.placed.length ≤ i at hraised
    omega
  | collect =>
    obtain rfl := step_collect.mp hs
    have hflag : (dequeueResp s.stub.shared).2.inProgress = s.stub.shared.inProgress := by
      unfold dequeueResp
      split <;> rfl
    simpa [hflag] using h.released i hi hraised
  | stub l =>
    obtain ⟨stub, hstub, rfl⟩ := step_stub.mp hs
    cases l with
    | takeFlush =>
      obtain ⟨hpc, -, rfl⟩ := Stub.step_takeFlush.mp hstub
      simpa [hpc] using h.released i hi hraised
    | takeComplete =>
      obtain ⟨-, -, rfl⟩ := Stub.step_takeComplete.mp hstub
      exact .inr (.inl rfl)
    | dequeue locals =>
      obtain ⟨hpc, rfl⟩ := Stub.step_dequeue.mp hstub
      have hflag : (dequeueReq s.stub.shared locals).2.inProgress = s.stub.shared.inProgress := by
        unfold dequeueReq
        split <;> rfl
      simpa [hpc, hflag] using h.released i hi hraised
    | dispatch =>
      obtain ⟨req, hpc, rfl⟩ := Stub.step_dispatch.mp hstub
      rw [Stub.dispatchStep_signalled] at hi
      have hreleased := h.released i hi hraised
      rw [hpc] at hreleased
      rw [Stub.dispatchStep_completePending, Stub.dispatchStep_inProgress]
      rcases hreleased with hpending | hclear | hflag
      · exact .inl hpending
      · cases hclear
      · exact .inr (.inr hflag)
    | notifyClient =>
      obtain ⟨hpc, rfl⟩ := Stub.step_notifyClient.mp hstub
      simpa [hpc] using h.released i hi hraised
    | clear =>
      obtain ⟨-, rfl⟩ := Stub.step_clear.mp hstub
      exact .inr (.inr rfl)
    | answer origin resp =>
      obtain ⟨-, q, -, rfl⟩ := Stub.step_answer.mp hstub
      exact h.released i hi hraised
    | complete origin =>
      obtain ⟨-, rfl⟩ := Stub.step_complete.mp hstub
      exact .inl rfl

theorem Accounts.step {l : ServiceLabel} (h : s.Accounts) (hl : Orderly s l)
    (hs : s.step l = some s') : s'.Accounts where
  carries := by
    have hcarries : Carries some s := by simpa [Carries] using h.carries
    simpa [Carries] using hcarries.step (h.readsRequests some l hs) hs
  turns := turns_add_le_items_step (k := 0) h.turns hl.noSpareTurn hs
  stub := by
    cases l with
    | append req =>
      obtain ⟨-, ⟨q, -, rfl⟩ | ⟨-, rfl⟩⟩ := step_append.mp hs
      · exact { h.stub with }
      · exact h.stub
    | signal => obtain ⟨-, rfl⟩ := step_signal.mp hs; exact { h.stub with }
    | spurious => obtain rfl := step_spurious.mp hs; exact { h.stub with }
    | raise => obtain ⟨-, rfl⟩ := step_raise.mp hs; exact { h.stub with }
    | collect => obtain rfl := step_collect.mp hs; exact { h.stub with }
    | stub l =>
      obtain ⟨stub, hstub, rfl⟩ := step_stub.mp hs
      exact h.stub.step hl hstub
  released := h.released_step hs

/-- The accounts are kept along every orderly run. -/
theorem accounts_of_exec {s₀ : Service RQ SQ} {labels : List ServiceLabel} (hstart : s₀.Initial)
    (horderly : (service RQ SQ).Along Orderly s₀ labels)
    (hrun : (service RQ SQ).exec s₀ labels = some s) : s.Accounts := by
  apply Machine.along_induction (P := Service.Accounts) ?_ hstart.accounts horderly hrun
  intro t l t' ht hl hs
  exact ht.step hl hs

end Service

/-- In an orderly run, when the driver has handled all requests: every read, write and
flush has got exactly one response, a flush its own, and no other request has got any; and
if a read or write was placed since `in_progress` was last raised, it is clear. -/
theorem answered_once {s₀ s : Service RQ SQ} {labels : List ServiceLabel}
    (hstart : s₀.Initial) (horderly : (service RQ SQ).Along Orderly s₀ labels)
    (hrun : (service RQ SQ).exec s₀ labels = some s) (hhandled : s.Handled) :
    (∀ i, (s.stub.responses.map Answer.origin).count i = s.placed[i]?.elim 0 BlkReq.answers) ∧
    (∀ a ∈ s.stub.responses, ∀ req resp, s.placed[a.origin]? = some req →
      req.action = .respond resp → a.toBlkResp = resp) ∧
    ((∃ i req, s.raisedAt ≤ i ∧ s.placed[i]? = some req ∧ req.IsTransfer) →
      s.stub.shared.inProgress = false) := by
  obtain ⟨hquiet, hempty⟩ := hhandled
  have haccounts := Service.accounts_of_exec hstart horderly hrun
  have hdispatched : s.stub.dispatched = s.placed := by
    simpa [Stub.channel, Channel.sent, hempty, hquiet.pc, StubPc.hand] using haccounts.carries
  rw [← hdispatched]
  -- With nothing outstanding, the accounts say what was answered.
  refine ⟨?_, haccounts.stub.contents, ?_⟩
  · intro i
    simpa [hquiet.outstanding] using haccounts.stub.counts i
  · rintro ⟨i, req, hraised, hreq, htransfer⟩
    have hsignalled : i ∈ s.stub.signalled := by
      simpa [hquiet.outstanding, hquiet.answered] using
        haccounts.stub.underWay i req hreq htransfer
    simpa [hquiet.completePending, hquiet.pc] using haccounts.released i hsignalled hraised

/-- One request, signalled and taken up by the driver at once. -/
def takenUp (req : BlkReq) : List ServiceLabel :=
  [.append req, .signal, .stub .takeFlush, .stub (.dequeue default), .stub .dispatch]

/-- A read and a flush behind a raised flag. -/
def readAndFlush : List ServiceLabel :=
  .raise :: takenUp ⟨.readBlocks, 0x1000#64, 7#32, 1#16, 0#32⟩ ++
    [.stub (.answer 0 ⟨0#32, 0x1000#64, 1#16, 1#16, 0#32⟩), .stub (.complete 0),
      .stub .takeComplete, .stub .clear] ++
    takenUp ⟨.flush, 0x2000#64, 0#32, 3#16, 1#32⟩ ++ [.stub .notifyClient]

theorem answered_once_readAndFlush :
    ∃ s, (service _ _).exec (Service.fresh 1) readAndFlush = some s ∧
      s.placed.length = 2 ∧
      (∀ i, (s.stub.responses.map Answer.origin).count i =
        s.placed[i]?.elim 0 BlkReq.answers) ∧
      s.stub.shared.inProgress = false := by
  obtain ⟨s, hrun, hobs⟩ := Option.map_eq_some_iff.mp
    (show ((service _ _).exec (Service.fresh 1) readAndFlush).map
      (fun s => (decide s.Handled, s.raisedAt, s.placed)) =
        some (true, 0, [⟨.readBlocks, 0x1000#64, 7#32, 1#16, 0#32⟩,
          ⟨.flush, 0x2000#64, 0#32, 3#16, 1#32⟩]) by decide)
  obtain ⟨hrest, hobs⟩ := Prod.mk.inj hobs
  obtain ⟨hraised, hplaced⟩ := Prod.mk.inj hobs
  have horderly : (service _ _).Along Orderly (Service.fresh 1) readAndFlush := by decide
  obtain ⟨hcounts, -, hreleased⟩ :=
    answered_once (Service.fresh_initial 1) horderly hrun (of_decide_eq_true hrest)
  refine ⟨s, hrun, by rw [hplaced]; rfl, hcounts, hreleased ⟨0, ?_⟩⟩
  rw [hraised, hplaced]
  exact ⟨_, le_refl 0, rfl, _, rfl⟩

/-- A flush leaves `in_progress` set, an unknown code gets no response, and neither does a
flush that finds the response queue full. -/
theorem not_every_request_answered :
    (¬ ∀ (s₀ s : Service (Fifo.bounded BlkReq 1) (Fifo.bounded Answer 1))
        (labels : List ServiceLabel), s₀.Initial → (service _ _).Along Orderly s₀ labels →
        (service _ _).exec s₀ labels = some s → s.Handled →
        s.stub.shared.inProgress = false) ∧
    (¬ ∀ (s₀ s : Service (Fifo.bounded BlkReq 1) (Fifo.bounded Answer 1))
        (labels : List ServiceLabel), s₀.Initial → (service _ _).Along Orderly s₀ labels →
        (service _ _).exec s₀ labels = some s → s.Handled →
        ∀ i < s.placed.length, (s.stub.responses.map Answer.origin).count i = 1) ∧
    (¬ ∀ (s₀ s : Service (Fifo.bounded BlkReq 1) (Fifo.bounded Answer 1))
        (labels : List ServiceLabel), s₀.Initial →
        (service _ _).exec s₀ labels = some s → s.Handled →
        ∀ i req, s.placed[i]? = some req → req.code = .flush →
          (s.stub.responses.map Answer.origin).count i = 1) := by
  let flush : BlkReq := ⟨.flush, 0x2000#64, 0#32, 3#16, 1#32⟩
  refine ⟨?_, ?_, ?_⟩
  · intro h
    -- The flag is raised, and the stub works off a flush.
    let labels := .raise :: takenUp flush ++ [.stub .notifyClient]
    obtain ⟨s, hrun, hobs⟩ := Option.map_eq_some_iff.mp
      (show ((service _ _).exec (Service.fresh 1) labels).map
        (fun s => (decide s.Handled, s.stub.shared.inProgress)) = some (true, true) by decide)
    obtain ⟨hrest, hflag⟩ := Prod.mk.inj hobs
    have hclear := h _ s labels (Service.fresh_initial 1) (by decide) hrun (of_decide_eq_true hrest)
    exact absurd (hclear.symm.trans hflag) (by decide)
  · intro h
    -- A request of an unknown code gets no response.
    let labels := takenUp ⟨.other 9#32, 0x2000#64, 0#32, 3#16, 1#32⟩
    obtain ⟨s, hrun, hobs⟩ := Option.map_eq_some_iff.mp
      (show ((service _ _).exec (Service.fresh 1) labels).map
          (fun s => (decide s.Handled, s.placed.length, s.stub.responses)) =
        some (true, 1, []) by decide)
    obtain ⟨hrest, hobs⟩ := Prod.mk.inj hobs
    obtain ⟨hplaced, hresponses⟩ := Prod.mk.inj hobs
    have hone := h _ s labels (Service.fresh_initial 1) (by decide) hrun
      (of_decide_eq_true hrest) 0 (by omega)
    rw [hresponses] at hone
    cases hone
  · intro h
    -- The last of three flushes gets no response.
    let labels := takenUp flush ++ [.stub .notifyClient] ++ takenUp flush ++
      [.stub .notifyClient] ++ takenUp flush ++ [.stub .notifyClient]
    obtain ⟨s, hrun, hobs⟩ := Option.map_eq_some_iff.mp
      (show ((service _ _).exec (Service.fresh 1) labels).map
        (fun s => (decide s.Handled, s.placed, s.stub.responses.map Answer.origin)) =
          some (true, [flush, flush, flush], [0, 1]) by decide)
    obtain ⟨hrest, hobs⟩ := Prod.mk.inj hobs
    obtain ⟨hplaced, hresponses⟩ := Prod.mk.inj hobs
    have hone := h _ s labels (Service.fresh_initial 1) hrun (of_decide_eq_true hrest) 2 flush
      (by rw [hplaced]; rfl) rfl
    rw [hresponses] at hone
    exact absurd hone (by decide)

end Sel4Xhci.Umass
