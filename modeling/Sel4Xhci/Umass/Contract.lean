import Sel4Xhci.Umass.Api

/-!
# What the API header promises of a call

`xhci_api.h` documents two things about `enqueue_umass_request` beyond the transfer
itself: it returns the transaction id of the request, and it calls `cb` on completion.
Both are stated here on the records of a sequence of calls, for any behaviour of the rest
of the system while each of them polls.

## Main definitions

* `api` — the client as a machine on calls
* `callRecords` — what each call of a sequence did
* `IdsIdentify` — returned values are the ids of the requests placed, and distinct
* `CallRecord.CallbackOnce` — one completion callback for each accepted request

## Main results

* `forall_callRecords_iff` — a property of every record is a property of every step
* `ids_identify_iff`, `callback_once_iff` — when the two promises are kept
-/

set_option autoImplicit false

namespace Sel4Xhci.Umass

open Semantics

variable {RQ : Fifo BlkReq} {SQ : Fifo Answer}

/-- What one call did: how it went on after its checks, how it ended, what others saw. -/
structure CallRecord where
  call : Call
  admission : Admission
  exit : Exit
  events : List ApiEvent

/-- The record of a call made in state `s`. -/
def callRecord (s : ApiState RQ SQ) (e : Episode RQ SQ) : CallRecord where
  call := e.call
  admission := (admitCall s.vars e.call).1
  exit := (enqueueUmassRequest e.serve s e.call).1
  events := (enqueueUmassRequest e.serve s e.call).2.1

/-- The client as a machine on calls. A call that faults or polls for ever is the last. -/
def api (RQ : Fifo BlkReq) (SQ : Fifo Answer) : Machine (ApiState RQ SQ) (Episode RQ SQ) where
  start s := s.vars.currentXfer = -1#32
  step s e :=
    match enqueueUmassRequest e.serve s e.call with
    | (.returns _, _, s') => some s'
    | _ => none

/-- The records of a sequence of calls, up to the first that does not return. -/
def callRecords : ApiState RQ SQ → List (Episode RQ SQ) → List CallRecord
  | _, [] => []
  | s, e :: es =>
    callRecord s e :: match (api RQ SQ).step s e with
      | some s' => callRecords s' es
      | none => []

/-- What holds of every record holds of every step, and conversely. -/
theorem forall_callRecords_iff {P : CallRecord → Prop} {s : ApiState RQ SQ}
    {episodes : List (Episode RQ SQ)} :
    (∀ r ∈ callRecords s episodes, P r) ↔
      (api RQ SQ).Along (fun s e => P (callRecord s e)) s episodes := by
  induction episodes generalizing s with
  | nil => simp [callRecords]
  | cons e es ih =>
    rw [callRecords, List.forall_mem_cons, Machine.along_cons]
    cases hstep : (api RQ SQ).step s e with
    | none => simp
    | some s' => simp [ih]

/-! ## Transaction ids -/

/-- The request that a call placed, if the event is one. -/
def ApiEvent.request? : ApiEvent → Option BlkReq
  | .enqueueReq req => some req
  | _ => none

/-- The requests a call placed on the queue. -/
def CallRecord.requests (r : CallRecord) : List BlkReq := r.events.filterMap ApiEvent.request?

/-- A value other than -1 that a call returned. -/
def CallRecord.Id (r : CallRecord) (v : BitVec 32) : Prop := r.exit = .returns v ∧ v ≠ -1#32

/-- Every id is that of the one request its call placed, and no two calls got the same. -/
structure IdsIdentify (records : List CallRecord) : Prop where
  placed : ∀ r ∈ records, ∀ v, r.Id v → ∃ req, r.requests = [req] ∧ req.id = v
  distinct : records.Pairwise fun r r' => ∀ v, r.Id v → ¬ r'.Id v

/-- The call names a registered mass-storage device. -/
def Call.NamesMassStorage (c : Call) (vars : ApiVars) : Prop :=
  ∃ dev, vars.device c.devId = some dev ∧ dev.IsMassStorage

instance (c : Call) (vars : ApiVars) : Decidable (c.NamesMassStorage vars) :=
  match h : vars.device c.devId with
  | none => .isFalse fun ⟨dev, hdev, _⟩ => by simp [h] at hdev
  | some dev => decidable_of_iff dev.IsMassStorage (by simp [Call.NamesMassStorage, h])

/-- The call is accepted and its request is never served. -/
def Episode.NeverServed (e : Episode RQ SQ) (s : ApiState RQ SQ) : Prop :=
  ∃ xfer vars, admitCall s.vars e.call = (.accepted xfer, vars) ∧ e.serve (s.polling xfer) = none

section Ids

variable {s : ApiState RQ SQ} {e : Episode RQ SQ}

theorem requests_executeNext (sh : Shared RQ SQ) (xfer : UmassRequest) {req : BlkReq}
    (h : req ∈ (executeNext sh xfer).1.filterMap ApiEvent.request?) : req = xfer.toBlkReq := by
  unfold executeNext at h
  split at h
  · simpa [ApiEvent.request?] using h
  · simp [ApiEvent.request?] at h

/-- The first call on a mass-storage device, if it returns, returns what is not the id of a
request it placed. -/
theorem not_ids_of_first {records : List CallRecord} (hfresh : s.vars.currentXfer = -1#32)
    (hclass : e.call.NamesMassStorage s.vars) (hserved : ¬ e.NeverServed s) :
    ¬ IdsIdentify (callRecord s e :: records) := by
  intro hids
  have hplaced := hids.placed _ List.mem_cons_self
  obtain ⟨dev, hdev, hmass⟩ := hclass
  cases hlocked : dev.umassDev.locked with
  | true =>
    -- A locked device: the id is returned and nothing was placed.
    have hadmitted := admitCall_locked hdev hmass hlocked
    have hcall : enqueueUmassRequest e.serve s e.call = _ := enqueueUmassRequest_busy hadmitted
    obtain ⟨req, hreq, -⟩ := hplaced (s.vars.currentXfer + 1#32)
      ⟨by simp [callRecord, hcall, Call.request], by simp [hfresh]⟩
    simp only [CallRecord.requests, callRecord, hcall] at hreq
    have hnothing : ([] : List BlkReq) = [req] := hreq
    cases hnothing
  | false =>
    -- An unlocked one: 1 is returned and the request has id 0.
    have hadmitted := admitCall_unlocked hdev hmass hlocked
    cases hserve : e.serve (s.polling (e.call.request dev (s.vars.currentXfer + 1#32))) with
    | none => exact hserved ⟨_, _, hadmitted, hserve⟩
    | some sh =>
      have hcall := enqueueUmassRequest_served hadmitted hserve
      obtain ⟨req, hreq, hid⟩ := hplaced 1#32 ⟨by simp [callRecord, hcall], by decide⟩
      have hmem : req ∈ (executeNext { s.shared with inProgress := true }
          (e.call.request dev (s.vars.currentXfer + 1#32))).1.filterMap ApiEvent.request? := by
        have hone : req ∈ (callRecord s e).requests := by simp [hreq]
        simpa [CallRecord.requests, callRecord, hcall, ApiEvent.request?] using hone
      rw [requests_executeNext _ _ hmem] at hid
      simp [UmassRequest.toBlkReq, Call.request, hfresh] at hid

/-- A call that never returns got no id. -/
theorem not_id_of_neverServed (h : e.NeverServed s) :
    (api RQ SQ).step s e = none ∧ ∀ v, ¬ (callRecord s e).Id v := by
  obtain ⟨xfer, vars, hadmitted, hserve⟩ := h
  have hcall := enqueueUmassRequest_spins hadmitted hserve
  constructor
  · simp [api, hcall]
  · rintro v ⟨hreturns, -⟩
    simp [callRecord, hcall] at hreturns

/-- A call on a registered device of another class gets -1 and changes nothing. -/
theorem not_id_of_otherClass (hregistered : (s.vars.device e.call.devId).isSome)
    (hclass : ¬ e.call.NamesMassStorage s.vars) :
    (api RQ SQ).step s e = some s ∧ ∀ v, ¬ (callRecord s e).Id v := by
  obtain ⟨dev, hdev⟩ := Option.isSome_iff_exists.mp hregistered
  have hother : ¬ dev.IsMassStorage := fun hmass => hclass ⟨dev, hdev, hmass⟩
  have hadmitted := admitCall_notMassStorage hdev hother
  have hcall : enqueueUmassRequest e.serve s e.call = _ :=
    enqueueUmassRequest_notMassStorage hadmitted
  constructor
  · simp [api, hcall]
  · rintro v ⟨hreturns, hv⟩
    simp only [callRecord, hcall, Exit.returns.injEq] at hreturns
    exact hv hreturns.symm

/-- A record without an id does not matter. -/
theorem idsIdentify_cons_iff {r : CallRecord} {records : List CallRecord}
    (h : ∀ v, ¬ r.Id v) : IdsIdentify (r :: records) ↔ IdsIdentify records := by
  constructor
  · intro hids
    have hplaced := (List.forall_mem_cons.mp hids.placed).2
    exact ⟨hplaced, (List.pairwise_cons.mp hids.distinct).2⟩
  · intro hids
    have hplaced : ∀ v, r.Id v → ∃ req, r.requests = [req] ∧ req.id = v :=
      fun v hid => absurd hid (h v)
    have hdistinct : ∀ r' ∈ records, ∀ v, r.Id v → ¬ r'.Id v :=
      fun _ _ v hid => absurd hid (h v)
    exact ⟨List.forall_mem_cons.mpr ⟨hplaced, hids.placed⟩,
      List.pairwise_cons.mpr ⟨hdistinct, hids.distinct⟩⟩

/-- From a fresh client, over registered devices in any state: returned values identify
requests exactly when the first call on a mass-storage device, if there is one, never
returns. -/
theorem ids_identify_iff {episodes : List (Episode RQ SQ)} (hfresh : s.vars.currentXfer = -1#32)
    (hregistered : ∀ e ∈ episodes, (s.vars.device e.call.devId).isSome) :
    IdsIdentify (callRecords s episodes) ↔
      ∀ e, episodes.find? (fun e => decide (e.call.NamesMassStorage s.vars)) = some e →
        e.NeverServed s := by
  have hempty : IdsIdentify [] := ⟨by simp, .nil⟩
  induction episodes with
  | nil => simpa [callRecords] using hempty
  | cons e es ih =>
    -- Only the first call on a drive decides: ids are given out from there on.
    by_cases hclass : e.call.NamesMassStorage s.vars
    · have hfind : (e :: es).find? (fun e => decide (e.call.NamesMassStorage s.vars)) = some e := by
        simp [hclass]
      simp only [hfind, Option.some.injEq, forall_eq']
      constructor
      · intro hids
        by_contra hserved
        exact not_ids_of_first hfresh hclass hserved hids
      · intro hnever
        obtain ⟨hstep, hexit⟩ := not_id_of_neverServed hnever
        rw [callRecords, hstep, idsIdentify_cons_iff hexit]
        exact hempty
    · -- A call on another device changes nothing, so the next one meets a fresh client.
      have hregisteredHead := hregistered e List.mem_cons_self
      have hregisteredTail : ∀ e ∈ es, (s.vars.device e.call.devId).isSome :=
        fun e he => hregistered e (List.mem_cons_of_mem _ he)
      obtain ⟨hstep, hexit⟩ := not_id_of_otherClass hregisteredHead hclass
      have hfind : (e :: es).find? (fun e => decide (e.call.NamesMassStorage s.vars)) =
          es.find? (fun e => decide (e.call.NamesMassStorage s.vars)) := by
        simp [hclass]
      rw [callRecords, hstep, hfind, idsIdentify_cons_iff hexit]
      exact ih hregisteredTail

end Ids

/-- A fresh client of a keyboard, with id 3, and a drive, with id 5. -/
def keyboardAndDrive : ApiVars :=
  .fresh fun i =>
    if i.val = 3 then some ⟨3#32, 0#32, 0x3#32, ⟨0#32, false⟩⟩
    else if i.val = 5 then some (drive 5#32 0#32)
    else none

/-- A request to the keyboard. -/
def keyboardCall : Call := ⟨3#32, true, 7#32, 1#32, 0x1000#64, 0#64⟩

theorem ids_identify_keyboard :
    IdsIdentify (callRecords (ApiState.fresh keyboardAndDrive 0)
      [⟨keyboardCall, promptServe 0⟩]) := by
  refine (ids_identify_iff rfl ?_).mpr ?_
  · intro e he
    obtain rfl := List.mem_singleton.mp he
    decide
  · intro e he
    obtain rfl := List.mem_singleton.mp (List.mem_of_find?_eq_some he)
    have hkeyboard : ¬ keyboardCall.NamesMassStorage keyboardAndDrive := by decide
    have hfound := List.find?_some he
    exact absurd (of_decide_eq_true hfound) hkeyboard

/-- The first read of a drive returns 1, but its request carries id 0. -/
theorem first_read_returns_wrong_id :
    ¬ ∀ (s : ApiState (Fifo.bounded BlkReq 0) (Fifo.bounded Answer 0))
      (episodes : List (Episode _ _)),
      s.vars.currentXfer = -1#32 → (∀ e ∈ episodes, (s.vars.device e.call.devId).isSome) →
      episodes.length < 2 ^ 31 → IdsIdentify (callRecords s episodes) := by
  intro h
  let e : Episode (Fifo.bounded BlkReq 0) (Fifo.bounded Answer 0) :=
    ⟨⟨5#32, true, 7#32, 1#32, 0x1000#64, 0#64⟩, promptServe 0⟩
  let s := ApiState.fresh oneDrive 0
  have hregistered : ∀ e' ∈ [e], (s.vars.device e'.call.devId).isSome := by
    intro e' he
    obtain rfl := List.mem_singleton.mp he
    decide
  have hids := h s [e] rfl hregistered (by simp)
  have hexit : (callRecord s e).Id 1#32 := by
    constructor
    · rfl
    · decide
  obtain ⟨req, hreq, hid⟩ := hids.placed _ List.mem_cons_self 1#32 hexit
  have hplaced : (callRecord s e).requests =
      [⟨.readBlocks, 0x1000#64, 7#32, 1#16, 0#32⟩] := by decide
  rw [hplaced] at hreq
  obtain rfl := List.singleton_inj.mp hreq
  cases hid

/-! ## Callbacks -/

/-- The event is a callback. -/
def ApiEvent.isCallback : ApiEvent → Bool
  | .callback _ _ => true
  | _ => false

/-- The callbacks a call made, in order. -/
def CallRecord.callbacks (r : CallRecord) : List ApiEvent := r.events.filter ApiEvent.isCallback

/-- The callback discipline: by the time an accepted call returns, its callback, if it has
one, was invoked once with the completed request; never before `in_progress` was seen
clear; and never by any other call. -/
structure CallRecord.CallbackOnce (r : CallRecord) : Prop where
  once : ∀ xfer v, r.admission = .accepted xfer → r.exit = .returns v →
    r.callbacks = if xfer.cb = 0#64 then []
      else [.callback xfer.cb { xfer with complete := true }]
  rejected : (∀ xfer, r.admission ≠ .accepted xfer) → r.callbacks = []
  afterRelease : ∀ before rest, r.events = before ++ rest → .released ∉ before →
    ∀ e ∈ before, e.isCallback = false

/-- The call has no callback to make: it is rejected, or never served, or `cb` is null. -/
def Episode.OwesNoCallback (s : ApiState RQ SQ) (e : Episode RQ SQ) : Prop :=
  ∀ xfer vars, admitCall s.vars e.call = (.accepted xfer, vars) →
    (e.serve (s.polling xfer)).isSome → e.call.cb = 0#64

section Callbacks

variable {s : ApiState RQ SQ}

/-- No statement of the API invokes a callback. -/
theorem not_isCallback {serve : Serve RQ SQ} {c : Call} {ev : ApiEvent}
    (hev : ev ∈ (enqueueUmassRequest serve s c).2.1) : ev.isCallback = false := by
  have hexecute : ∀ (sh : Shared RQ SQ) (xfer : UmassRequest), ∀ ev ∈ (executeNext sh xfer).1,
      ev.isCallback = false := by
    intro sh xfer ev hev
    -- It notifies the driver whether or not the queue took the request.
    unfold executeNext at hev
    split at hev <;> simp at hev
    · rcases hev with rfl | rfl <;> rfl
    · rw [hev]; rfl
  rcases hadmitted : admitCall s.vars c with ⟨admission, vars⟩
  cases admission with
  | fault =>
    rw [enqueueUmassRequest_fault hadmitted] at hev
    cases hev
  | notMassStorage =>
    rw [enqueueUmassRequest_notMassStorage hadmitted] at hev
    obtain rfl := List.mem_singleton.mp hev
    rfl
  | busy xfer =>
    rw [enqueueUmassRequest_busy hadmitted] at hev
    obtain rfl := List.mem_singleton.mp hev
    rfl
  | accepted xfer =>
    cases hserve : serve (s.polling xfer) with
    | none =>
      rw [enqueueUmassRequest_spins hadmitted hserve] at hev
      exact hexecute _ _ ev hev
    | some sh =>
      rw [enqueueUmassRequest_served hadmitted hserve] at hev
      rcases List.mem_append.mp hev with hev | hev
      · exact hexecute _ _ ev hev
      · simp only [List.mem_cons, List.not_mem_nil, or_false] at hev
        rcases hev with rfl | rfl <;> rfl

variable {e : Episode RQ SQ}

theorem callbacks_callRecord : (callRecord s e).callbacks = [] := by
  apply List.filter_eq_nil_iff.mpr
  intro ev hev
  rw [not_isCallback hev]
  decide

/-- One call keeps the discipline exactly when it owes no callback. -/
theorem callbackOnce_callRecord_iff : (callRecord s e).CallbackOnce ↔ e.OwesNoCallback s := by
  constructor
  · intro h xfer vars hadmitted hserve
    obtain ⟨sh, hsh⟩ := Option.isSome_iff_exists.mp hserve
    have hcall := enqueueUmassRequest_served hadmitted hsh
    have honce := h.once xfer 1#32 (by simp [callRecord, hadmitted]) (by simp [callRecord, hcall])
    rw [callbacks_callRecord] at honce
    split_ifs at honce with hcb
    obtain ⟨dev, -, -, -, rfl⟩ := admitCall_accepted hadmitted
    exact hcb
  · intro h
    refine ⟨?_, fun _ => callbacks_callRecord, ?_⟩
    · intro xfer v haccepted hreturns
      have hadmitted : admitCall s.vars e.call = (.accepted xfer, (admitCall s.vars e.call).2) := by
        rw [← show (admitCall s.vars e.call).1 = .accepted xfer from haccepted]
      -- A call that returned was served.
      have hserve : (e.serve (s.polling xfer)).isSome := by
        cases hsh : e.serve (s.polling xfer) with
        | none =>
          have hcall := enqueueUmassRequest_spins hadmitted hsh
          simp [callRecord, hcall] at hreturns
        | some sh => rfl
      obtain ⟨dev, -, -, -, hxfer⟩ := admitCall_accepted hadmitted
      have hcb : xfer.cb = 0#64 := by
        rw [hxfer]
        exact h xfer _ hadmitted hserve
      rw [callbacks_callRecord, if_pos hcb]
    · intro before rest hevents _ ev hev
      have hevent : ev ∈ (callRecord s e).events := by
        rw [hevents]
        exact List.mem_append_left _ hev
      exact not_isCallback hevent

/-- For every sequence of calls, from any state: every call keeps the callback discipline
exactly when no call that is accepted and served has a callback. -/
theorem callback_once_iff {episodes : List (Episode RQ SQ)} :
    (∀ r ∈ callRecords s episodes, r.CallbackOnce) ↔
      (api RQ SQ).Along (fun s e => e.OwesNoCallback s) s episodes := by
  rw [forall_callRecords_iff]
  exact Machine.along_congr (fun _ _ => callbackOnce_callRecord_iff) s episodes

end Callbacks

/-- A served read with a callback: the callback is not invoked. -/
theorem callback_of_read_not_invoked :
    ¬ ∀ (s : ApiState (Fifo.bounded BlkReq 0) (Fifo.bounded Answer 0))
      (episodes : List (Episode _ _)), ∀ r ∈ callRecords s episodes, r.CallbackOnce := by
  intro h
  let e : Episode (Fifo.bounded BlkReq 0) (Fifo.bounded Answer 0) :=
    ⟨⟨5#32, true, 7#32, 1#32, 0x1000#64, 0x20000#64⟩, promptServe 0⟩
  let s := ApiState.fresh oneDrive 0
  have hdiscipline := h s [e] _ List.mem_cons_self
  have honce := hdiscipline.once (e.call.request (drive 5#32 0#32) 0#32) 1#32 (by decide)
    (by decide)
  have hnone : (callRecord s e).callbacks = [] := by decide
  rw [hnone] at honce
  exact absurd honce (by decide)

end Sel4Xhci.Umass
