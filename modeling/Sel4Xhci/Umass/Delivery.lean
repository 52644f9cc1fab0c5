import Sel4Xhci.Umass.Handshake

/-!
# From a call to the block operation it starts

A call is encoded three times on its way to the disk: as a `struct umass_request`, as an
entry of the request queue, and as a call of `read_block` or `write_block`. The entry has
no room for the device and only 16 bits for the block count, and the driver fills in
unit 0. So what the driver starts is what was asked for only as far as the call fits.

## Main definitions

* `requestedOp` — the operation a call asks for, read off the client's device table
* `Call.startedOp` — the operation the driver starts for it
* `Tracks` — the requests queued so far are those of the calls so far

## Main results

* `started_isPrefix` — in every state the operations started are those of the first calls
* `started_eq_requested_iff` — they are the requested ones exactly when every call fits
-/

set_option autoImplicit false

namespace Sel4Xhci.Umass

open Semantics

variable {RQ : Fifo BlkReq} {SQ : Fifo Answer}

/-- The block operation a call asks for on the device it names. -/
def Call.blockOp (c : Call) (dev : SelUsbDevice) : BlockOp :=
  ⟨c.read, dev.umassDev.umassId, c.blkno, c.nblks, c.val⟩

/-- The block operation a call asks for, given the device table. -/
def requestedOp (vars : ApiVars) (c : Call) : Option BlockOp :=
  (vars.device c.devId).map c.blockOp

/-- The block operation that comes out at the other end. -/
def Call.startedOp (c : Call) : BlockOp :=
  ⟨c.read, 0#32, c.blkno, (c.nblks.setWidth 16).setWidth 32, c.val⟩

/-- The call names a registered mass-storage device that is not locked. -/
def Call.Registered (c : Call) (vars : ApiVars) : Prop :=
  ∃ dev, vars.device c.devId = some dev ∧ dev.IsMassStorage ∧ dev.umassDev.locked = false

instance (c : Call) (vars : ApiVars) : Decidable (c.Registered vars) :=
  match h : vars.device c.devId with
  | none => .isFalse fun ⟨dev, hdev, _⟩ => by simp [h] at hdev
  | some dev => decidable_of_iff (dev.IsMassStorage ∧ dev.umassDev.locked = false)
      (by simp [Call.Registered, h])

/-- Nothing of the call is lost on the way: its device is the one with umass id 0, and its
block count fits a queue entry. -/
def Call.Fits (c : Call) (vars : ApiVars) : Prop :=
  (∀ dev, vars.device c.devId = some dev → dev.umassDev.umassId = 0#32) ∧ c.nblks.toNat < 2 ^ 16

instance (c : Call) (vars : ApiVars) : Decidable (c.Fits vars) :=
  match h : vars.device c.devId with
  | none => decidable_of_iff (c.nblks.toNat < 2 ^ 16) (by simp [Call.Fits, h])
  | some dev => decidable_of_iff (dev.umassDev.umassId = 0#32 ∧ c.nblks.toNat < 2 ^ 16)
      (by simp [Call.Fits, h])

/-- No two devices of the table have the same umass id. -/
def ApiVars.DistinctUnits (vars : ApiVars) : Prop :=
  ∀ i j dev dev', vars.usbDevices i = some dev → vars.usbDevices j = some dev' →
    dev.umassDev.umassId = dev'.umassDev.umassId → i = j

/-! ## One call -/

theorem Job.blockOp?_entry (j : Job) : j.entry.blockOp? = some j.call.startedOp := by
  simp [BlkReq.blockOp?, Job.entry, UmassRequest.action_toBlkReq, Job.request, Call.request,
    Call.startedOp]

/-- A block count survives the queue entry exactly when it has at most 16 bits. -/
theorem setWidth_roundTrip_iff (nblks : BitVec 32) :
    (nblks.setWidth 16).setWidth 32 = nblks ↔ nblks.toNat < 2 ^ 16 := by
  rw [← BitVec.toNat_inj, BitVec.toNat_setWidth, BitVec.toNat_setWidth]
  have hnblks := nblks.isLt
  omega

theorem requestedOp_eq_startedOp_iff {vars : ApiVars} {c : Call} (h : c.Registered vars) :
    some c.startedOp = requestedOp vars c ↔ c.Fits vars := by
  obtain ⟨dev, hdev, -, -⟩ := h
  simp only [requestedOp, hdev, Option.map_some, Option.some.injEq, Call.startedOp, Call.blockOp,
    BlockOp.mk.injEq, true_and, and_true, setWidth_roundTrip_iff, Call.Fits, forall_eq',
    eq_comm (a := 0#32)]

/-! ## The device table -/

/-- The unlocked devices of the first table are in the second one, unchanged. -/
def ApiVars.Keeps (vars₀ vars : ApiVars) : Prop :=
  ∀ id dev, vars₀.device id = some dev → dev.umassDev.locked = false → vars.device id = some dev

theorem ApiVars.Keeps.unlock {vars₀ vars : ApiVars} (h : vars₀.Keeps vars) (devId : BitVec 32) :
    vars₀.Keeps (vars.unlock devId) := by
  intro id dev hdev hunlocked
  have hkept := h id dev hdev hunlocked
  unfold ApiVars.device at hkept ⊢
  split_ifs at hkept ⊢ with hid
  -- Clearing `locked` in an unlocked device writes what is there.
  by_cases hsame : id.toNat = devId.toNat
  · have hwrite : ({ dev with umassDev := { dev.umassDev with locked := false } } :
        SelUsbDevice) = dev := by
      rw [← hunlocked]
    simp only [ApiVars.unlock, hsame, if_true]
    simp only [hsame] at hkept
    rw [hkept, Option.map_some, hwrite]
  · simp only [ApiVars.unlock, hsame, if_false, hkept]

/-- A call on a registered, unlocked mass-storage device is accepted. -/
theorem admitCall_of_registered {vars₀ vars : ApiVars} {c : Call} (h : vars₀.Keeps vars)
    (hc : c.Registered vars₀) :
    ∃ dev xfer, vars.device c.devId = some dev ∧ (admitCall vars c).1 = .accepted xfer := by
  obtain ⟨dev, hdev, hclass, hunlocked⟩ := hc
  have hkept := h _ dev hdev hunlocked
  exact ⟨dev, _, hkept, by rw [admitCall_unlocked hkept hclass hunlocked]⟩

/-! ## A run of calls -/

/-- The call that a label makes, if it makes one. -/
def SyncLabel.call? : SyncLabel → Option Call
  | .call c => some c
  | _ => none

/-- The calls of a schedule, in order. -/
def callsOf (labels : List SyncLabel) : List Call := labels.filterMap SyncLabel.call?

/-- The call under way, until its request is queued. -/
def ClientPc.unqueued : ClientPc → List Job
  | .raise j | .enqueue j => [j]
  | _ => []

/-- The accepted calls: those with a queued request and the one about to queue it. -/
def Sync.jobs (s : Sync RQ SQ) : List Job := s.placed ++ s.client.unqueued

/-- The client has accepted exactly the calls `past`, and still has the devices of the
table `vars₀`. -/
structure Tracks (vars₀ : ApiVars) (past : List Call) (s : Sync RQ SQ) : Prop where
  registry : vars₀.Keeps s.vars
  calls : s.jobs.map Job.call = past

section Steps

variable {s s' : Sync RQ SQ} {ph : Phase} {vars₀ : ApiVars} {past : List Call}

theorem Tracks.callStep {c : Call} (h : Tracks vars₀ past s) (hc : c.Registered vars₀)
    (hs : s.callStep c = some s') : Tracks vars₀ (past ++ [c]) s' := by
  obtain ⟨dev, xfer, hdev, haccepted⟩ := admitCall_of_registered h.registry hc
  unfold Sync.callStep at hs
  split_ifs at hs with hidle
  have hadmitted : admitCall s.vars c = (.accepted xfer, (admitCall s.vars c).2) := by
    rw [← haccepted]
  rw [hdev, hadmitted] at hs
  obtain rfl := Option.some.inj hs
  refine ⟨?_, ?_⟩
  · intro id dev' hdev' hunlocked
    rw [admitCall_device]
    exact h.registry id dev' hdev' hunlocked
  · have hcalls := h.calls
    simp only [Sync.jobs, hidle, ClientPc.unqueued, List.append_nil] at hcalls
    simp [Sync.jobs, ClientPc.unqueued, hcalls]

theorem Tracks.clientStep (hphase : InPhase s ph) (h : Tracks vars₀ past s)
    (hs : s.clientStep = some s') : Tracks vars₀ past s' := by
  obtain ⟨done, j, a, hphase⟩ := hphase
  have hcalls := h.calls
  cases hclient : s.client with
  | idle => simp [Sync.clientStep, hclient] at hs
  | enqueue j' =>
    -- No request is waiting, so the queue takes this one.
    have hqueue : RQ.items s.stub.shared.reqQueue = [] := by
      rw [hphase.reqQueue]
      have hph := hphase.client.symm.trans hclient
      cases ph <;> simp [Phase.client, Phase.queued] at hph ⊢
    obtain ⟨q, hq⟩ := Option.isSome_iff_exists.mp (RQ.accepts_of_empty (a := j'.entry) hqueue)
    simp only [Sync.clientStep, hclient, hq, Option.some.injEq] at hs
    subst hs
    exact ⟨h.registry, by simpa [Sync.jobs, hclient, ClientPc.unqueued] using hcalls⟩
  | poll j' k =>
    simp only [Sync.clientStep, hclient] at hs
    split_ifs at hs
    · obtain rfl := Option.some.inj hs
      exact h
    · obtain rfl := Option.some.inj hs
      exact ⟨h.registry, by simpa [Sync.jobs, hclient, ClientPc.unqueued] using hcalls⟩
  | unlock j' k response =>
    simp only [Sync.clientStep, hclient, Option.some.injEq] at hs
    subst hs
    exact ⟨h.registry.unlock _, by simpa [Sync.jobs, hclient, ClientPc.unqueued] using hcalls⟩
  | raise _ | notify _ _ | collect _ _ =>
    -- The other accesses touch neither the requests nor the table.
    simp only [Sync.clientStep, hclient, Option.some.injEq] at hs
    subst hs
    exact ⟨h.registry, by simpa [Sync.jobs, hclient, ClientPc.unqueued] using hcalls⟩

theorem Tracks.step {l : SyncLabel} (hphase : InPhase s ph) (h : Tracks vars₀ past s)
    (hcall : ∀ c, l.call? = some c → c.Registered vars₀) (hs : s.step l = some s') :
    Tracks vars₀ (past ++ l.call?.toList) s' := by
  cases l with
  | call c => exact h.callStep (hcall c rfl) hs
  | client => simpa [SyncLabel.call?] using h.clientStep hphase hs
  | stub l =>
    obtain ⟨stub, -, rfl⟩ := Option.map_eq_some_iff.mp hs
    have htracks : Tracks vars₀ past { s with stub := stub } := ⟨h.registry, h.calls⟩
    simpa [SyncLabel.call?] using htracks

end Steps

/-- The requests of a run are those of its calls. -/
theorem Tracks.exec {s s' : Sync RQ SQ} {ph : Phase} {vars₀ : ApiVars} {past : List Call}
    {labels : List SyncLabel} (hphase : InPhase s ph) (h : Tracks vars₀ past s)
    (hcalls : ∀ c ∈ callsOf labels, c.Registered vars₀)
    (hrun : (sync RQ SQ).exec s labels = some s') : Tracks vars₀ (past ++ callsOf labels) s' := by
  induction labels generalizing s ph past with
  | nil =>
    obtain rfl := Option.some.inj hrun
    simpa [callsOf] using h
  | cons l labels ih =>
    obtain ⟨mid, hmid, hrest⟩ := Machine.exec_cons_eq_some.mp hrun
    have hsplit : callsOf (l :: labels) = l.call?.toList ++ callsOf labels := by
      cases l <;> rfl
    rw [hsplit] at hcalls ⊢
    have hhead : ∀ c, l.call? = some c → c.Registered vars₀ := fun c hc =>
      hcalls c (List.mem_append_left _ (by simp [hc]))
    obtain ⟨-, ph', -, hphase'⟩ := sync_simulates.step s ph l mid hphase hmid
    rw [← List.append_assoc]
    exact ih hphase' (h.step hphase hhead hmid)
      (fun c hc => hcalls c (List.mem_append_right _ hc)) hrest

/-- The client starts no block operation itself. -/
theorem Sync.started_step {s s' : Sync RQ SQ} {l : SyncLabel}
    (h : s.stub.started = s.stub.dispatched.filterMap BlkReq.blockOp?) (hs : s.step l = some s') :
    s'.stub.started = s'.stub.dispatched.filterMap BlkReq.blockOp? := by
  cases l with
  | call c =>
    simp only [Sync.step, Sync.callStep] at hs
    split_ifs at hs
    split at hs <;> cases hs <;> exact h
  | client =>
    simp only [Sync.step, Sync.clientStep] at hs
    split at hs
    case h_3 => split at hs <;> cases hs <;> exact h
    case h_5 => split_ifs at hs <;> cases hs <;> exact h
    all_goals cases hs
    all_goals exact h
  | stub l =>
    obtain ⟨stub, hstub, rfl⟩ := Option.map_eq_some_iff.mp hs
    exact Stub.started_step h hstub

/-- The requests dispatched are the first of those placed; between calls they are all. -/
theorem InPhase.dispatched_isPrefix {s : Sync RQ SQ} {ph : Phase} (h : InPhase s ph) :
    s.stub.dispatched <+: s.jobs.map Job.entry ∧
      (s.client = .idle → s.stub.dispatched = s.jobs.map Job.entry) := by
  obtain ⟨done, j, a, h⟩ := h
  have hclient := h.client
  rw [h.dispatched, Sync.jobs, h.placed]
  constructor
  · cases ph <;> simp [Phase.dispatched, Phase.placed, List.map_append]
  · intro hidle
    rw [hclient] at hidle
    cases ph <;> simp [Phase.client] at hidle
    simp [Phase.dispatched, Phase.placed, hclient, Phase.client, ClientPc.unqueued]

section Runs

variable {s₀ s : Sync RQ SQ} {labels : List SyncLabel}

theorem started_of_exec (hstart : s₀.Initial) (hrun : (sync RQ SQ).exec s₀ labels = some s) :
    s.stub.started = s.stub.dispatched.filterMap BlkReq.blockOp? := by
  apply Machine.exec_induction
    (P := fun t : Sync RQ SQ => t.stub.started = t.stub.dispatched.filterMap BlkReq.blockOp?)
    ?_ ?_ hrun
  · intro t l t' ht hs
    exact Sync.started_step ht hs
  · rw [hstart.started, hstart.dispatched, List.filterMap_nil]

/-- In every reachable state the operations started are, in order, those of the first
calls; between calls they are those of all calls. -/
theorem started_isPrefix (hstart : s₀.Initial) (hrun : (sync RQ SQ).exec s₀ labels = some s)
    (hcalls : ∀ c ∈ callsOf labels, c.Registered s₀.vars) :
    s.stub.started <+: (callsOf labels).map Call.startedOp ∧
      (s.client = .idle → s.stub.started = (callsOf labels).map Call.startedOp) := by
  have htracks : Tracks s₀.vars ([] ++ callsOf labels) s := by
    refine Tracks.exec hstart.inPhase ⟨fun _ _ hdev _ => hdev, ?_⟩ hcalls hrun
    simp [Sync.jobs, hstart.placed, hstart.client, ClientPc.unqueued]
  have hstarted := started_of_exec hstart hrun
  have hjobs : (s.jobs.map Job.entry).filterMap BlkReq.blockOp? =
      (callsOf labels).map Call.startedOp := by
    rw [← List.nil_append (callsOf labels), ← htracks.calls, List.map_map, List.filterMap_map,
      ← List.filterMap_eq_map]
    congr 1
    funext j
    exact j.blockOp?_entry
  -- The phase tells how far the dispatch is behind the calls.
  obtain ⟨ph, hphase⟩ := inPhase_of_exec hstart hrun
  obtain ⟨hinitial, hall⟩ := hphase.dispatched_isPrefix
  rw [hstarted, ← hjobs]
  exact ⟨hinitial.filterMap _, fun hidle => by rw [hall hidle]⟩

/-- When all calls of a run have returned, the driver has started the operations they
asked for exactly when every call fits. -/
theorem started_eq_requested_iff (hstart : s₀.Initial)
    (hrun : (sync RQ SQ).exec s₀ labels = some s) (hidle : s.client = .idle)
    (hcalls : ∀ c ∈ callsOf labels, c.Registered s₀.vars) :
    s.stub.started.map some = (callsOf labels).map (requestedOp s₀.vars) ↔
      ∀ c ∈ callsOf labels, c.Fits s₀.vars := by
  rw [(started_isPrefix hstart hrun hcalls).2 hidle, List.map_map, List.map_inj_left]
  constructor
  · intro h c hc
    exact (requestedOp_eq_startedOp_iff (hcalls c hc)).mp (h c hc)
  · intro h c hc
    exact (requestedOp_eq_startedOp_iff (hcalls c hc)).mpr (h c hc)

end Runs

theorem started_eq_requested_two_reads :
    ∃ s, (sync _ _).exec (Sync.fresh oneDrive 0) twoReads = some s ∧
      s.stub.started.map some = (callsOf twoReads).map (requestedOp oneDrive) := by
  obtain ⟨s, hrun, hidle⟩ := Option.map_eq_some_iff.mp
    (show ((sync _ _).exec (Sync.fresh oneDrive 0) twoReads).map Sync.client = some .idle by decide)
  have hcalls : ∀ c ∈ callsOf twoReads, c.Registered oneDrive := by decide
  have hfits : ∀ c ∈ callsOf twoReads, c.Fits oneDrive := by decide
  exact ⟨s, hrun,
    (started_eq_requested_iff (Sync.fresh_initial oneDrive 0) hrun hidle hcalls).mpr hfits⟩

/-- A fresh client of two drives, with umass ids 0 and 1. -/
def twoDrives : ApiVars :=
  .fresh fun i =>
    if i.val = 1 then some (drive 1#32 0#32)
    else if i.val = 2 then some (drive 2#32 1#32)
    else none

theorem twoDrives_distinctUnits : twoDrives.DistinctUnits := by
  intro i j dev dev' hi hj hunit
  simp only [twoDrives, ApiVars.fresh] at hi hj
  split_ifs at hi hj with hi₁ hj₁ hj₂ hi₂ hj₁ hj₂ <;> cases hi <;> cases hj
  · exact Fin.ext (hi₁.trans hj₁.symm)
  · cases hunit
  · cases hunit
  · exact Fin.ext (hi₂.trans hj₂.symm)

/-- A read of the second drive goes to unit 0, which is the first one. -/
theorem read_of_second_drive_misdirected :
    ¬ ∀ (s₀ s : Sync (Fifo.bounded BlkReq 0) (Fifo.bounded Answer 0)) (labels : List SyncLabel),
      s₀.Initial → (sync _ _).exec s₀ labels = some s → s.client = .idle →
      s₀.vars.DistinctUnits →
      (∀ c ∈ callsOf labels, c.Registered s₀.vars ∧ 0 ≤ c.blkno.toInt ∧ 1 ≤ c.nblks.toInt) →
      s.stub.started.map some = (callsOf labels).map (requestedOp s₀.vars) := by
  intro h
  let labels := servedCall ⟨2#32, true, 7#32, 1#32, 0x1000#64, 0#64⟩ 0
    ⟨0#32, 0x1000#64, 1#16, 1#16, 0#32⟩
  obtain ⟨s, hrun, hobs⟩ := Option.map_eq_some_iff.mp
    (show ((sync _ _).exec (Sync.fresh twoDrives 0) labels).map
      (fun s => (s.client, s.stub.started)) =
        some (.idle, [⟨true, 0#32, 7#32, 1#32, 0x1000#64⟩]) by decide)
  obtain ⟨hidle, hstarted⟩ := Prod.mk.inj hobs
  have hrequested := h _ s labels (Sync.fresh_initial twoDrives 0) hrun hidle
    twoDrives_distinctUnits (by decide)
  rw [hstarted] at hrequested
  exact absurd hrequested (by decide)

end Sel4Xhci.Umass
