import Sel4Xhci.Umass.Request

/-!
# The mass-storage client API

`enqueue_umass_request` and `execute_next` of `xhci_api.c`, over the client's own
variables and the memory it shares with the driver. The polling loop hands the shared
memory to the rest of the system: `serve` says what the client finds when
`in_progress` is clear again, `none` when that never happens.

A call also leaves a trail of the effects other parties can see. The API as it stands
has no statement that invokes a callback, so no trail contains `ApiEvent.callback`.

## Main definitions

* `admitCall` — the part of `enqueue_umass_request` before the first shared access
* `executeNext`, `enqueueUmassRequest` — the code

## Main results

* `admitCall_cases` — the four ways through the checks
-/

set_option autoImplicit false

namespace Sel4Xhci.Umass

open Semantics

/-- `struct sel4_umass_device`, as far as a request uses it. -/
structure SelUmassDevice where
  umassId : BitVec 32
  locked : Bool
  deriving DecidableEq, Repr, Inhabited

/-- `struct sel4_usb_device`, as far as a request uses it. -/
structure SelUsbDevice where
  id : BitVec 32
  devClass : BitVec 32
  ifaceClass : BitVec 32
  umassDev : SelUmassDevice
  deriving DecidableEq, Repr, Inhabited

/-- The class test that guards every mass-storage function. -/
def SelUsbDevice.IsMassStorage (dev : SelUsbDevice) : Prop :=
  dev.devClass = 0#32 ∧ dev.ifaceClass = 0x8#32

instance (dev : SelUsbDevice) : Decidable dev.IsMassStorage :=
  inferInstanceAs (Decidable (_ ∧ _))

/-- `MAX_DEVICES`: the length of the device table. -/
abbrev MAX_DEVICES : ℕ := 127

/-- The variables of the client's own protection domain. -/
structure ApiVars where
  usbDevices : Fin MAX_DEVICES → Option SelUsbDevice
  currentXfer : BitVec 32

/-- The device that `usb_devices[id]` points to; `none` when `id` is out of range or the
slot is null, where the dereference faults. -/
def ApiVars.device (vars : ApiVars) (id : BitVec 32) : Option SelUsbDevice :=
  if h : id.toNat < MAX_DEVICES then vars.usbDevices ⟨id.toNat, h⟩ else none

/-- `usb_devices[id]->umass_dev->locked = false`. -/
def ApiVars.unlock (vars : ApiVars) (id : BitVec 32) : ApiVars where
  usbDevices i := if i.val = id.toNat
    then (vars.usbDevices i).map fun dev =>
      { dev with umassDev := { dev.umassDev with locked := false } }
    else vars.usbDevices i
  currentXfer := vars.currentXfer

/-- A mass-storage drive that nothing has locked. -/
def drive (id umassId : BitVec 32) : SelUsbDevice := ⟨id, 0#32, 0x8#32, ⟨umassId, false⟩⟩

/-- The variables of a client that has made no request yet. -/
def ApiVars.fresh (usbDevices : Fin MAX_DEVICES → Option SelUsbDevice) : ApiVars :=
  ⟨usbDevices, -1#32⟩

/-- A fresh client of a single drive with id 5. -/
def oneDrive : ApiVars :=
  .fresh fun i => if i.val = 5 then some (drive 5#32 0#32) else none

/-- The arguments of one `enqueue_umass_request`. -/
structure Call where
  devId : BitVec 32
  read : Bool
  blkno : BitVec 32
  nblks : BitVec 32
  val : BitVec 64
  cb : BitVec 64
  deriving DecidableEq, Repr, Inhabited

/-- The request that a call on `dev` allocates and fills in. -/
def Call.request (c : Call) (dev : SelUsbDevice) (xferId : BitVec 32) : UmassRequest where
  devId := dev.id
  umassId := dev.umassDev.umassId
  read := c.read
  blkno := c.blkno
  nblks := c.nblks
  complete := false
  val := c.val
  cb := c.cb
  xferId := xferId

/-- How a call goes on after its checks. -/
inductive Admission
  | fault
  | notMassStorage
  | busy (xfer : UmassRequest)
  | accepted (xfer : UmassRequest)
  deriving DecidableEq

/-- `enqueue_umass_request` up to the lock test: the class check, the next id, the
request record, the test of `locked`. -/
def admitCall (vars : ApiVars) (c : Call) : Admission × ApiVars :=
  match vars.device c.devId with
  | none => (.fault, vars)
  | some dev =>
    if dev.IsMassStorage then
      let xferId := vars.currentXfer + 1#32
      let xfer := c.request dev xferId
      (if dev.umassDev.locked then .busy xfer else .accepted xfer,
        { vars with currentXfer := xferId })
    else (.notMassStorage, vars)

/-- What a call does that others can see. -/
inductive ApiEvent
  | printf (text : String)
  | enqueueReq (req : BlkReq)
  | notify (channel : ℕ)
  | released
  | dequeueResp (resp : Option Answer)
  | callback (cb : BitVec 64) (xfer : UmassRequest)
  deriving DecidableEq

/-- How a call ends: it returns, polls for ever, or faults on a bad table slot. -/
inductive Exit
  | returns (value : BitVec 32)
  | spins
  | fault
  deriving DecidableEq

variable {RQ : Fifo BlkReq} {SQ : Fifo Answer}

/-- The client's variables and the shared memory. -/
structure ApiState (RQ : Fifo BlkReq) (SQ : Fifo Answer) where
  vars : ApiVars
  shared : Shared RQ SQ

/-- What the rest of the system does to the shared memory while the client polls. -/
abbrev Serve (RQ : Fifo BlkReq) (SQ : Fifo Answer) := Shared RQ SQ → Option (Shared RQ SQ)

/-- A call together with what the rest of the system does while it polls, which may be
something else at every call. -/
structure Episode (RQ : Fifo BlkReq) (SQ : Fifo Answer) where
  call : Call
  serve : Serve RQ SQ

/-- A client that has made no request yet, over empty queues of a bounded capacity. -/
def ApiState.fresh (vars : ApiVars) (room : ℕ) :
    ApiState (Fifo.bounded BlkReq room) (Fifo.bounded Answer room) :=
  ⟨vars, ⟨([] : List BlkReq), ([] : List Answer), false, fun _ => 0#8⟩⟩

/-- A system that answers the oldest request in full and clears the flag. -/
def promptServe (room : ℕ) :
    Serve (Fifo.bounded BlkReq room) (Fifo.bounded Answer room) := fun sh =>
  match sh.reqQueue, sh.respQueue with
  | [], _ => none
  | (req : BlkReq) :: rest, (answers : List Answer) => some {
      reqQueue := rest
      respQueue := answers ++ [⟨⟨0#32, req.addr, req.count, req.count, req.id⟩, 0⟩]
      inProgress := false
      heap := sh.heap }

/-- `execute_next`: queue the request and notify the driver. A refusal of the queue goes
unnoticed. -/
def executeNext (sh : Shared RQ SQ) (xfer : UmassRequest) : List ApiEvent × Shared RQ SQ :=
  match RQ.enqueue sh.reqQueue xfer.toBlkReq with
  | some q => ([.enqueueReq xfer.toBlkReq, .notify 47], { sh with reqQueue := q })
  | none => ([.notify 47], sh)

/-- `blk_dequeue_resp` into local variables that are not read again. -/
def dequeueResp (sh : Shared RQ SQ) : Option Answer × Shared RQ SQ :=
  match SQ.dequeue sh.respQueue with
  | some (a, q) => (some a, { sh with respQueue := q })
  | none => (none, sh)

/-- `enqueue_umass_request`: how it ends, what it did, and the state afterwards. -/
def enqueueUmassRequest (serve : Serve RQ SQ) (s : ApiState RQ SQ) (c : Call) :
    Exit × List ApiEvent × ApiState RQ SQ :=
  match admitCall s.vars c with
  | (.fault, vars) => (.fault, [], { s with vars := vars })
  | (.notMassStorage, vars) =>
    (.returns (-1#32),
      [.printf ("Device " ++ toString c.devId.toInt ++ " is not a mass storage device\n")],
      { s with vars := vars })
  | (.busy xfer, vars) =>
    (.returns xfer.xferId, [.printf "device busy\n"], { s with vars := vars })
  | (.accepted xfer, vars) =>
    let placed := executeNext { s.shared with inProgress := true } xfer
    -- The text printed at each poll is left out: the scheduler decides how often that is.
    match serve placed.2 with
    | none => (.spins, placed.1, ⟨vars, placed.2⟩)
    | some sh =>
      -- Neither the response nor the id of the request is returned.
      let resp := dequeueResp sh
      (.returns 1#32, placed.1 ++ [.released, .dequeueResp resp.1],
        ⟨vars.unlock c.devId, resp.2⟩)

theorem dequeueResp_of_items {sh : Shared RQ SQ} {a : Answer} {rest : List Answer}
    (h : SQ.items sh.respQueue = a :: rest) :
    ∃ q, dequeueResp sh = (some a, { sh with respQueue := q }) ∧ SQ.items q = rest := by
  obtain ⟨q, hq, hrest⟩ := SQ.dequeue_items h
  exact ⟨q, by simp [dequeueResp, hq], hrest⟩

/-- The shared memory in which an accepted call starts to poll. -/
def ApiState.polling (s : ApiState RQ SQ) (xfer : UmassRequest) : Shared RQ SQ :=
  (executeNext { s.shared with inProgress := true } xfer).2

/-! ## Admission -/

section OfDevice

variable {vars : ApiVars} {c : Call} {dev : SelUsbDevice}

theorem admitCall_notMassStorage (hdev : vars.device c.devId = some dev)
    (hother : ¬ dev.IsMassStorage) : admitCall vars c = (.notMassStorage, vars) := by
  simp [admitCall, hdev, hother]

theorem admitCall_locked (hdev : vars.device c.devId = some dev) (hclass : dev.IsMassStorage)
    (hlocked : dev.umassDev.locked = true) :
    admitCall vars c = (.busy (c.request dev (vars.currentXfer + 1#32)),
      { vars with currentXfer := vars.currentXfer + 1#32 }) := by
  simp [admitCall, hdev, hclass, hlocked]

theorem admitCall_unlocked (hdev : vars.device c.devId = some dev) (hclass : dev.IsMassStorage)
    (hunlocked : dev.umassDev.locked = false) :
    admitCall vars c = (.accepted (c.request dev (vars.currentXfer + 1#32)),
      { vars with currentXfer := vars.currentXfer + 1#32 }) := by
  simp [admitCall, hdev, hclass, hunlocked]

end OfDevice

/-- The four ways through the checks. -/
theorem admitCall_cases (vars : ApiVars) (c : Call) :
    vars.device c.devId = none ∧ admitCall vars c = (.fault, vars) ∨
    ∃ dev, vars.device c.devId = some dev ∧
      (¬ dev.IsMassStorage ∧ admitCall vars c = (.notMassStorage, vars) ∨
        dev.IsMassStorage ∧ dev.umassDev.locked = true ∧
          admitCall vars c = (.busy (c.request dev (vars.currentXfer + 1#32)),
            { vars with currentXfer := vars.currentXfer + 1#32 }) ∨
        dev.IsMassStorage ∧ dev.umassDev.locked = false ∧
          admitCall vars c = (.accepted (c.request dev (vars.currentXfer + 1#32)),
            { vars with currentXfer := vars.currentXfer + 1#32 })) := by
  -- The cases follow the checks of the code, in their order.
  cases hdev : vars.device c.devId with
  | none =>
    refine .inl ⟨rfl, ?_⟩
    simp only [admitCall, hdev]
  | some dev =>
    refine .inr ⟨dev, rfl, ?_⟩
    by_cases hclass : dev.IsMassStorage
    · cases hlocked : dev.umassDev.locked with
      | true => exact .inr (.inl ⟨hclass, rfl, admitCall_locked hdev hclass hlocked⟩)
      | false => exact .inr (.inr ⟨hclass, rfl, admitCall_unlocked hdev hclass hlocked⟩)
    · exact .inl ⟨hclass, admitCall_notMassStorage hdev hclass⟩

/-- An accepted call names an announced, unlocked mass-storage device, and its request is
filled in from that device and its arguments. -/
theorem admitCall_accepted {vars vars' : ApiVars} {c : Call} {xfer : UmassRequest}
    (h : admitCall vars c = (.accepted xfer, vars')) :
    ∃ dev, vars.device c.devId = some dev ∧ dev.IsMassStorage ∧ dev.umassDev.locked = false ∧
      xfer = c.request dev vars'.currentXfer := by
  rcases admitCall_cases vars c with ⟨-, hadmitted⟩ | ⟨dev, hdev, hcase⟩
  · rw [h] at hadmitted
    cases hadmitted
  rcases hcase with ⟨-, hadmitted⟩ | ⟨-, -, hadmitted⟩ | ⟨hclass, hunlocked, hadmitted⟩ <;>
    rw [h] at hadmitted <;> cases hadmitted
  exact ⟨dev, hdev, hclass, hunlocked, rfl⟩

/-- The checks leave the device table alone. -/
theorem admitCall_device (vars : ApiVars) (c : Call) (id : BitVec 32) :
    (admitCall vars c).2.device id = vars.device id := by
  rcases admitCall_cases vars c with ⟨-, hadmitted⟩ | ⟨dev, -, hcase⟩
  · rw [hadmitted]
  · rcases hcase with ⟨-, hadmitted⟩ | ⟨-, -, hadmitted⟩ | ⟨-, -, hadmitted⟩ <;>
      rw [hadmitted] <;> rfl

/-! ## The ways a call ends -/

section Exits

variable {serve : Serve RQ SQ} {s : ApiState RQ SQ} {c : Call} {xfer : UmassRequest}
  {vars : ApiVars}

theorem enqueueUmassRequest_fault (h : admitCall s.vars c = (.fault, vars)) :
    enqueueUmassRequest serve s c = (.fault, [], { s with vars := vars }) := by
  simp [enqueueUmassRequest, h]

theorem enqueueUmassRequest_notMassStorage (h : admitCall s.vars c = (.notMassStorage, vars)) :
    enqueueUmassRequest serve s c = (.returns (-1#32),
      [.printf ("Device " ++ toString c.devId.toInt ++ " is not a mass storage device\n")],
      { s with vars := vars }) := by
  simp [enqueueUmassRequest, h]

theorem enqueueUmassRequest_busy (h : admitCall s.vars c = (.busy xfer, vars)) :
    enqueueUmassRequest serve s c =
      (.returns xfer.xferId, [.printf "device busy\n"], { s with vars := vars }) := by
  simp [enqueueUmassRequest, h]

theorem enqueueUmassRequest_spins (h : admitCall s.vars c = (.accepted xfer, vars))
    (hserve : serve (s.polling xfer) = none) :
    enqueueUmassRequest serve s c =
      (.spins, (executeNext { s.shared with inProgress := true } xfer).1,
        ⟨vars, s.polling xfer⟩) := by
  unfold ApiState.polling at hserve ⊢
  simp [enqueueUmassRequest, h, hserve]

theorem enqueueUmassRequest_served {sh : Shared RQ SQ}
    (h : admitCall s.vars c = (.accepted xfer, vars)) (hserve : serve (s.polling xfer) = some sh) :
    enqueueUmassRequest serve s c =
      (.returns 1#32, (executeNext { s.shared with inProgress := true } xfer).1 ++
        [.released, .dequeueResp (dequeueResp sh).1],
        ⟨vars.unlock c.devId, (dequeueResp sh).2⟩) := by
  unfold ApiState.polling at hserve
  simp [enqueueUmassRequest, h, hserve]

end Exits

end Sel4Xhci.Umass
