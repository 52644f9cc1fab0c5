import Sel4Xhci.Umass.Api

/-!
# The disk layer of FatFs on the USB drive

`disk_read`, `disk_write` and `disk_ioctl` of `diskio.c`, the glue between FatFs and
`enqueue_umass_request`. The glue looks at one thing only, whether the request was given
the return value -1; the response that tells how the transfer went was dequeued, and
dropped, by the API before. A local variable that is returned without having been assigned
is `none`.

What a call has transferred is judged by the response to its own request, the one with its id that
came in while it was polled for; the API drops the one at the head of the queue, which may be
another one.

The status code that means success belongs to sDDF and is a parameter, as is the
behaviour of the rest of the system while a request is polled for. `calloc` is taken to
succeed; which block it returns is part of a call.

## Main definitions

* `diskRead`, `diskWrite`, `diskIoctl` — the code
* `disk` — FatFs' calls on the drive as a machine
* `Transferred` — what the driver reports of the request of a call
* `DiskCall.Truthful` — the result of a call tells whether it was carried out

## Main results

* `translate_iff_resultFits` — when the translation of one request's result is right
* `results_truthful_iff` — when a sequence of calls is answered truthfully
-/

set_option autoImplicit false

namespace Sel4Xhci.Disk

open Semantics Umass

variable {RQ : Fifo BlkReq} {SQ : Fifo Answer}

/-- `DRESULT`. -/
inductive DResult
  | ok
  | error
  | wrPrt
  | notRdy
  | parErr
  deriving DecidableEq, Repr

/-- `DEV_USB`: the physical drive that is the USB mass-storage device. -/
def DEV_USB : BitVec 8 := 2#8

/-- `CTRL_SYNC`: the command code. -/
def CTRL_SYNC : BitVec 8 := 0#8

/-- `FF_MAX_SS`: the sector size the glue counts with. -/
def sectorSize : BitVec 32 := 512#32

/-- How a call of the glue ends; the value may never have been assigned. -/
inductive DiskExit
  | returns (res : Option DResult)
  | spins
  | fault
  deriving DecidableEq

/-- The arguments of `disk_read` and `disk_write`, and the block `calloc` gives them. -/
structure DiskArgs where
  pdrv : BitVec 8
  buff : BitVec 64
  sector : BitVec 32
  count : BitVec 32
  tempBuff : BitVec 64
  deriving DecidableEq, Repr

/-- `count*512`, in 32 bits. -/
def DiskArgs.bytes (args : DiskArgs) : BitVec 32 := args.count * sectorSize

/-- The call of the API; the device id is a constant. -/
def DiskArgs.call (args : DiskArgs) (read : Bool) : Call where
  devId := 5#32
  read := read
  blkno := args.sector
  nblks := args.count
  val := args.tempBuff
  cb := 0#64

/-- `memcpy(dst, src, n)`. -/
def memcpy (heap : BitVec 64 → BitVec 8) (dst src : BitVec 64) (n : BitVec 32) :
    BitVec 64 → BitVec 8 := fun a =>
  if (a - dst).toNat < n.toNat then heap (src + (a - dst)) else heap a

/-- The memory after `calloc` returned `ptr`. -/
def calloc (heap : BitVec 64 → BitVec 8) (ptr : BitVec 64) (n : BitVec 32) :
    BitVec 64 → BitVec 8 := fun a => if (a - ptr).toNat < n.toNat then 0#8 else heap a

/-- A change of the client's memory. -/
def onHeap (s : ApiState RQ SQ) (f : (BitVec 64 → BitVec 8) → BitVec 64 → BitVec 8) :
    ApiState RQ SQ :=
  { s with shared := { s.shared with heap := f s.shared.heap } }

/-- "translate the result code here". -/
def translate (result : BitVec 32) : DResult :=
  if result = -1#32 then .error else .ok

/-- The state in which `disk_read` calls the API. -/
def readReady (s : ApiState RQ SQ) (args : DiskArgs) : ApiState RQ SQ :=
  onHeap s fun heap => calloc heap args.tempBuff args.bytes

/-- The state in which `disk_write` calls the API: the data is copied first. -/
def writeReady (s : ApiState RQ SQ) (args : DiskArgs) : ApiState RQ SQ :=
  onHeap (readReady s args) fun heap => memcpy heap args.tempBuff args.buff args.bytes

/-- `disk_read`. `pdrv` is overwritten with `DEV_USB`, so the switch has one case. -/
def diskRead (serve : Serve RQ SQ) (s : ApiState RQ SQ) (args : DiskArgs) :
    DiskExit × List ApiEvent × ApiState RQ SQ :=
  match enqueueUmassRequest serve (readReady s args) (args.call true) with
  | (.returns result, events, s') =>
    -- The block is copied out whatever the result.
    (.returns (some (translate result)), events,
      onHeap s' fun heap => memcpy heap args.buff args.tempBuff args.bytes)
  | (.spins, events, s') => (.spins, events, s')
  | (.fault, events, s') => (.fault, events, s')

/-- `disk_write`. -/
def diskWrite (serve : Serve RQ SQ) (s : ApiState RQ SQ) (args : DiskArgs) :
    DiskExit × List ApiEvent × ApiState RQ SQ :=
  match enqueueUmassRequest serve (writeReady s args) (args.call false) with
  | (.returns result, events, s') => (.returns (some (translate result)), events, s')
  | (.spins, events, s') => (.spins, events, s')
  | (.fault, events, s') => (.fault, events, s')

/-- `disk_ioctl`: on the USB drive every command that has no bit in common with
`CTRL_SYNC` gets the unassigned `res`. -/
def diskIoctl (pdrv cmd : BitVec 8) : Option DResult :=
  if pdrv = DEV_USB then
    if cmd &&& CTRL_SYNC ≠ 0#8 then some .ok else none
  else some .parErr

/-- `CTRL_SYNC` is 0, so no command has a bit in common with it. -/
theorem diskIoctl_eq (pdrv cmd : BitVec 8) :
    diskIoctl pdrv cmd = if pdrv = DEV_USB then none else some .parErr := by
  simp [diskIoctl, CTRL_SYNC]

/-! ## Sequences of calls -/

/-- A call that FatFs makes on the USB drive. A sync is `disk_ioctl(DEV_USB, CTRL_SYNC)`: 2 is the
number that FatFs has for its drive. -/
inductive DiskCall
  | read (args : DiskArgs)
  | write (args : DiskArgs)
  | sync
  deriving DecidableEq

/-- The client and, as history, whether every write so far was carried through by the
driver. -/
structure DiskState (RQ : Fifo BlkReq) (SQ : Fifo Answer) where
  api : ApiState RQ SQ
  writesCompleted : Bool

/-- The request has left the polling loop. -/
def Completed (events : List ApiEvent) : Bool := events.contains .released

variable (serve : Serve RQ SQ)

/-- One call: how it ends, what others see, the state afterwards. -/
def DiskCall.run (s : DiskState RQ SQ) : DiskCall → DiskExit × List ApiEvent × DiskState RQ SQ
  | .read args =>
    let result := diskRead serve s.api args
    (result.1, result.2.1, { s with api := result.2.2 })
  | .write args =>
    let result := diskWrite serve s.api args
    (result.1, result.2.1, ⟨result.2.2, s.writesCompleted && Completed result.2.1⟩)
  | .sync => (.returns (diskIoctl DEV_USB CTRL_SYNC), [], s)

/-- A call together with what the rest of the system does while its request is polled
for. -/
structure DiskEpisode (RQ : Fifo BlkReq) (SQ : Fifo Answer) where
  call : DiskCall
  serve : Serve RQ SQ

/-- FatFs' calls as a machine. A call that does not return is the last. -/
def disk (RQ : Fifo BlkReq) (SQ : Fifo Answer) : Machine (DiskState RQ SQ) (DiskEpisode RQ SQ) where
  start s := s.writesCompleted = true
  step s e :=
    match e.call.run e.serve s with
    | (.returns _, _, s') => some s'
    | _ => none

/-- A response that reports all `count` sectors transferred. -/
def Answer.Reports (a : Answer) (success : BitVec 32) (count : BitVec 32) : Prop :=
  a.status = success ∧ a.successCount.toNat = count.toNat

/-- The response to a request: of those that came in while it was polled for, the one with its
id. -/
def ownResponse (before after : Shared RQ SQ) (id : BitVec 32) : Option Answer :=
  ((SQ.items after.respQueue).drop (SQ.items before.respQueue).length).find? fun a => a.id = id

/-- The driver has reported all blocks of a call transferred: its request was polled for, and the
response to it says so. -/
def Transferred (success : BitVec 32) (s : ApiState RQ SQ) (c : Call) : Prop :=
  ∃ xfer vars sh a, admitCall s.vars c = (.accepted xfer, vars) ∧
    serve (s.polling xfer) = some sh ∧ ownResponse (s.polling xfer) sh xfer.xferId = some a ∧
    Answer.Reports a success c.nblks

/-- The result, if there is one, was assigned, and tells the truth: of a read or write,
that it is `RES_OK` exactly when all sectors were transferred; of a sync, that it is
`RES_OK` when all earlier writes have completed. -/
def DiskCall.Truthful (success : BitVec 32) (s : DiskState RQ SQ) (call : DiskCall) : Prop :=
  ∀ res, (call.run serve s).1 = .returns res →
    match call with
    | .read args => ∃ r, res = some r ∧
        (r = .ok ↔ Transferred serve success (readReady s.api args) (args.call true))
    | .write args => ∃ r, res = some r ∧
        (r = .ok ↔ Transferred serve success (writeReady s.api args) (args.call false))
    | .sync => ∃ r, res = some r ∧ (s.writesCompleted = true → r = .ok)

/-! ## When a request's result is right -/

/-- What the return value of a request happens to say is right: the device is not a
mass-storage device; or it is locked and the id handed out is -1; or it is unlocked and
the driver, if it serves the request, reports all blocks transferred in its response to it. -/
def ResultFits (success : BitVec 32) (s : ApiState RQ SQ) (c : Call) : Prop :=
  ∀ dev, s.vars.device c.devId = some dev → dev.IsMassStorage →
    if dev.umassDev.locked then s.vars.currentXfer + 1#32 = -1#32
    else
      let xfer := c.request dev (s.vars.currentXfer + 1#32)
      ∀ sh, serve (s.polling xfer) = some sh →
        ∃ a, ownResponse (s.polling xfer) sh xfer.xferId = some a ∧
          Answer.Reports a success c.nblks

variable {serve} {success : BitVec 32}

theorem translate_eq_ok {result : BitVec 32} : translate result = .ok ↔ result ≠ -1#32 := by
  unfold translate
  by_cases h : result = -1#32
  · rw [if_pos h]
    exact ⟨nofun, fun hne => absurd h hne⟩
  · rw [if_neg h]
    exact ⟨fun _ => h, fun _ => rfl⟩

/-- A request that was not placed has transferred nothing. -/
theorem not_transferred {s : ApiState RQ SQ} {c : Call}
    (h : ∀ xfer vars, admitCall s.vars c ≠ (.accepted xfer, vars)) :
    ¬ Transferred serve success s c := fun ⟨xfer, vars, _, _, hadmitted, _⟩ => h xfer vars hadmitted

/-- Of a request that was served, the response tells. -/
theorem transferred_served_iff {s : ApiState RQ SQ} {c : Call} {xfer : UmassRequest}
    {vars : ApiVars} {sh : Shared RQ SQ} (hadmitted : admitCall s.vars c = (.accepted xfer, vars))
    (hserve : serve (s.polling xfer) = some sh) :
    Transferred serve success s c ↔ ∃ a, ownResponse (s.polling xfer) sh xfer.xferId = some a ∧
      Answer.Reports a success c.nblks := by
  constructor
  · rintro ⟨xfer', vars', sh', a, hadmitted', hserve', hown, hreports⟩
    obtain ⟨hxfer, -⟩ := Prod.mk.inj (hadmitted.symm.trans hadmitted')
    obtain rfl := Admission.accepted.inj hxfer
    obtain rfl := Option.some.inj (hserve.symm.trans hserve')
    exact ⟨a, hown, hreports⟩
  · rintro ⟨a, hown, hreports⟩
    exact ⟨xfer, vars, sh, a, hadmitted, hserve, hown, hreports⟩

theorem translate_iff_resultFits {s : ApiState RQ SQ} {c : Call} :
    (∀ result, (enqueueUmassRequest serve s c).1 = .returns result →
      (translate result = .ok ↔ Transferred serve success s c)) ↔
    ResultFits serve success s c := by
  rcases admitCall_cases s.vars c with ⟨hnone, hadmitted⟩ | ⟨dev, hdev, hcase⟩
  · rw [enqueueUmassRequest_fault hadmitted]
    simp [ResultFits, hnone]
  simp only [ResultFits, hdev, Option.some.injEq, forall_eq']
  rcases hcase with ⟨hother, hadmitted⟩ | ⟨hclass, hlocked, hadmitted⟩ |
    ⟨hclass, hunlocked, hadmitted⟩
  · have hnot : ¬ Transferred serve success s c := not_transferred (by simp [hadmitted])
    rw [enqueueUmassRequest_notMassStorage hadmitted]
    simp [hother, hnot, translate]
  · -- A locked device: the id is translated and nothing was transferred.
    have hnot : ¬ Transferred serve success s c := not_transferred (by simp [hadmitted])
    rw [enqueueUmassRequest_busy hadmitted]
    simp [hclass, hlocked, hnot, translate_eq_ok, Call.request]
  · simp only [hclass, hunlocked, forall_const, Bool.false_eq_true, if_false]
    cases hserve : serve (s.polling (c.request dev (s.vars.currentXfer + 1#32))) with
    | none =>
      rw [enqueueUmassRequest_spins hadmitted hserve]
      simp
    | some sh =>
      -- The request was served: the result is 1, whatever the response.
      rw [enqueueUmassRequest_served hadmitted hserve, transferred_served_iff hadmitted hserve]
      simp [translate]

/-! ## When a sequence of calls is answered truthfully -/

variable (serve success) in
/-- What the request of a read or write returns fits what became of it; the result of a sync never
fits, since it is not assigned. -/
def DiskCall.Fits (s : DiskState RQ SQ) : DiskCall → Prop
  | .read args => ResultFits serve success (readReady s.api args) (args.call true)
  | .write args => ResultFits serve success (writeReady s.api args) (args.call false)
  | .sync => False

/-- What the glue makes of the end of its API call. -/
def DiskExit.ofApi : Exit → DiskExit
  | .returns result => .returns (some (translate result))
  | .spins => .spins
  | .fault => .fault

theorem DiskExit.ofApi_eq_returns {exit : Exit} {res : Option DResult} :
    ofApi exit = .returns res ↔
      ∃ result, exit = .returns result ∧ res = some (translate result) := by
  cases exit <;> simp [ofApi, eq_comm]

/-- `disk_read` ends as its request does. -/
theorem diskRead_eq (serve : Serve RQ SQ) (s : ApiState RQ SQ) (args : DiskArgs) :
    (diskRead serve s args).1 =
      .ofApi (enqueueUmassRequest serve (readReady s args) (args.call true)).1 := by
  unfold diskRead
  rcases enqueueUmassRequest serve (readReady s args) (args.call true) with ⟨exit, events, s'⟩
  cases exit <;> rfl

/-- So does `disk_write`. -/
theorem diskWrite_eq (serve : Serve RQ SQ) (s : ApiState RQ SQ) (args : DiskArgs) :
    (diskWrite serve s args).1 =
      .ofApi (enqueueUmassRequest serve (writeReady s args) (args.call false)).1 := by
  unfold diskWrite
  rcases enqueueUmassRequest serve (writeReady s args) (args.call false) with ⟨exit, events, s'⟩
  cases exit <;> rfl

/-- A translated result is always assigned; it is right when the translation is. -/
theorem translated_truthful_iff {exit : Exit} {done : Prop} :
    (∀ res, DiskExit.ofApi exit = .returns res → ∃ r, res = some r ∧ (r = .ok ↔ done)) ↔
      ∀ result, exit = .returns result → (translate result = .ok ↔ done) := by
  constructor
  · intro h result hresult
    obtain ⟨r, hr, hok⟩ := h _ (DiskExit.ofApi_eq_returns.mpr ⟨result, hresult, rfl⟩)
    obtain rfl := Option.some.inj hr
    exact hok
  · intro h res hres
    obtain ⟨result, hresult, rfl⟩ := DiskExit.ofApi_eq_returns.mp hres
    exact ⟨_, rfl, h result hresult⟩

/-- One call is answered truthfully exactly when it fits. -/
theorem DiskCall.truthful_iff (s : DiskState RQ SQ) (call : DiskCall) :
    call.Truthful serve success s ↔ call.Fits serve success s := by
  cases call with
  | read args =>
    rw [Fits, ← translate_iff_resultFits, ← translated_truthful_iff]
    simp only [Truthful, run, diskRead_eq serve s.api args]
  | write args =>
    rw [Fits, ← translate_iff_resultFits, ← translated_truthful_iff]
    simp only [Truthful, run, diskWrite_eq serve s.api args]
  | sync =>
    refine ⟨fun h => ?_, False.elim⟩
    obtain ⟨r, hr, -⟩ := h (diskIoctl DEV_USB CTRL_SYNC) rfl
    rw [diskIoctl_eq, if_pos rfl] at hr
    cases hr

/-- For every sequence of calls, from any state and for any behaviour of the driver at each
of them: every call is answered truthfully exactly when every call fits. -/
theorem results_truthful_iff (success : BitVec 32) (s : DiskState RQ SQ)
    (episodes : List (DiskEpisode RQ SQ)) :
    (disk RQ SQ).Along (fun s e => e.call.Truthful e.serve success s) s episodes ↔
      (disk RQ SQ).Along (fun s e => e.call.Fits e.serve success s) s episodes :=
  Machine.along_congr (fun s e => e.call.truthful_iff s) s episodes

/-- A driver that answers the oldest request with a failure. -/
def failingServe : Serve (Fifo.bounded BlkReq 0) (Fifo.bounded Answer 0) := fun sh =>
  match sh.reqQueue, sh.respQueue with
  | [], _ => none
  | (req : BlkReq) :: rest, (answers : List Answer) => some {
      reqQueue := rest
      respQueue := answers ++ [⟨⟨1#32, req.addr, req.count, 0#16, req.id⟩, 0⟩]
      inProgress := false
      heap := sh.heap }

/-- A write that failed is reported as done, and a sync has no result at all. -/
theorem failed_write_reported_ok :
    (¬ ∀ (s : DiskState (Fifo.bounded BlkReq 0) (Fifo.bounded Answer 0))
        (episodes : List (DiskEpisode _ _)),
      s.writesCompleted = true → (∀ e ∈ episodes, e.call ≠ .sync) →
      (disk _ _).Along (fun s e => e.call.Truthful e.serve 0#32 s) s episodes) ∧
    (¬ ∀ (s : DiskState (Fifo.bounded BlkReq 0) (Fifo.bounded Answer 0))
        (episodes : List (DiskEpisode _ _)),
      s.writesCompleted = true → (∀ e ∈ episodes, e.call = .sync) →
      (disk _ _).Along (fun s e => e.call.Truthful e.serve 0#32 s) s episodes) := by
  let s : DiskState (Fifo.bounded BlkReq 0) (Fifo.bounded Answer 0) :=
    ⟨ApiState.fresh oneDrive 0, true⟩
  refine ⟨?_, ?_⟩
  · intro h
    let args : DiskArgs := ⟨2#8, 0x1000#64, 7#32, 1#32, 0x2000#64⟩
    have htruthful := (h s [⟨.write args, failingServe⟩] rfl (by simp)).head
    obtain ⟨r, hr, hok⟩ := htruthful (some .ok) (by decide)
    obtain ⟨xfer, vars, sh, a, hadmitted, hserve, hown, hstatus, -⟩ :=
      hok.mp (Option.some.inj hr).symm
    -- The device is not locked, and the response to the request tells of a failure.
    obtain ⟨hxfer, -⟩ := Prod.mk.inj hadmitted
    obtain rfl := Admission.accepted.inj hxfer
    obtain rfl := Option.some.inj hserve
    have hanswer : some a = some ⟨⟨1#32, 0x2000#64, 1#16, 0#16, 0#32⟩, 0⟩ := by
      rw [← hown]
      decide
    rw [Option.some.inj hanswer] at hstatus
    exact absurd hstatus (by decide)
  · intro h
    have htruthful := (h s [⟨.sync, failingServe⟩] rfl (by simp)).head
    obtain ⟨r, hr, -⟩ := htruthful none (by decide)
    cases hr

end Sel4Xhci.Disk
