import Sel4Xhci.Disk.Diskio
import Mathlib.Algebra.Order.Group.Int
import Mathlib.Order.Interval.Set.LinearOrder

/-!
# What a disk call transfers

`disk_read` and `disk_write` count in sectors of 512 bytes, and ask for as many blocks as
they were asked for sectors. How long a block is belongs to the device. On the way the
sector number becomes an `int` and the number of blocks 16 bits wide, and the staging buffer
is sized in 32 bits.

The driver is taken to do what the request says: `count` blocks of the device's block size
from block `blkno` on, straight to or from memory.

## Main definitions

* `Device`, `BlockOp.perform` — a device, and a block operation on it
* `driverRun` — one round of a driver that does what it is asked
* `Transfers` — what a write and a read of the same sectors ought to do

## Main results

* `request_served` — what becomes of a request on an idle drive
* `transfers_iff` — when a write and a read transfer what they ought to
-/

set_option autoImplicit false

namespace Sel4Xhci.Disk

open Semantics Umass

variable {RQ : Fifo BlkReq} {SQ : Fifo Answer}

/-- A block device: its block size, and its contents by byte position. -/
structure Device where
  blocksize : ℕ
  contents : ℤ → BitVec 8

/-- The number of bytes that a block operation moves. -/
def blockBytes (blocksize : ℕ) (op : BlockOp) : ℕ := blocksize * op.nblks.toNat

/-- The byte position at which a block operation starts; the block number is an `int`. -/
def firstByte (blocksize : ℕ) (op : BlockOp) : ℤ := blocksize * op.blkno.toInt

/-- The byte positions that a block operation touches. -/
def bytesTouched (blocksize : ℕ) (op : BlockOp) : Set ℤ :=
  {i | firstByte blocksize op ≤ i ∧ i < firstByte blocksize op + blockBytes blocksize op}

/-- A block operation on a device: the contents of the device and of memory afterwards. -/
def perform (dev : Device) (op : BlockOp) (heap : BitVec 64 → BitVec 8) :
    (ℤ → BitVec 8) × (BitVec 64 → BitVec 8) :=
  let first := firstByte dev.blocksize op
  let bytes := blockBytes dev.blocksize op
  if op.read then
    (dev.contents, fun a =>
      if (a - op.buffer).toNat < bytes then dev.contents (first + (a - op.buffer).toNat)
      else heap a)
  else
    (fun i =>
      if first ≤ i ∧ i < first + bytes then heap (op.buffer + BitVec.ofInt 64 (i - first))
      else dev.contents i, heap)

/-- One round of the driver: it takes the oldest request, performs it, answers it, and
releases the client. -/
def driverRun (dev : Device) (sh : Shared RQ SQ) : Option (Device × Shared RQ SQ) :=
  match RQ.dequeue sh.reqQueue with
  | none => none
  | some (req, q) =>
    match req.action with
    | .start op =>
      -- The answer reports success for all blocks asked for.
      let (contents, heap) := perform dev op sh.heap
      (SQ.enqueue sh.respQueue ⟨⟨0#32, req.addr, req.count, req.count, req.id⟩, 0⟩).map fun r =>
        ({ dev with contents := contents }, ⟨q, r, false, heap⟩)
    | .respond _ => none
    | .unrecognised _ => none

/-- What the client finds in shared memory when the driver has released it. -/
def serveBy (dev : Device) : Serve RQ SQ := fun sh => (driverRun dev sh).map Prod.snd

/-- The device after a call of the API. -/
def deviceAfter (dev : Device) (s : ApiState RQ SQ) (c : Call) : Device :=
  match admitCall s.vars c with
  | (.accepted xfer, _) => ((driverRun dev (s.polling xfer)).map Prod.fst).getD dev
  | (.fault, _) => dev
  | (.notMassStorage, _) => dev
  | (.busy _, _) => dev

/-- A client with its device. -/
structure DiskWorld (RQ : Fifo BlkReq) (SQ : Fifo Answer) where
  api : ApiState RQ SQ
  device : Device

/-- `disk_write` with the driver at work: how it ends, what it did, and the world
afterwards. -/
def DiskWorld.write (w : DiskWorld RQ SQ) (args : DiskArgs) :
    DiskExit × List ApiEvent × DiskWorld RQ SQ :=
  let (exit, events, s) := diskWrite (serveBy w.device) w.api args
  (exit, events, ⟨s, deviceAfter w.device (writeReady w.api args) (args.call false)⟩)

/-- `disk_read` with the driver at work. -/
def DiskWorld.read (w : DiskWorld RQ SQ) (args : DiskArgs) :
    DiskExit × List ApiEvent × DiskWorld RQ SQ :=
  let (exit, events, s) := diskRead (serveBy w.device) w.api args
  (exit, events, ⟨s, deviceAfter w.device (readReady w.api args) (args.call true)⟩)

/-- The client has an unlocked drive under id 5 and no request or response is queued. -/
structure Idle (s : ApiState RQ SQ) : Prop where
  drive : ∃ dev, s.vars.device 5#32 = some dev ∧ dev.IsMassStorage ∧ dev.umassDev.locked = false
  reqQueue : RQ.items s.shared.reqQueue = []
  respQueue : SQ.items s.shared.respQueue = []

/-! ## One request -/

/-- The block operation that a call of the API starts. -/
def callOp (c : Call) : BlockOp :=
  ⟨c.read, 0#32, c.blkno, (c.nblks.setWidth 16).setWidth 32, c.val⟩

section Request

variable {s : ApiState RQ SQ} {c : Call}

theorem Idle.admitCall (h : Idle s) (hdev : c.devId = 5#32) :
    ∃ dev, s.vars.device 5#32 = some dev ∧ dev.IsMassStorage ∧
      admitCall s.vars c = (.accepted (c.request dev (s.vars.currentXfer + 1#32)),
        { s.vars with currentXfer := s.vars.currentXfer + 1#32 }) := by
  obtain ⟨dev, hdevice, hclass, hunlocked⟩ := h.drive
  have hnamed : s.vars.device c.devId = some dev := by rw [hdev, hdevice]
  exact ⟨dev, hdevice, hclass, admitCall_unlocked hnamed hclass hunlocked⟩

/-- The driver performs the request that an idle client has just placed. -/
theorem driverRun_polling (h : Idle s) (dev : Device) {xfer : UmassRequest} {op : BlockOp}
    (hop : xfer.toBlkReq.action = .start op) :
    ∃ q r a, driverRun dev (s.polling xfer) =
        some ({ dev with contents := (perform dev op s.shared.heap).1 },
          ⟨q, r, false, (perform dev op s.shared.heap).2⟩) ∧
      RQ.items q = [] ∧ SQ.items r = [a] := by
  obtain ⟨placed, hplaced⟩ := Option.isSome_iff_exists.mp
    (RQ.accepts_of_empty h.reqQueue (a := xfer.toBlkReq))
  have hitems := RQ.items_enqueue hplaced
  rw [h.reqQueue, List.nil_append] at hitems
  obtain ⟨q, hq, hrest⟩ := RQ.dequeue_items hitems
  have hpolling : s.polling xfer =
      { s.shared with inProgress := true, reqQueue := placed } := by
    simp [ApiState.polling, executeNext, hplaced]
  let a : Answer := ⟨⟨0#32, xfer.toBlkReq.addr, xfer.toBlkReq.count, xfer.toBlkReq.count,
    xfer.toBlkReq.id⟩, 0⟩
  obtain ⟨r, hr⟩ := Option.isSome_iff_exists.mp (SQ.accepts_of_empty h.respQueue (a := a))
  have hanswers := SQ.items_enqueue hr
  rw [h.respQueue, List.nil_append] at hanswers
  refine ⟨q, r, a, ?_, hrest, hanswers⟩
  simp [driverRun, hpolling, hq, hop, a, hr]

/-- `usb_devices[id]->umass_dev->locked = false` changes the device under `id` only. -/
theorem device_unlock (vars : ApiVars) (id : BitVec 32) :
    (vars.unlock id).device id = (vars.device id).map fun dev =>
      { dev with umassDev := { dev.umassDev with locked := false } } := by
  unfold ApiVars.device ApiVars.unlock
  split_ifs
  · exact if_pos rfl
  · rfl

/-- The requests that a call has issued. -/
def issued (events : List ApiEvent) : List BlkReq :=
  events.filterMap fun
    | .enqueueReq req => some req
    | .printf _ => none
    | .notify _ => none
    | .released => none
    | .dequeueResp _ => none
    | .callback _ _ => none

/-- On an idle drive one request is issued and performed, its call returns 1, and the drive
is idle again. -/
theorem request_served (h : Idle s) (dev : Device) (hdev : c.devId = 5#32) :
    ∃ req events s', enqueueUmassRequest (serveBy dev) s c = (.returns 1#32, events, s') ∧
      issued events = [req] ∧ req.action = .start (callOp c) ∧
      s'.shared.heap = (perform dev (callOp c) s.shared.heap).2 ∧
      deviceAfter dev s c =
        { dev with contents := (perform dev (callOp c) s.shared.heap).1 } ∧
      Idle s' := by
  obtain ⟨usb, husb, hclass, hadmitted⟩ := h.admitCall hdev
  let xfer := c.request usb (s.vars.currentXfer + 1#32)
  have hop : xfer.toBlkReq.action = .start (callOp c) := UmassRequest.action_toBlkReq xfer
  -- The driver takes the request up while the client polls, and answers it.
  obtain ⟨q, r, a, hrun, hq, hr⟩ := driverRun_polling h dev hop
  obtain ⟨r', hr', hrest⟩ := SQ.dequeue_items hr
  let heap := (perform dev (callOp c) s.shared.heap).2
  have hserve : serveBy dev (s.polling xfer) = some ⟨q, r, false, heap⟩ := by
    rw [serveBy, hrun, Option.map_some]
  have hissued : (executeNext { s.shared with inProgress := true } xfer).1 =
      [.enqueueReq xfer.toBlkReq, .notify 47] := by
    obtain ⟨placed, hplaced⟩ := Option.isSome_iff_exists.mp
      (RQ.accepts_of_empty h.reqQueue (a := xfer.toBlkReq))
    simp [executeNext, hplaced]
  have hresp : dequeueResp (⟨q, r, false, heap⟩ : Shared RQ SQ) =
      (some a, ⟨q, r', false, heap⟩) := by
    simp [dequeueResp, hr']
  let vars : ApiVars := { s.vars with currentXfer := s.vars.currentXfer + 1#32 }
  refine ⟨xfer.toBlkReq,
    [.enqueueReq xfer.toBlkReq, .notify 47, .released, .dequeueResp (some a)],
    ⟨vars.unlock c.devId, ⟨q, r', false, heap⟩⟩, ?_, rfl, hop, rfl, ?_, ?_⟩
  · rw [enqueueUmassRequest_served hadmitted hserve, hissued, hresp]
    rfl
  · simp [deviceAfter, hadmitted, xfer, hrun]
  · refine ⟨⟨{ usb with umassDev := { usb.umassDev with locked := false } }, ?_, hclass, rfl⟩,
      hq, hrest⟩
    have hsame : vars.device 5#32 = some usb := husb
    rw [hdev, device_unlock, hsame, Option.map_some]

end Request

/-! ## The range of a call -/

/-- A call issues one request, which moves exactly the sectors asked for, and no more bytes
than the staging buffer holds. -/
def MovesSectors (blocksize : ℕ) (args : DiskArgs) (events : List ApiEvent) : Prop :=
  ∃ req op, issued events = [req] ∧ req.action = .start op ∧
    bytesTouched blocksize op = {i : ℤ | 512 * args.sector.toNat ≤ i ∧
      i < 512 * (args.sector.toNat + args.count.toNat)} ∧
    blockBytes blocksize op ≤ args.bytes.toNat

/-- The sectors asked for are blocks of the device as well: the first one starts at the same
byte, as an `int`, and they have the same length, counted in 16 bits; and that length fits
in 32 bits. -/
structure FitsDevice (blocksize : ℕ) (args : DiskArgs) : Prop where
  first : (blocksize : ℤ) * args.sector.toInt = 512 * args.sector.toNat
  length : blocksize * (args.count.toNat % 2 ^ 16) = 512 * args.count.toNat
  staging : 512 * args.count.toNat < 2 ^ 32

section Range

variable {blocksize : ℕ} {args : DiskArgs}

/-- A range that is not empty determines its ends. -/
theorem range_eq_iff {a b c d : ℤ} (h : c < d) :
    {i : ℤ | a ≤ i ∧ i < b} = {i : ℤ | c ≤ i ∧ i < d} ↔ a = c ∧ b = d :=
  Set.Ico_eq_Ico_iff (.inr h)

theorem toNat_bytes (args : DiskArgs) :
    args.bytes.toNat = 512 * args.count.toNat % 2 ^ 32 := by
  rw [DiskArgs.bytes, BitVec.toNat_mul, Nat.mul_comm]
  rfl

theorem firstByte_callOp (read : Bool) :
    firstByte blocksize (callOp (args.call read)) = blocksize * args.sector.toInt := rfl

theorem blockBytes_callOp (read : Bool) :
    blockBytes blocksize (callOp (args.call read)) = blocksize * (args.count.toNat % 2 ^ 16) := by
  simp only [blockBytes, callOp, DiskArgs.call, BitVec.toNat_setWidth]
  congr 1
  omega

/-- The request of a call moves what was asked for exactly when that fits the device. -/
theorem movesSectors_iff {events : List ApiEvent} {req : BlkReq} (read : Bool)
    (hpos : 0 < args.count.toNat) (hissued : issued events = [req])
    (hop : req.action = .start (callOp (args.call read))) :
    MovesSectors blocksize args events ↔ FitsDevice blocksize args := by
  have hrange : bytesTouched blocksize (callOp (args.call read)) =
      {i : ℤ | 512 * args.sector.toNat ≤ i ∧
        i < 512 * (args.sector.toNat + args.count.toNat)} ↔
      (blocksize : ℤ) * args.sector.toInt = 512 * args.sector.toNat ∧
        blocksize * (args.count.toNat % 2 ^ 16) = 512 * args.count.toNat := by
    -- Both ends must agree; the second one counts in 16 bits.
    rw [bytesTouched, firstByte_callOp, blockBytes_callOp, range_eq_iff (by omega)]
    omega
  constructor
  · rintro ⟨req', op, hreq', hop', htouched, hstaging⟩
    rw [hissued] at hreq'
    obtain rfl := List.singleton_injective hreq'
    rw [hop] at hop'
    obtain rfl := XferAction.start.inj hop'
    obtain ⟨hfirst, hlength⟩ := hrange.mp htouched
    rw [blockBytes_callOp, hlength, toNat_bytes] at hstaging
    exact ⟨hfirst, hlength, by omega⟩
  · intro h
    refine ⟨req, _, hissued, hop, hrange.mpr ⟨h.first, h.length⟩, ?_⟩
    have hstaging := h.staging
    rw [blockBytes_callOp, h.length, toNat_bytes]
    omega

end Range

/-! ## A write and a read -/

/-- A write with `args` and then a read with `args'` of the same sectors: each moves the
sectors asked for, and the bytes come back. -/
structure Transfers (w : DiskWorld RQ SQ) (args args' : DiskArgs) : Prop where
  write : MovesSectors w.device.blocksize args (w.write args).2.1
  read : MovesSectors w.device.blocksize args' ((w.write args).2.2.read args').2.1
  roundTrip : ∀ j < 512 * args.count.toNat,
    ((w.write args).2.2.read args').2.2.api.shared.heap (args'.buff + BitVec.ofNat 64 j) =
      w.api.shared.heap (args.buff + BitVec.ofNat 64 j)

section WriteRead

variable {w : DiskWorld RQ SQ} {args args' : DiskArgs}

/-- The state of the memory when `disk_write` calls the API. -/
def writeHeap (heap : BitVec 64 → BitVec 8) (args : DiskArgs) : BitVec 64 → BitVec 8 :=
  memcpy (calloc heap args.tempBuff args.bytes) args.tempBuff args.buff args.bytes

theorem write_served (h : Idle w.api) (args : DiskArgs) :
    ∃ req, issued (w.write args).2.1 = [req] ∧
      req.action = .start (callOp (args.call false)) ∧
      (w.write args).2.2.device = { w.device with
        contents := (perform w.device (callOp (args.call false))
          (writeHeap w.api.shared.heap args)).1 } ∧
      Idle (w.write args).2.2.api := by
  have hready : Idle (writeReady w.api args) := ⟨h.drive, h.reqQueue, h.respQueue⟩
  obtain ⟨req, events, s', hcall, hissued, hop, -, hdevice, hidle⟩ :=
    request_served hready w.device (c := args.call false) rfl
  refine ⟨req, ?_, hop, hdevice, ?_⟩
  · simpa [DiskWorld.write, diskWrite, hcall] using hissued
  · simpa [DiskWorld.write, diskWrite, hcall] using hidle

theorem read_served (h : Idle w.api) (args : DiskArgs) :
    ∃ req, issued (w.read args).2.1 = [req] ∧
      req.action = .start (callOp (args.call true)) ∧
      (w.read args).2.2.api.shared.heap = memcpy (perform w.device (callOp (args.call true))
        (calloc w.api.shared.heap args.tempBuff args.bytes)).2
        args.buff args.tempBuff args.bytes := by
  have hready : Idle (readReady w.api args) := ⟨h.drive, h.reqQueue, h.respQueue⟩
  obtain ⟨req, events, s', hcall, hissued, hop, hheap, -, -⟩ :=
    request_served hready w.device (c := args.call true) rfl
  refine ⟨req, ?_, hop, ?_⟩
  · simpa [DiskWorld.read, diskRead, hcall] using hissued
  · simp only [DiskWorld.read, diskRead, hcall, onHeap, hheap]
    rfl

/-! ## The way of a byte -/

theorem toNat_offset (p : BitVec 64) {j : ℕ} (h : j < 2 ^ 64) :
    (p + BitVec.ofNat 64 j - p).toNat = j := by
  rw [BitVec.add_comm, BitVec.add_sub_cancel, BitVec.toNat_ofNat, Nat.mod_eq_of_lt h]

theorem memcpy_add (heap : BitVec 64 → BitVec 8) (dst src : BitVec 64) {n : BitVec 32} {j : ℕ}
    (h : j < n.toNat) :
    memcpy heap dst src n (dst + BitVec.ofNat 64 j) = heap (src + BitVec.ofNat 64 j) := by
  have hword := n.isLt
  have hoffset := toNat_offset dst (j := j) (by omega)
  rw [memcpy, hoffset, if_pos h, BitVec.add_comm dst, BitVec.add_sub_cancel]

/-- The `j`-th byte of the buffer is the `j`-th byte staged, if `calloc` has not taken the
buffer itself. -/
theorem writeHeap_add (heap : BitVec 64 → BitVec 8) {j : ℕ} (h : j < args.bytes.toNat)
    (hfresh : ¬ (args.buff + BitVec.ofNat 64 j - args.tempBuff).toNat < args.bytes.toNat) :
    writeHeap heap args (args.tempBuff + BitVec.ofNat 64 j) =
      heap (args.buff + BitVec.ofNat 64 j) := by
  -- `calloc` has cleared the staging buffer before the bytes are copied to it.
  rw [writeHeap, memcpy_add _ _ _ h, calloc, if_neg hfresh]

/-- A write puts the `j`-th byte of memory at the `j`-th position from the first on. -/
theorem perform_write (dev : Device) {op : BlockOp} (heap : BitVec 64 → BitVec 8)
    (hop : op.read = false) {j : ℕ} (h : j < blockBytes dev.blocksize op) :
    (perform dev op heap).1 (firstByte dev.blocksize op + j) =
      heap (op.buffer + BitVec.ofNat 64 j) := by
  simp only [perform, hop, Bool.false_eq_true, if_false]
  rw [if_pos ⟨by omega, by omega⟩, add_sub_cancel_left, BitVec.ofInt_natCast]

/-- A read gets it from there. -/
theorem perform_read (dev : Device) {op : BlockOp} (heap : BitVec 64 → BitVec 8)
    (hop : op.read = true) {j : ℕ} (h : j < blockBytes dev.blocksize op) (hj : j < 2 ^ 64) :
    (perform dev op heap).2 (op.buffer + BitVec.ofNat 64 j) =
      dev.contents (firstByte dev.blocksize op + j) := by
  simp only [perform, hop, if_true, toNat_offset op.buffer hj, if_pos h]

/-- For an idle drive of any block size and contents, for any sector, any positive number of
sectors, any buffers and any block that `calloc` gives the write: a write and a read of the
same sectors transfer what they ought to exactly when those fit the device. -/
theorem transfers_iff (h : Idle w.api) (hpos : 0 < args.count.toNat)
    (hsector : args'.sector = args.sector) (hcount : args'.count = args.count)
    (hfresh : ∀ j < 512 * args.count.toNat,
      ¬ (args.buff + BitVec.ofNat 64 j - args.tempBuff).toNat < args.bytes.toNat) :
    Transfers w args args' ↔ FitsDevice w.device.blocksize args := by
  obtain ⟨req, hwissued, hwop, hdevice, hidle⟩ := write_served h args
  obtain ⟨req', hrissued, hrop, hheap⟩ := read_served hidle args'
  constructor
  · intro htransfers
    exact (movesSectors_iff false hpos hwissued hwop).mp htransfers.write
  · intro hfits
    have hfits' : FitsDevice w.device.blocksize args' := by
      refine ⟨?_, ?_, ?_⟩
      · rw [hsector]
        exact hfits.first
      · rw [hcount]
        exact hfits.length
      · rw [hcount]
        exact hfits.staging
    constructor
    case write => exact (movesSectors_iff false hpos hwissued hwop).mpr hfits
    case read =>
      have hpos' : 0 < args'.count.toNat := by
        rw [hcount]
        exact hpos
      exact (movesSectors_iff true hpos' hrissued hrop).mpr hfits'
    case roundTrip =>
      intro j hj
      have hstaging := hfits.staging
      have hbytes : args.bytes.toNat = 512 * args.count.toNat := by
        rw [toNat_bytes]
        omega
      have hbytes' : args'.bytes.toNat = 512 * args.count.toNat := by
        rw [toNat_bytes, hcount]
        omega
      have hlength : j < blockBytes w.device.blocksize (callOp (args.call false)) := by
        rw [blockBytes_callOp, hfits.length]
        exact hj
      have hlength' : j < blockBytes (w.write args).2.2.device.blocksize
          (callOp (args'.call true)) := by
        rw [hdevice, blockBytes_callOp, hfits'.length, hcount]
        exact hj
      have hfirst : firstByte (w.write args).2.2.device.blocksize (callOp (args'.call true)) =
          firstByte w.device.blocksize (callOp (args.call false)) := by
        rw [hdevice, firstByte_callOp, firstByte_callOp, hsector]
      -- From the staging buffer of the read back to the device, to the staging buffer of
      -- the write, and to the client's buffer.
      calc ((w.write args).2.2.read args').2.2.api.shared.heap (args'.buff + BitVec.ofNat 64 j)
          = (perform (w.write args).2.2.device (callOp (args'.call true))
              (calloc (w.write args).2.2.api.shared.heap args'.tempBuff args'.bytes)).2
              (args'.tempBuff + BitVec.ofNat 64 j) := by
            rw [hheap, memcpy_add _ _ _ (by omega)]
        _ = (w.write args).2.2.device.contents
              (firstByte w.device.blocksize (callOp (args.call false)) + j) := by
            rw [← hfirst]
            exact perform_read _ _ rfl hlength' (by omega)
        _ = writeHeap w.api.shared.heap args (args.tempBuff + BitVec.ofNat 64 j) := by
            rw [hdevice]
            exact perform_write _ _ rfl hlength
        _ = w.api.shared.heap (args.buff + BitVec.ofNat 64 j) :=
            writeHeap_add _ (by omega) (hfresh j hj)

end WriteRead

/-- On a device with blocks of 512 bytes the numbers have to survive their narrowing. -/
theorem fitsDevice_512_iff (args : DiskArgs) :
    FitsDevice 512 args ↔ args.sector.toNat < 2 ^ 31 ∧ args.count.toNat < 2 ^ 16 := by
  have hsector := args.sector.isLt
  have hint := BitVec.toInt_eq_toNat_cond args.sector
  constructor
  · intro h
    have hfirst := h.first
    have hlength := h.length
    split_ifs at hint <;> omega
  · rintro ⟨hlow, hshort⟩
    refine ⟨?_, by omega, by omega⟩
    split_ifs at hint <;> omega

/-- A client with one drive, whose memory and whose device hold zeros. -/
def idleWorld (blocksize : ℕ) : DiskWorld (Fifo.bounded BlkReq 0) (Fifo.bounded Answer 0) :=
  ⟨ApiState.fresh oneDrive 0, ⟨blocksize, fun _ => 0#8⟩⟩

theorem idle_idleWorld (blocksize : ℕ) : Idle (idleWorld blocksize).api :=
  ⟨⟨drive 5#32 0#32, rfl, by decide, rfl⟩, rfl, rfl⟩

/-- One sector, staged in a block behind the buffer. -/
def oneSector : DiskArgs := ⟨0#8, 0x1000#64, 7#32, 1#32, 0x2000#64⟩

theorem oneSector_fresh : ∀ j < 512 * oneSector.count.toNat,
    ¬ (oneSector.buff + BitVec.ofNat 64 j - oneSector.tempBuff).toNat <
      oneSector.bytes.toNat := by
  intro j hj
  have hcount : oneSector.count.toNat = 1 := rfl
  have hbytes : oneSector.bytes.toNat = 512 := by decide
  rw [hcount] at hj
  rw [hbytes, oneSector, BitVec.toNat_sub, BitVec.toNat_add, BitVec.toNat_ofNat]
  simp only [BitVec.toNat_ofNat]
  omega

/-- One sector goes through a device with blocks of 512 bytes. -/
theorem transfers_oneSector : Transfers (idleWorld 512) oneSector oneSector :=
  (transfers_iff (idle_idleWorld 512) (by decide) rfl rfl oneSector_fresh).mpr
    ⟨by decide, by decide, by decide⟩

/-- With blocks of 4096 bytes a single sector moves the wrong bytes, and more of them than
were staged. -/
theorem oneSector_overruns_staging :
    ¬ ∀ (w : DiskWorld (Fifo.bounded BlkReq 0) (Fifo.bounded Answer 0)) (args args' : DiskArgs),
      Idle w.api → 0 < args.count.toNat → args'.sector = args.sector →
      args'.count = args.count →
      (∀ j < 512 * args.count.toNat,
        ¬ (args.buff + BitVec.ofNat 64 j - args.tempBuff).toNat < args.bytes.toNat) →
      Transfers w args args' := by
  intro h
  have htransfers := h (idleWorld 4096) oneSector oneSector (idle_idleWorld 4096) (by decide) rfl
    rfl oneSector_fresh
  obtain ⟨req, op, hissued, hop, -, hstaging⟩ := htransfers.write
  -- One block is asked for, which is eight times what was staged.
  have hrequest : issued ((idleWorld 4096).write oneSector).2.1 =
      [⟨.writeBlocks, 0x2000#64, 7#32, 1#16, 0#32⟩] := by decide
  rw [hrequest] at hissued
  obtain rfl := List.singleton_injective hissued
  obtain rfl := XferAction.start.inj hop
  exact absurd hstaging (by decide)

end Sel4Xhci.Disk
