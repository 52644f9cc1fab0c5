import Sel4Xhci.Disk.Transfer
import Sel4Xhci.Fat.Volume

/-!
# The USB drive as a drive under FatFs

`disk_read` and `disk_write` of the glue, with the driver at work, keep what FatFs expects of a
drive, as long as the device has blocks of 512 bytes and the volume lies in its first 2³¹ sectors:
the sector number reaches the device as an `int`.

## Main definitions

* `UsbDrive` — the client with an idle drive of such a device
* `usbDrive` — it is a `Drive`
* `blankVolume` — a small volume on it

## Main results

* `readSectors_filled`, `writeSectors_stored`, `writeSectors_frame` — the promises of a drive
-/

set_option autoImplicit false

namespace Sel4Xhci.Fat

open Semantics CString Disk Umass

variable {RQ : Fifo BlkReq} {SQ : Fifo Answer}

/-- The client with an idle USB drive; the device has blocks of 512 bytes. -/
structure UsbDrive (RQ : Fifo BlkReq) (SQ : Fifo Answer) where
  world : DiskWorld RQ SQ
  idle : Idle world.api
  blocksize : world.device.blocksize = 512

/-- A call for `n` sectors. FatFs' buffer and the block that `calloc` returns are apart. -/
def sectorArgs (s : Lba) (n : ℕ) : DiskArgs :=
  ⟨0#8, 0#64, s, BitVec.ofNat 32 n, 0x100000#64⟩

/-- The sectors of a buffer in memory. -/
def bufferAt (heap : BitVec 64 → BitVec 8) (p : BitVec 64) (k : ℕ) : Sector :=
  fun i => heap (p + BitVec.ofNat 64 (512 * k + i))

/-- The memory with a buffer of `n` sectors in it. -/
def placeBuffer (heap : BitVec 64 → BitVec 8) (p : BitVec 64) (buff : ℕ → Sector) (n : ℕ) :
    BitVec 64 → BitVec 8 := fun a =>
  let j := (a - p).toNat
  if j < 512 * n then buff (j / 512) (Fin.ofNat 512 j) else heap a

/-- The result code, if the call returns with one. -/
def resultOf : DiskExit → DResult
  | .returns (some res) => res
  | .returns none => .error
  | .spins => .error
  | .fault => .error

/-- The sectors of the device. -/
def UsbDrive.content (d : UsbDrive RQ SQ) (s : Lba) : Sector :=
  fun i => d.world.device.contents (512 * s.toNat + i)

/-- The world with `buff` in FatFs' buffer. -/
def UsbDrive.withBuffer (d : UsbDrive RQ SQ) (buff : ℕ → Sector) (s : Lba) (n : ℕ) :
    DiskWorld RQ SQ :=
  ⟨onHeap d.world.api fun heap => placeBuffer heap (sectorArgs s n).buff buff n, d.world.device⟩

section Served

variable {w : DiskWorld RQ SQ}

theorem idle_onHeap {s : ApiState RQ SQ} (h : Idle s)
    (f : (BitVec 64 → BitVec 8) → BitVec 64 → BitVec 8) : Idle (onHeap s f) :=
  ⟨h.drive, h.reqQueue, h.respQueue⟩

/-- A read succeeds, leaves the device and the drive idle. -/
theorem read_idle (h : Idle w.api) (args : DiskArgs) :
    (w.read args).1 = .returns (some .ok) ∧ Idle (w.read args).2.2.api ∧
      (w.read args).2.2.device = w.device := by
  obtain ⟨req, events, s', hcall, -, -, -, hdevice, hidle⟩ :=
    request_served (idle_onHeap h _) w.device (c := args.call true) rfl
  have hread : (diskRead (serveBy w.device) w.api args).1 = .returns (some .ok) := by
    rw [diskRead, readReady, hcall]
    rfl
  refine ⟨hread, ?_, ?_⟩
  · simp only [DiskWorld.read, diskRead, readReady, hcall]
    exact idle_onHeap hidle _
  · simp only [DiskWorld.read]
    rw [readReady, hdevice]
    rfl

/-- So does a write. -/
theorem write_idle (h : Idle w.api) (args : DiskArgs) :
    (w.write args).1 = .returns (some .ok) ∧ Idle (w.write args).2.2.api := by
  obtain ⟨req, events, s', hcall, -, -, -, -, hidle⟩ :=
    request_served (idle_onHeap (idle_onHeap h _) _) w.device (c := args.call false) rfl
  have hwrite : diskWrite (serveBy w.device) w.api args =
      (.returns (some .ok), events, s') := by
    rw [diskWrite, writeReady, readReady, hcall]
    rfl
  simp only [DiskWorld.write, hwrite]
  exact ⟨trivial, hidle⟩

end Served

/-- `disk_read`, seen from FatFs. -/
def readSectors (d : UsbDrive RQ SQ) (s : Lba) (n : ℕ) :
    DResult × (ℕ → Sector) × UsbDrive RQ SQ :=
  let result := d.world.read (sectorArgs s n)
  (resultOf result.1, bufferAt result.2.2.api.shared.heap (sectorArgs s n).buff, {
    world := result.2.2
    idle := (read_idle d.idle _).2.1
    blocksize := by rw [(read_idle d.idle _).2.2]; exact d.blocksize })

theorem idle_withBuffer (d : UsbDrive RQ SQ) (buff : ℕ → Sector) (s : Lba) (n : ℕ) :
    Idle (d.withBuffer buff s n).api :=
  ⟨d.idle.drive, d.idle.reqQueue, d.idle.respQueue⟩

/-- `disk_write`, seen from FatFs. -/
def writeSectors (d : UsbDrive RQ SQ) (buff : ℕ → Sector) (s : Lba) (n : ℕ) :
    DResult × UsbDrive RQ SQ :=
  let result := (d.withBuffer buff s n).write (sectorArgs s n)
  (resultOf result.1, {
    world := result.2.2
    idle := (write_idle (idle_withBuffer d buff s n) _).2
    blocksize := by
      obtain ⟨-, -, -, hdevice, -⟩ := write_served (idle_withBuffer d buff s n) (sectorArgs s n)
      rw [hdevice]
      exact d.blocksize })

/-! ## The promises of a drive -/

section Promises

variable {d : UsbDrive RQ SQ} {buff : ℕ → Sector} {s t : Lba} {n : ℕ}

theorem sectorArgs_bytes (hn : n ≤ 128) : (sectorArgs s n).bytes.toNat = 512 * n := by
  rw [toNat_bytes]
  simp only [sectorArgs, BitVec.toNat_ofNat]
  omega

/-- The sector number survives its way to the device, and so does the number of sectors. -/
theorem firstByte_sector (hs : s.toNat < 2 ^ 31) (read : Bool) :
    firstByte 512 (callOp ((sectorArgs s n).call read)) = 512 * s.toNat := by
  rw [firstByte_callOp]
  simp only [sectorArgs]
  rw [BitVec.toInt_eq_toNat_cond, if_pos (by omega)]
  rfl

theorem blockBytes_sector (hn : n ≤ 128) (read : Bool) :
    blockBytes 512 (callOp ((sectorArgs s n).call read)) = 512 * n := by
  rw [blockBytes_callOp]
  simp only [sectorArgs, BitVec.toNat_ofNat]
  omega

theorem toNat_sector_add {k : ℕ} (h : s.toNat + k < 2 ^ 31) :
    (s + BitVec.ofNat 32 k).toNat = s.toNat + k := by
  rw [BitVec.toNat_add, BitVec.toNat_ofNat]
  omega

theorem readSectors_filled (hn : n ≤ 128) (hs : s.toNat + n ≤ 2 ^ 31) :
    ∀ k < n, (readSectors d s n).2.1 k = d.content (s + BitVec.ofNat 32 k) := by
  intro k hk
  funext i
  obtain ⟨-, -, -, hheap⟩ := read_served d.idle (sectorArgs s n)
  have hlt : 512 * k + i.val < 512 * n := by omega
  change (d.world.read (sectorArgs s n)).2.2.api.shared.heap _ = _
  rw [hheap, memcpy_add _ _ _ (by rwa [sectorArgs_bytes hn])]
  have hread := perform_read d.world.device
    (calloc d.world.api.shared.heap (sectorArgs s n).tempBuff (sectorArgs s n).bytes)
    (show (callOp ((sectorArgs s n).call true)).read = true from rfl)
    (j := 512 * k + i) (by rwa [d.blocksize, blockBytes_sector hn]) (by omega)
  refine hread.trans ?_
  rw [d.blocksize, firstByte_sector (by omega), UsbDrive.content, toNat_sector_add (by omega)]
  congr 1
  omega

theorem content_readSectors : (readSectors d s n).2.2.content = d.content := by
  unfold UsbDrive.content readSectors
  rw [(read_idle d.idle _).2.2]

theorem writeSectors_stored (hn : n ≤ 128) (hs : s.toNat + n ≤ 2 ^ 31) :
    ∀ k < n, (writeSectors d buff s n).2.content (s + BitVec.ofNat 32 k) = buff k := by
  intro k hk
  funext i
  obtain ⟨-, -, -, hdevice, -⟩ := write_served (idle_withBuffer d buff s n) (sectorArgs s n)
  have hlt : 512 * k + i.val < 512 * n := by omega
  change ((d.withBuffer buff s n).write (sectorArgs s n)).2.2.device.contents _ = _
  rw [hdevice, toNat_sector_add (by omega)]
  have hwrite := perform_write (d.withBuffer buff s n).device
    (writeHeap (d.withBuffer buff s n).api.shared.heap (sectorArgs s n))
    (show (callOp ((sectorArgs s n).call false)).read = false from rfl)
    (j := 512 * k + i) (by
      change _ < blockBytes d.world.device.blocksize _
      rwa [d.blocksize, blockBytes_sector hn])
  have hfirst : firstByte (d.withBuffer buff s n).device.blocksize
      (callOp ((sectorArgs s n).call false)) = 512 * s.toNat := by
    change firstByte d.world.device.blocksize _ = _
    rw [d.blocksize, firstByte_sector (by omega)]
  rw [hfirst] at hwrite
  have hpos : (512 * ((s.toNat + k : ℕ) : ℤ) + i.val) =
      512 * s.toNat + ((512 * k + i.val : ℕ) : ℤ) := by
    omega
  rw [hpos]
  refine hwrite.trans ?_
  -- The staging buffer was filled from FatFs' buffer.
  have hstaged := writeHeap_add (d.withBuffer buff s n).api.shared.heap
    (show 512 * k + i.val < (sectorArgs s n).bytes.toNat by rwa [sectorArgs_bytes hn]) ?_
  · refine hstaged.trans ?_
    change placeBuffer d.world.api.shared.heap 0#64 buff n (0#64 + BitVec.ofNat 64 _) = _
    have hj := toNat_offset 0#64 (j := 512 * k + i.val) (by omega)
    simp only [placeBuffer, hj, if_pos hlt]
    have hk' : (512 * k + i.val) / 512 = k := by omega
    have hi : Fin.ofNat 512 (512 * k + i.val) = i := by
      rw [Fin.ext_iff, Fin.val_ofNat]
      omega
    rw [hk', hi]
  · rw [sectorArgs_bytes hn]
    simp only [sectorArgs, BitVec.toNat_sub, BitVec.toNat_add, BitVec.toNat_ofNat]
    omega

theorem writeSectors_frame (hn : n ≤ 128) (hs : s.toNat + n ≤ 2 ^ 31)
    (ht : ∀ k < n, t ≠ s + BitVec.ofNat 32 k) :
    (writeSectors d buff s n).2.content t = d.content t := by
  obtain ⟨-, -, -, hdevice, -⟩ := write_served (idle_withBuffer d buff s n) (sectorArgs s n)
  funext i
  change ((d.withBuffer buff s n).write (sectorArgs s n)).2.2.device.contents _ = _
  have hblock : (d.withBuffer buff s n).device.blocksize = 512 := d.blocksize
  have hread : (callOp ((sectorArgs s n).call false)).read = false := rfl
  rw [hdevice]
  simp only [perform, hread, Bool.false_eq_true, if_false, hblock, blockBytes_sector hn]
  rw [if_neg]
  · rfl
  rintro ⟨hle, hlt⟩
  -- A byte that was written is in one of the sectors written.
  by_cases hpos : n = 0
  · subst hpos
    omega
  · rw [firstByte_sector (by omega)] at hle hlt
    refine ht (t.toNat - s.toNat) (by omega) (BitVec.eq_of_toNat_eq ?_)
    rw [toNat_sector_add (by omega)]
    omega

end Promises

/-- The USB drive, as far as FatFs can reach it. -/
def usbDrive (RQ : Fifo BlkReq) (SQ : Fifo Answer) : Drive (UsbDrive RQ SQ) where
  size := 2 ^ 31
  size_lt := by decide
  content := UsbDrive.content
  diskRead := readSectors
  diskWrite := writeSectors
  read_ok hn hs _ := readSectors_filled hn hs
  content_read _ _ := content_readSectors
  write_ok hn hs _ := writeSectors_stored hn hs
  write_frame hn hs ht := writeSectors_frame hn hs ht

@[simp] theorem usbDrive_content (d : UsbDrive RQ SQ) : (usbDrive RQ SQ).content d = d.content :=
  rfl

/-! ## Small volumes -/

/-- A small volume: two FATs in sectors 1 and 2, and 98 clusters of one sector from sector 4 on. -/
def smallLayout : Layout where
  fsType := .fat16
  nFats := 2#8
  nRootdir := 16#16
  csize := 1#16
  nFatent := 100#32
  fsize := 1#32
  volbase := 0#32
  fatbase := 1#32
  dirbase := 3#32
  database := 4#32

/-- It is on a drive that holds zeros, and nothing was read from it yet. -/
def blankVolume : Volume (UsbDrive (Fifo.bounded BlkReq 0) (Fifo.bounded Answer 0)) where
  fs := { smallLayout with
    wflag := false
    fsiFlag := 0#8
    lastClst := 0#32
    freeClst := 98#32
    winsect := noSector
    win := fun _ => 0#8 }
  disk := ⟨idleWorld 512, idle_idleWorld 512, rfl⟩

theorem writeSectors_ok (d : UsbDrive RQ SQ) (buff : ℕ → Sector) (s : Lba) (n : ℕ) :
    (writeSectors d buff s n).1 = .ok := by
  change resultOf ((d.withBuffer buff s n).write (sectorArgs s n)).1 = .ok
  rw [(write_idle (idle_withBuffer d buff s n) _).1]
  rfl

theorem readSectors_ok (d : UsbDrive RQ SQ) (s : Lba) (n : ℕ) : (readSectors d s n).1 = .ok := by
  change resultOf (d.world.read (sectorArgs s n)).1 = .ok
  rw [(read_idle d.idle _).1]
  rfl

/-- The transfers of an idle drive succeed. -/
theorem usbDrive_not_failing : ¬ (usbDrive RQ SQ).Failing := by
  rintro (⟨d, s, n, -, -, hbad⟩ | ⟨d, buff, s, n, -, -, hbad⟩)
  · exact hbad (readSectors_ok d s n)
  · exact hbad (writeSectors_ok d buff s n)

theorem blankVolume_ready : blankVolume.Ready (usbDrive _ _) :=
  ⟨⟨.inr rfl, by decide⟩, fun hne => absurd rfl hne, nofun⟩

end Sel4Xhci.Fat
