import Sel4Xhci.Fat.Chain

/-!
# Files

A file object holds one sector of the file in `buf`, behind the back of the window: its data is
read and written with `disk_read` and `disk_write` directly. Whole sectors go straight to or from
the caller's buffer, up to the end of the cluster; only the ends of a request go through `buf`.

`f_read` follows the chain of the file cluster by cluster, `f_write` stretches it where it ends,
and `f_lseek` does either. A file object that has met an error is out of use.

## Main definitions

* `Fil` — the file object
* `fRead`, `fWrite`, `fLseek`, `flushBuf` — the code
-/

set_option autoImplicit false

namespace Sel4Xhci.Fat

open Semantics CString Loop Disk

/-- `FIL`: an open file of the mounted volume. -/
structure Fil where
  sclust : BitVec 32
  objsize : BitVec 32
  faRead : Bool
  faWrite : Bool
  faModified : Bool
  faDirty : Bool
  err : FResult
  fptr : BitVec 32
  clust : BitVec 32
  sect : Lba
  buf : Sector

/-- `memcpy` of `n` bytes to the `start`-th byte of a buffer. -/
def blit (dst : ℕ → Byte) (start n : ℕ) (src : ℕ → Byte) : ℕ → Byte := fun i =>
  if start ≤ i ∧ i < start + n then src (i - start) else dst i

/-- The bytes of a buffer of sectors. -/
def bytesOf (buff : ℕ → Sector) (i : ℕ) : Byte := buff (i / 512) (Fin.ofNat 512 i)

/-- A buffer of bytes, as sectors. -/
def sectorsOf (bytes : ℕ → Byte) (k : ℕ) : Sector := fun i => bytes (512 * k + i)

/-- A request on its way: `left` bytes are to be transferred, `done` were. -/
structure Transfer (δ : Type) where
  vol : Volume δ
  fil : Fil
  left : BitVec 32
  done : BitVec 32
  rbuff : ℕ → Byte

variable {δ : Type} (drive : Drive δ)

/-- `ABORT`: the file object is out of use. -/
def Fil.abort (fil : Fil) (res : FResult) : Fil := { fil with err := res }

/-- A dirty buffer is written back. -/
def flushBuf (vol : Volume δ) (fil : Fil) : FResult × Volume δ × Fil :=
  if fil.faDirty then
    match drive.diskWrite vol.disk (fun _ => fil.buf) fil.sect 1 with
    | (.ok, disk) => (.ok, { vol with disk := disk }, { fil with faDirty := false })
    | (_, disk) => (.diskErr, { vol with disk := disk }, fil)
  else (.ok, vol, fil)

/-- The buffer is filled with a sector. -/
def fillBuf (vol : Volume δ) (fil : Fil) (sect : Lba) : FResult × Volume δ × Fil :=
  match drive.diskRead vol.disk sect 1 with
  | (.ok, buff, disk) => (.ok, { vol with disk := disk }, { fil with buf := buff 0 })
  | (_, buff, disk) => (.diskErr, { vol with disk := disk }, { fil with buf := buff 0 })

/-- `fptr / SS(fs) & (csize - 1)`: the sector within the cluster. -/
def sectorOffset (vol : Volume δ) (fil : Fil) : BitVec 32 :=
  fil.fptr / 512#32 &&& (vol.fs.csize.setWidth 32 - 1#32)

/-- `cc`: the whole sectors that are left, clipped at the end of the cluster. -/
def wholeSectors (vol : Volume δ) (csect left : BitVec 32) : BitVec 32 :=
  let cc := left / 512#32
  if csect + cc > vol.fs.csize.setWidth 32 then vol.fs.csize.setWidth 32 - csect else cc

/-- `rcnt`, `wcnt`: the bytes that are left in the sector, clipped by the request. -/
def bytesInSector (fil : Fil) (left : BitVec 32) : BitVec 32 :=
  let cnt := 512#32 - fil.fptr % 512#32
  if cnt > left then left else cnt

/-! ## Reading -/

/-- On a cluster boundary `f_read` follows the chain. -/
def readCluster (vol : Volume δ) (fil : Fil) : FResult × Volume δ × Fil :=
  if sectorOffset vol fil = 0#32 then
    let (clst, vol) :=
      if fil.fptr = 0#32 then (fil.sclust, vol) else getFat drive vol fil.clust
    if clst < 2#32 then (.intErr, vol, fil)
    else if clst = diskError then (.diskErr, vol, fil)
    else (.ok, vol, { fil with clust := clst })
  else (.ok, vol, fil)

/-- The sector is brought into the buffer, if it is not there. -/
def loadSector (vol : Volume δ) (fil : Fil) (sect : Lba) : FResult × Volume δ × Fil :=
  if fil.sect ≠ sect then
    match flushBuf drive vol fil with
    | (.ok, vol, fil) =>
      match fillBuf drive vol fil sect with
      | (.ok, vol, fil) => (.ok, vol, { fil with sect := sect })
      | (res, vol, fil) => (res, vol, fil)
    | (res, vol, fil) => (res, vol, fil)
  else (.ok, vol, fil)

/-- `cnt` bytes of the request were read. -/
def Transfer.readDone (s : Transfer δ) (cnt : BitVec 32) (src : ℕ → Byte) : Transfer δ :=
  { s with
    left := s.left - cnt
    done := s.done + cnt
    rbuff := blit s.rbuff s.done.toNat cnt.toNat src
    fil := { s.fil with fptr := s.fil.fptr + cnt } }

/-- Bytes of the buffer are copied to the caller. -/
def Transfer.readBytes (s : Transfer δ) : Transfer δ :=
  let ofs := (s.fil.fptr % 512#32).toNat
  s.readDone (bytesInSector s.fil s.left) fun i => s.fil.buf (Fin.ofNat 512 (ofs + i))

/-- Whole sectors are read into the caller's buffer; one that is dirty in `buf` is taken from
there. -/
def Transfer.readSectors (s : Transfer δ) (sect : Lba) (cc : BitVec 32) :
    Transfer δ ⊕ FResult × Transfer δ :=
  match drive.diskRead s.vol.disk sect cc.toNat with
  | (.ok, buff, disk) =>
    let buff := if s.fil.faDirty ∧ s.fil.sect - sect < cc then
        Function.update buff (s.fil.sect - sect).toNat s.fil.buf
      else buff
    .inl (({ s with vol := { s.vol with disk := disk } } : Transfer δ).readDone (512#32 * cc)
      (bytesOf buff))
  | (_, buff, disk) =>
    .inr (.diskErr, { s with
      vol := { s.vol with disk := disk }
      fil := s.fil.abort .diskErr
      rbuff := blit s.rbuff s.done.toNat (512 * cc.toNat) (bytesOf buff) })

/-- A round of the loop of `f_read`. -/
def readRound (s : Transfer δ) : Transfer δ ⊕ FResult × Transfer δ :=
  if s.left = 0#32 then .inr (.ok, s)
  else if s.fil.fptr % 512#32 = 0#32 then
    let csect := sectorOffset s.vol s.fil
    match readCluster drive s.vol s.fil with
    | (.ok, vol, fil) =>
      let s := { s with vol := vol, fil := fil }
      let sect := clst2sect vol.fs.toLayout fil.clust
      if sect = 0#32 then .inr (.intErr, { s with fil := fil.abort .intErr })
      else
        let sect := sect + csect
        if s.left / 512#32 > 0#32 then s.readSectors drive sect (wholeSectors vol csect s.left)
        else
          match loadSector drive vol fil sect with
          | (.ok, vol, fil) => .inl ({ s with vol := vol, fil := fil } : Transfer δ).readBytes
          | (res, vol, fil) => .inr (res, { s with vol := vol, fil := fil.abort res })
    | (res, vol, fil) => .inr (res, { s with vol := vol, fil := fil.abort res })
  else .inl s.readBytes

/-- `f_read`; the request is clipped at the end of the file. -/
def fRead (fuel : ℕ) (vol : Volume δ) (fil : Fil) (btr : BitVec 32) (rbuff : ℕ → Byte) :
    Option (FResult × Transfer δ) :=
  if fil.err ≠ .ok then some (fil.err, ⟨vol, fil, btr, 0#32, rbuff⟩)
  else if ¬ fil.faRead then some (.denied, ⟨vol, fil, btr, 0#32, rbuff⟩)
  else
    let remain := fil.objsize - fil.fptr
    let btr := if btr > remain then remain else btr
    (loop (readRound drive) fuel ⟨vol, fil, btr, 0#32, rbuff⟩).map Prod.snd

/-! ## Writing -/

/-- `create_chain`, with fuel for all clusters. -/
def stretch (vol : Volume δ) (clst : BitVec 32) : BitVec 32 × Volume δ :=
  (createChain drive (vol.fs.nFatent.toNat + 1) vol clst).getD (1#32, vol)

/-- On a cluster boundary `f_write` follows the chain, and stretches it where it ends; `none` when
there is no cluster left. -/
def writeCluster (vol : Volume δ) (fil : Fil) : Option FResult × Volume δ × Fil :=
  if sectorOffset vol fil = 0#32 then
    let (clst, vol) :=
      if fil.fptr = 0#32 then
        if fil.sclust = 0#32 then stretch drive vol 0#32 else (fil.sclust, vol)
      else stretch drive vol fil.clust
    if clst = 0#32 then (none, vol, fil)
    else if clst = 1#32 then (some .intErr, vol, fil)
    else if clst = diskError then (some .diskErr, vol, fil)
    else (some .ok, vol, { fil with
      clust := clst
      sclust := if fil.sclust = 0#32 then clst else fil.sclust })
  else (some .ok, vol, fil)

/-- `cnt` bytes of the request were written. -/
def Transfer.writeDone (s : Transfer δ) (cnt : BitVec 32) : Transfer δ :=
  let fptr := s.fil.fptr + cnt
  { s with
    left := s.left - cnt
    done := s.done + cnt
    fil := { s.fil with
      fptr := fptr
      objsize := if fptr > s.fil.objsize then fptr else s.fil.objsize } }

/-- Bytes of the caller are copied to the buffer, which is dirty then. -/
def Transfer.writeBytes (s : Transfer δ) (wbuff : ℕ → Byte) : Transfer δ :=
  let cnt := bytesInSector s.fil s.left
  let ofs := (s.fil.fptr % 512#32).toNat
  ({ s with fil := { s.fil with
      buf := fun j => blit (fun i => s.fil.buf (Fin.ofNat 512 i)) ofs cnt.toNat
        (fun i => wbuff (s.done.toNat + i)) j
      faDirty := true } } : Transfer δ).writeDone cnt

/-- Whole sectors of the caller are written; if one of them is in `buf`, it is renewed there. -/
def Transfer.writeSectors (s : Transfer δ) (wbuff : ℕ → Byte) (sect : Lba) (cc : BitVec 32) :
    Transfer δ ⊕ FResult × Transfer δ :=
  let wsect := sectorsOf fun i => wbuff (s.done.toNat + i)
  match drive.diskWrite s.vol.disk wsect sect cc.toNat with
  | (.ok, disk) =>
    let fil := if s.fil.sect - sect < cc then
        { s.fil with buf := wsect (s.fil.sect - sect).toNat, faDirty := false }
      else s.fil
    .inl (({ s with vol := { s.vol with disk := disk }, fil := fil } : Transfer δ).writeDone
      (512#32 * cc))
  | (_, disk) =>
    .inr (.diskErr, { s with
      vol := { s.vol with disk := disk }
      fil := s.fil.abort .diskErr })

/-- The sector comes into the buffer, if it holds file data already. -/
def prepareSector (vol : Volume δ) (fil : Fil) (sect : Lba) : FResult × Volume δ × Fil :=
  if fil.sect ≠ sect ∧ fil.fptr < fil.objsize then
    match fillBuf drive vol fil sect with
    | (.ok, vol, fil) => (.ok, vol, { fil with sect := sect })
    | (res, vol, fil) => (res, vol, fil)
  else (.ok, vol, { fil with sect := sect })

/-- A round of the loop of `f_write`. -/
def writeRound (wbuff : ℕ → Byte) (s : Transfer δ) : Transfer δ ⊕ FResult × Transfer δ :=
  if s.left = 0#32 then .inr (.ok, s)
  else if s.fil.fptr % 512#32 = 0#32 then
    let csect := sectorOffset s.vol s.fil
    match writeCluster drive s.vol s.fil with
    | (none, vol, fil) => .inr (.ok, { s with vol := vol, fil := fil })
    | (some .ok, vol, fil) =>
      match flushBuf drive vol fil with
      | (.ok, vol, fil) =>
        let s := { s with vol := vol, fil := fil }
        let sect := clst2sect vol.fs.toLayout fil.clust
        if sect = 0#32 then .inr (.intErr, { s with fil := fil.abort .intErr })
        else
          let sect := sect + csect
          if s.left / 512#32 > 0#32 then
            s.writeSectors drive wbuff sect (wholeSectors vol csect s.left)
          else
            match prepareSector drive vol fil sect with
            | (.ok, vol, fil) =>
              .inl (({ s with vol := vol, fil := fil } : Transfer δ).writeBytes wbuff)
            | (res, vol, fil) => .inr (res, { s with vol := vol, fil := fil.abort res })
      | (res, vol, fil) => .inr (res, { s with vol := vol, fil := fil.abort res })
    | (some res, vol, fil) => .inr (res, { s with vol := vol, fil := fil.abort res })
  else .inl (s.writeBytes wbuff)

/-- `f_write`; the request is clipped where the file would reach 4 GiB. The file counts as modified
unless the request was aborted. -/
def fWrite (fuel : ℕ) (vol : Volume δ) (fil : Fil) (btw : BitVec 32) (wbuff : ℕ → Byte) :
    Option (FResult × Transfer δ) :=
  if fil.err ≠ .ok then some (fil.err, ⟨vol, fil, btw, 0#32, wbuff⟩)
  else if ¬ fil.faWrite then some (.denied, ⟨vol, fil, btw, 0#32, wbuff⟩)
  else
    let btw := if fil.fptr + btw < fil.fptr then 0xffffffff#32 - fil.fptr else btw
    (loop (writeRound drive wbuff) fuel ⟨vol, fil, btw, 0#32, wbuff⟩).map fun
      | (_, .ok, s) => (.ok, { s with fil := { s.fil with faModified := true } })
      | (_, res, s) => (res, s)

/-! ## Seeking -/

/-- A seek on its way: `ofs` bytes are left from the position of the file object on, in the cluster
`clst` and behind it. -/
structure Seek (δ : Type) where
  vol : Volume δ
  fil : Fil
  clst : BitVec 32
  ofs : BitVec 32

/-- `bcs`: the bytes in a cluster. -/
def clusterBytes (l : Layout) : BitVec 32 := l.csize.setWidth 32 * 512#32

/-- `f_lseek` starts from the current cluster if the seek goes there or further, else from the
first one; a file that has no cluster gets one. -/
def seekStart (vol : Volume δ) (fil : Fil) (ofs : BitVec 32) : FResult × Seek δ :=
  let bcs := clusterBytes vol.fs.toLayout
  if fil.fptr > 0#32 ∧ (ofs - 1#32) / bcs ≥ (fil.fptr - 1#32) / bcs then
    let fptr := (fil.fptr - 1#32) &&& ~~~(bcs - 1#32)
    (.ok, ⟨vol, { fil with fptr := fptr }, fil.clust, ofs - fptr⟩)
  else
    let fil := { fil with fptr := 0#32 }
    let (clst, vol) := if fil.sclust = 0#32 then stretch drive vol 0#32 else (fil.sclust, vol)
    if fil.sclust = 0#32 ∧ clst = 1#32 then (.intErr, ⟨vol, fil.abort .intErr, clst, ofs⟩)
    else if fil.sclust = 0#32 ∧ clst = diskError then
      (.diskErr, ⟨vol, fil.abort .diskErr, clst, ofs⟩)
    else (.ok, ⟨vol, { fil with sclust := clst, clust := clst }, clst, ofs⟩)

/-- A round of the loop that follows the chain, and stretches it in write mode. -/
def seekRound (s : Seek δ) : Seek δ ⊕ FResult × Seek δ :=
  let bcs := clusterBytes s.vol.fs.toLayout
  if s.ofs > bcs then
    let fil := { s.fil with fptr := s.fil.fptr + bcs }
    let (clst, vol) :=
      if fil.faWrite then stretch drive s.vol s.clst else getFat drive s.vol s.clst
    if fil.faWrite ∧ clst = 0#32 then .inr (.ok, ⟨vol, fil, clst, 0#32⟩)
    else if clst = diskError then .inr (.diskErr, ⟨vol, fil.abort .diskErr, clst, s.ofs - bcs⟩)
    else if clst ≤ 1#32 ∨ clst ≥ vol.fs.nFatent then
      .inr (.intErr, ⟨vol, fil.abort .intErr, clst, s.ofs - bcs⟩)
    else .inl ⟨vol, { fil with clust := clst }, clst, s.ofs - bcs⟩
  else .inr (.ok, s)

/-- The sector at the end of the seek, 0 if it ends on a sector boundary. -/
def seekSector (s : Seek δ) : FResult × Seek δ × Lba :=
  let s := { s with fil := { s.fil with fptr := s.fil.fptr + s.ofs } }
  if s.ofs % 512#32 ≠ 0#32 then
    let nsect := clst2sect s.vol.fs.toLayout s.clst
    if nsect = 0#32 then (.intErr, { s with fil := s.fil.abort .intErr }, 0#32)
    else (.ok, s, nsect + s.ofs / 512#32)
  else (.ok, s, 0#32)

/-- The chain is followed to the end of the seek. -/
def seekChain (fuel : ℕ) (vol : Volume δ) (fil : Fil) (ofs : BitVec 32) :
    Option (FResult × Seek δ × Lba) :=
  if ofs > 0#32 then
    match seekStart drive vol fil ofs with
    | (.ok, s) =>
      if s.clst ≠ 0#32 then
        (loop (seekRound drive) fuel s).map fun
          | (_, .ok, s) => seekSector s
          | (_, res, s) => (res, s, 0#32)
      else some (.ok, s, 0#32)
    | (res, s) => some (res, s, 0#32)
  else some (.ok, ⟨vol, { fil with fptr := 0#32 }, fil.clust, ofs⟩, 0#32)

/-- The file is made as long as the position, if it is not as long already. -/
def Fil.lengthen (fil : Fil) : Fil :=
  if fil.fptr > fil.objsize then { fil with objsize := fil.fptr, faModified := true } else fil

/-- `f_lseek`; a file that is not open for writing is not made longer. -/
def fLseek (fuel : ℕ) (vol : Volume δ) (fil : Fil) (ofs : BitVec 32) :
    Option (FResult × Volume δ × Fil) :=
  if fil.err ≠ .ok then some (fil.err, vol, fil)
  else
    let ofs := if ofs > fil.objsize ∧ ¬ fil.faWrite then fil.objsize else ofs
    (seekChain drive fuel vol fil ofs).map fun
      | (.ok, ⟨vol, fil, _, _⟩, nsect) =>
        let fil := fil.lengthen
        if fil.fptr % 512#32 ≠ 0#32 then
          match loadSector drive vol fil nsect with
          | (.ok, vol, fil) => (.ok, vol, fil)
          | (res, vol, fil) => (res, vol, fil.abort res)
        else (.ok, vol, fil)
      | (res, s, _) => (res, s.vol, s.fil)

end Sel4Xhci.Fat
