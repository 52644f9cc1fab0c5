import Mathlib.Algebra.GroupWithZero.Nat
import Sel4Xhci.Disk.Diskio
import Sel4Xhci.Semantics.CString
import Sel4Xhci.Semantics.WriteBack

/-!
# A FAT volume and its disk access window

The filesystem object of FatFs holds one sector of the volume in `win`. `move_window` brings
another sector into it, and `sync_window` writes a changed one back, twice if it belongs to
the first of two FATs. The write of the second copy is not checked.

FatFs sees the drive through `disk_read` and `disk_write` of `diskio.c`. A `Drive` is what the
interface promises of them: after `RES_OK` the sectors were transferred, and a call that fails
spoils nothing but its destination. The code of `diskio.c` keeps this promise as long as the
transfers themselves succeed: it returns `RES_OK` for one that failed as well. So a failure is
always one that the drive reports.

## Main definitions

* `Drive` — a drive with its promises; `Drive.Failing` — some call on it reports a failure
* `Layout`, `Fatfs`, `Volume` — `FATFS`, and a volume on a drive
* `syncWindow`, `moveWindow` — the code
* `Volume.content` — what the volume holds, the window included
* `Volume.Ready` — the window is what it claims to be

## Main results

* `syncWindow_unchanged`, `moveWindow_unchanged` — the window can be moved at any time: whatever
  the drive reports as failed on the way, the content of the volume stays
* `moveWindow_ends` — a move fails only if the drive does
-/

set_option autoImplicit false

namespace Sel4Xhci.Fat

open Semantics CString Disk

/-- `LBA_t`: the number of a sector. -/
abbrev Lba := BitVec 32

/-- A sector has bytes. -/
instance instNeZeroSector : NeZero 512 := ⟨Nat.succ_ne_zero 511⟩

/-- The bytes of a sector; `SS(fs)` is 512. -/
abbrev Sector := Fin 512 → Byte

/-- `(LBA_t)0 - 1`: no sector. -/
def noSector : Lba := 0xffffffff#32

/-- A drive of `size` sectors under `disk_read` and `disk_write`. A buffer is given by its
sectors; at most 128 are transferred at a time. -/
structure Drive (δ : Type) where
  size : ℕ
  size_lt : size < 2 ^ 32
  content : δ → Lba → Sector
  diskRead : δ → Lba → ℕ → DResult × (ℕ → Sector) × δ
  diskWrite : δ → (ℕ → Sector) → Lba → ℕ → DResult × δ
  /-- A read that succeeds has filled the buffer. -/
  read_ok : ∀ {d : δ} {s : Lba} {n : ℕ}, n ≤ 128 → s.toNat + n ≤ size →
    (diskRead d s n).1 = .ok → ∀ k < n, (diskRead d s n).2.1 k = content d (s + BitVec.ofNat 32 k)
  /-- No read changes the drive. -/
  content_read : ∀ {d : δ} {s : Lba} {n : ℕ}, n ≤ 128 → s.toNat + n ≤ size →
    content (diskRead d s n).2.2 = content d
  /-- A write that succeeds has stored the buffer. -/
  write_ok : ∀ {d : δ} {buff : ℕ → Sector} {s : Lba} {n : ℕ}, n ≤ 128 → s.toNat + n ≤ size →
    (diskWrite d buff s n).1 = .ok →
      ∀ k < n, content (diskWrite d buff s n).2 (s + BitVec.ofNat 32 k) = buff k
  /-- No write changes other sectors. -/
  write_frame : ∀ {d : δ} {buff : ℕ → Sector} {s t : Lba} {n : ℕ}, n ≤ 128 →
    s.toNat + n ≤ size → (∀ k < n, t ≠ s + BitVec.ofNat 32 k) →
      content (diskWrite d buff s n).2 t = content d t

/-- Some call for sectors of the drive reports a failure. -/
def Drive.Failing {δ : Type} (drive : Drive δ) : Prop :=
  (∃ d s n, n ≤ 128 ∧ s.toNat + n ≤ drive.size ∧ (drive.diskRead d s n).1 ≠ .ok) ∨
    ∃ d buff s n, n ≤ 128 ∧ s.toNat + n ≤ drive.size ∧ (drive.diskWrite d buff s n).1 ≠ .ok

/-- `FRESULT`. -/
inductive FResult
  | ok
  | diskErr
  | intErr
  | notReady
  | noFile
  | noPath
  | invalidName
  | denied
  | exist
  | invalidObject
  | writeProtected
  | invalidDrive
  | notEnabled
  | noFilesystem
  deriving DecidableEq, Repr

/-- `fs_type`: `FS_FAT12`, `FS_FAT16` and `FS_FAT32`, or 0 for a volume that is not mounted. -/
inductive FsType
  | none
  | fat12
  | fat16
  | fat32
  deriving DecidableEq, Repr

/-- The part of `FATFS` that is set when the volume is mounted. -/
structure Layout where
  fsType : FsType
  nFats : BitVec 8
  nRootdir : BitVec 16
  csize : BitVec 16
  nFatent : BitVec 32
  fsize : BitVec 32
  volbase : Lba
  fatbase : Lba
  dirbase : BitVec 32
  database : Lba
  deriving DecidableEq, Repr

/-- `FATFS`. -/
structure Fatfs extends Layout where
  wflag : Bool
  fsiFlag : BitVec 8
  lastClst : BitVec 32
  freeClst : BitVec 32
  winsect : Lba
  win : Sector

/-- A filesystem object and the drive that hosts it. -/
structure Volume (δ : Type) where
  fs : Fatfs
  disk : δ

/-- The sectors of the first FAT. -/
def Layout.InFat (l : Layout) (s : Lba) : Prop := s - l.fatbase < l.fsize

/-- The sectors of the second FAT, if there is one. -/
def Layout.InMirror (l : Layout) (s : Lba) : Prop := l.nFats = 2#8 ∧ l.InFat (s - l.fsize)

instance (l : Layout) (s : Lba) : Decidable (l.InFat s) := inferInstanceAs (Decidable (_ < _))

instance (l : Layout) (s : Lba) : Decidable (l.InMirror s) := inferInstanceAs (Decidable (_ ∧ _))

variable {δ : Type} (drive : Drive δ)

/-- `sync_window`. -/
def syncWindow (vol : Volume δ) : FResult × Volume δ :=
  if vol.fs.wflag then
    match drive.diskWrite vol.disk (fun _ => vol.fs.win) vol.fs.winsect 1 with
    | (.ok, disk) =>
      let fs := { vol.fs with wflag := false }
      -- The result of the second write is not looked at.
      if fs.InFat fs.winsect ∧ fs.nFats = 2#8 then
        (.ok, ⟨fs, (drive.diskWrite disk (fun _ => fs.win) (fs.winsect + fs.fsize) 1).2⟩)
      else (.ok, ⟨fs, disk⟩)
    | (_, disk) => (.diskErr, { vol with disk := disk })
  else (.ok, vol)

/-- `move_window`. -/
def moveWindow (vol : Volume δ) (sect : Lba) : FResult × Volume δ :=
  if sect ≠ vol.fs.winsect then
    match syncWindow drive vol with
    | (.ok, vol) =>
      match drive.diskRead vol.disk sect 1 with
      | (.ok, buff, disk) => (.ok, ⟨{ vol.fs with win := buff 0, winsect := sect }, disk⟩)
      | (_, buff, disk) => (.diskErr, ⟨{ vol.fs with win := buff 0, winsect := noSector }, disk⟩)
    | (res, vol) => (res, vol)
  else (.ok, vol)

/-! ## The content of a volume -/

/-- The window as a buffer in front of the drive. -/
def Volume.window (vol : Volume δ) : Buffered Lba Sector where
  store := drive.content vol.disk
  key := vol.fs.winsect
  block := vol.fs.win
  dirty := vol.fs.wflag

/-- What the sectors of a volume hold once the window is written back. -/
def Volume.content (vol : Volume δ) : Lba → Sector := (vol.window drive).content

/-- The sectors that count: all but those of the second FAT. -/
def Layout.primary (l : Layout) : Set Lba := {s | ¬ l.InMirror s}

/-- The FATs lie within the drive, and arithmetic on their sectors does not wrap. -/
structure Layout.FatsFit (l : Layout) (size : ℕ) : Prop where
  nFats : l.nFats = 1#8 ∨ l.nFats = 2#8
  fats : l.fatbase.toNat + l.nFats.toNat * l.fsize.toNat ≤ size

/-- The window holds what it claims to hold, and can be written back. -/
structure Volume.Ready (vol : Volume δ) : Prop where
  fits : vol.fs.FatsFit drive.size
  current : vol.fs.winsect ≠ noSector → (vol.window drive).Current
  inDrive : vol.fs.wflag = true → vol.fs.winsect.toNat < drive.size

/-- Of the volume, at most the window was moved. -/
structure Unchanged (vol vol' : Volume δ) : Prop where
  layout : vol'.fs.toLayout = vol.fs.toLayout
  freeClst : vol'.fs.freeClst = vol.fs.freeClst
  lastClst : vol'.fs.lastClst = vol.fs.lastClst
  fsiFlag : vol'.fs.fsiFlag = vol.fs.fsiFlag
  content : Set.EqOn (vol'.content drive) (vol.content drive) vol.fs.primary
  ready : vol'.Ready drive

section

variable {drive} {vol vol' vol'' : Volume δ} {sect : Lba} {l : Layout} {size : ℕ}

theorem Unchanged.refl (h : vol.Ready drive) : Unchanged drive vol vol :=
  ⟨rfl, rfl, rfl, rfl, Set.eqOn_refl _ _, h⟩

theorem Unchanged.trans (h : Unchanged drive vol vol') (h' : Unchanged drive vol' vol'') :
    Unchanged drive vol vol'' where
  layout := h'.layout.trans h.layout
  freeClst := h'.freeClst.trans h.freeClst
  lastClst := h'.lastClst.trans h.lastClst
  fsiFlag := h'.fsiFlag.trans h.fsiFlag
  content := by
    have hsecond := h'.content
    rw [Layout.primary, h.layout] at hsecond
    exact hsecond.trans h.content
  ready := h'.ready

/-- A sector of the first FAT, counted from the start of the drive. -/
theorem Layout.FatsFit.toNat_of_inFat (h : l.FatsFit size) (hsize : size < 2 ^ 32) {s : Lba}
    (hs : l.InFat s) :
    l.fatbase.toNat ≤ s.toNat ∧ s.toNat < l.fatbase.toNat + l.fsize.toNat ∧
      l.fatbase.toNat + l.fsize.toNat ≤ size := by
  have hfats : l.fatbase.toNat + l.fsize.toNat ≤ size := by
    have := h.fats
    rcases h.nFats with hn | hn <;> rw [hn] at this <;> simp at this <;> omega
  rw [InFat, BitVec.lt_def, BitVec.toNat_sub] at hs
  have := s.isLt
  omega

/-- The first FAT is no part of the second. -/
theorem Layout.FatsFit.primary_of_inFat (h : l.FatsFit size) (hsize : size < 2 ^ 32) {s : Lba}
    (hs : l.InFat s) : s ∈ l.primary := by
  rintro ⟨hn, hmirror⟩
  have hfats := h.fats
  rw [hn] at hfats
  obtain ⟨hle, hlt, -⟩ := h.toNat_of_inFat hsize hs
  rw [InFat, BitVec.lt_def, BitVec.toNat_sub, BitVec.toNat_sub] at hmirror
  have := s.isLt
  simp at hfats
  omega

/-! ## One sector -/

theorem Drive.write_one_frame {d : δ} {b : Sector} {s t : Lba} (hs : s.toNat < drive.size)
    (ht : t ≠ s) : drive.content (drive.diskWrite d (fun _ => b) s 1).2 t =
      drive.content d t := by
  refine drive.write_frame (by omega) (by omega) fun k hk => ?_
  obtain rfl : k = 0 := by omega
  simpa using ht

theorem Drive.write_one_ok {d : δ} {b : Sector} {s : Lba} (hs : s.toNat < drive.size)
    (hok : (drive.diskWrite d (fun _ => b) s 1).1 = .ok) :
    drive.content (drive.diskWrite d (fun _ => b) s 1).2 s = b := by
  simpa using drive.write_ok (by omega) (by omega) hok 0 (by omega)

theorem Drive.read_one_ok {d : δ} {s : Lba} (hs : s.toNat < drive.size)
    (hok : (drive.diskRead d s 1).1 = .ok) :
    (drive.diskRead d s 1).2.1 0 = drive.content d s := by
  simpa using drive.read_ok (by omega) (by omega) hok 0 (by omega)

/-! ## Moves of the window -/

variable (drive) in
/-- What `sync_window` does, by how the write ends. -/
theorem syncWindow_cases (vol : Volume δ) :
    (vol.fs.wflag = false ∧ syncWindow drive vol = (.ok, vol)) ∨
    (vol.fs.wflag = true ∧ ∃ res disk,
      drive.diskWrite vol.disk (fun _ => vol.fs.win) vol.fs.winsect 1 = (res, disk) ∧
      ((res ≠ .ok ∧ syncWindow drive vol = (.diskErr, { vol with disk := disk })) ∨
       (res = .ok ∧ ¬ (vol.fs.InFat vol.fs.winsect ∧ vol.fs.nFats = 2#8) ∧
        syncWindow drive vol = (.ok, ⟨{ vol.fs with wflag := false }, disk⟩)) ∨
       (res = .ok ∧ vol.fs.InFat vol.fs.winsect ∧ vol.fs.nFats = 2#8 ∧
        syncWindow drive vol = (.ok, ⟨{ vol.fs with wflag := false },
          (drive.diskWrite disk (fun _ => vol.fs.win)
            (vol.fs.winsect + vol.fs.fsize) 1).2⟩)))) := by
  cases hflag : vol.fs.wflag with
  | false => exact .inl ⟨rfl, by simp [syncWindow, hflag]⟩
  | true =>
    rcases hwrite : drive.diskWrite vol.disk (fun _ => vol.fs.win) vol.fs.winsect 1
      with ⟨res, disk⟩
    refine .inr ⟨rfl, res, disk, rfl, ?_⟩
    by_cases hres : res = .ok
    · subst hres
      by_cases hfat : vol.fs.InFat vol.fs.winsect ∧ vol.fs.nFats = 2#8
      · exact .inr (.inr ⟨rfl, hfat.1, hfat.2, by simp [syncWindow, hflag, hwrite, hfat]⟩)
      · exact .inr (.inl ⟨rfl, hfat, by simp [syncWindow, hflag, hwrite, hfat]⟩)
    · exact .inl ⟨hres, by cases res <;> simp_all [syncWindow]⟩

/-- The copy of a sector of the first FAT goes to the second. -/
theorem Layout.inMirror_add (hn : l.nFats = 2#8) {s : Lba} (hs : l.InFat s) :
    l.InMirror (s + l.fsize) := by
  refine ⟨hn, ?_⟩
  rwa [BitVec.add_sub_cancel]

/-- It lies within the drive. -/
theorem Layout.FatsFit.copy_lt (h : l.FatsFit size) (hsize : size < 2 ^ 32) (hn : l.nFats = 2#8)
    {s : Lba} (hs : l.InFat s) : (s + l.fsize).toNat < size := by
  have hfats := h.fats
  rw [hn] at hfats
  obtain ⟨hle, hlt, -⟩ := h.toNat_of_inFat hsize hs
  simp at hfats
  rw [BitVec.toNat_add, Nat.mod_eq_of_lt (by omega)]
  omega

variable (drive) in
theorem syncWindow_winsect (vol : Volume δ) :
    (syncWindow drive vol).2.fs.winsect = vol.fs.winsect := by
  rcases syncWindow_cases drive vol with ⟨-, h⟩ | ⟨-, res, disk, -, h⟩
  · rw [h]
  · rcases h with ⟨-, h⟩ | ⟨-, -, h⟩ | ⟨-, -, -, h⟩ <;> rw [h]

/-- After `FR_OK` the window is clean. -/
theorem syncWindow_clean (hok : (syncWindow drive vol).1 = .ok) :
    (syncWindow drive vol).2.fs.wflag = false := by
  rcases syncWindow_cases drive vol with ⟨hflag, h⟩ | ⟨-, res, disk, -, h⟩
  · rw [h]
    exact hflag
  · rcases h with ⟨-, h⟩ | ⟨-, -, h⟩ | ⟨-, -, -, h⟩
    · rw [h] at hok
      cases hok
    · rw [h]
    · rw [h]

/-- `sync_window` leaves the content of the volume as it was, whichever of its writes fail. -/
theorem syncWindow_unchanged (hready : vol.Ready drive) :
    Unchanged drive vol (syncWindow drive vol).2 := by
  have hsize := drive.size_lt
  rcases syncWindow_cases drive vol with ⟨-, h⟩ | ⟨hdirty, res, disk, hwrite, h⟩
  · rw [h]
    exact .refl hready
  have hin := hready.inDrive hdirty
  -- The first write reaches the sector of the window only.
  have hframe : ∀ s, s ≠ vol.fs.winsect → drive.content disk s = drive.content vol.disk s := by
    intro s hs
    have := drive.write_one_frame (d := vol.disk) (b := vol.fs.win) hin hs
    rwa [hwrite] at this
  have hstored : res = .ok → drive.content disk vol.fs.winsect = vol.fs.win := by
    intro hres
    have := drive.write_one_ok (d := vol.disk) (b := vol.fs.win) hin (by rw [hwrite, hres])
    rwa [hwrite] at this
  have hflushed : res = .ok → drive.content disk = vol.content drive := by
    intro hres
    funext s
    by_cases hs : s = vol.fs.winsect
    · subst hs
      rw [hstored hres]
      exact (Buffered.content_key_of_dirty (b := vol.window drive) hdirty).symm
    · rw [hframe s hs]
      exact (Buffered.content_of_ne (b := vol.window drive) hs).symm
  rcases h with ⟨-, h⟩ | ⟨hres, hnot, h⟩ | ⟨hres, hfat, hn, h⟩
  · -- The write failed: the dirty copy stays in the window.
    rw [h]
    refine ⟨rfl, rfl, rfl, rfl, ?_, hready.fits, fun _ => Buffered.current_of_dirty hdirty,
      fun _ => hin⟩
    exact Buffered.eqOn_retained (b := vol.window drive) hdirty fun s _ hs => hframe s hs
  · rw [h]
    refine ⟨rfl, rfl, rfl, rfl, ?_, hready.fits, fun _ => ?_, nofun⟩
    · exact Buffered.eqOn_flushed (b := vol.window drive) (fun s _ => congrFun (hflushed hres) s)
        _ _
    · exact (hstored hres).symm
  · -- The second write reaches a sector of the second FAT only.
    rw [h]
    have hcopy := hready.fits.copy_lt hsize hn hfat
    have hsecond : Set.EqOn (drive.content (drive.diskWrite disk (fun _ => vol.fs.win)
        (vol.fs.winsect + vol.fs.fsize) 1).2) (drive.content disk) vol.fs.primary := by
      intro s hs
      refine drive.write_one_frame hcopy ?_
      rintro rfl
      exact hs (Layout.inMirror_add hn hfat)
    refine ⟨rfl, rfl, rfl, rfl, ?_, hready.fits, fun _ => ?_, nofun⟩
    · refine Buffered.eqOn_flushed (b := vol.window drive) (hsecond.trans fun s _ => ?_) _ _
      exact congrFun (hflushed hres) s
    · have hown := hsecond (hready.fits.primary_of_inFat hsize hfat)
      exact ((hstored hres).symm.trans hown.symm)

variable (drive) in
/-- What `move_window` does, by how far it comes. -/
theorem moveWindow_cases (vol : Volume δ) (sect : Lba) :
    (sect = vol.fs.winsect ∧ moveWindow drive vol sect = (.ok, vol)) ∨
    (sect ≠ vol.fs.winsect ∧
      (((syncWindow drive vol).1 ≠ .ok ∧ moveWindow drive vol sect = syncWindow drive vol) ∨
       ((syncWindow drive vol).1 = .ok ∧ ∃ res buff disk,
        drive.diskRead (syncWindow drive vol).2.disk sect 1 = (res, buff, disk) ∧
        ((res ≠ .ok ∧ moveWindow drive vol sect = (.diskErr,
            ⟨{ (syncWindow drive vol).2.fs with win := buff 0, winsect := noSector }, disk⟩)) ∨
         (res = .ok ∧ moveWindow drive vol sect = (.ok,
            ⟨{ (syncWindow drive vol).2.fs with win := buff 0, winsect := sect }, disk⟩)))))) := by
  by_cases hsect : sect = vol.fs.winsect
  · exact .inl ⟨hsect, by simp [moveWindow, hsect]⟩
  refine .inr ⟨hsect, ?_⟩
  rcases hsync : syncWindow drive vol with ⟨res, vol'⟩
  by_cases hres : res = .ok
  · subst hres
    rcases hread : drive.diskRead vol'.disk sect 1 with ⟨res, buff, disk⟩
    refine .inr ⟨rfl, res, buff, disk, rfl, ?_⟩
    by_cases hres : res = .ok
    · subst hres
      exact .inr ⟨rfl, by simp [moveWindow, hsect, hsync, hread]⟩
    · exact .inl ⟨hres, by cases res <;> simp_all [moveWindow]⟩
  · exact .inl ⟨hres, by cases res <;> simp_all [moveWindow]⟩

/-- `sync_window` fails only if the drive does. -/
theorem syncWindow_ends (hready : vol.Ready drive) : (syncWindow drive vol).1 = .ok ∨
    (syncWindow drive vol).1 = .diskErr ∧ drive.Failing := by
  rcases syncWindow_cases drive vol with ⟨-, h⟩ | ⟨hdirty, res, disk, hwrite, ⟨hres, h⟩ |
    ⟨-, -, h⟩ | ⟨-, -, -, h⟩⟩ <;> rw [h]
  · exact .inl rfl
  · refine .inr ⟨rfl, .inr ⟨vol.disk, fun _ => vol.fs.win, vol.fs.winsect, 1, by omega,
      hready.inDrive hdirty, ?_⟩⟩
    rwa [hwrite]
  · exact .inl rfl
  · exact .inl rfl

/-- `move_window` leaves the content of the volume as it was, whatever the drive reports as
failed. -/
theorem moveWindow_unchanged (hready : vol.Ready drive) (hsect : sect.toNat < drive.size) :
    Unchanged drive vol (moveWindow drive vol sect).2 := by
  rcases moveWindow_cases drive vol sect with ⟨-, h⟩ | ⟨-, h⟩
  · rw [h]
    exact .refl hready
  have hsync := syncWindow_unchanged hready
  rcases h with ⟨-, h⟩ | ⟨hok, res, buff, disk, hread, h⟩
  · rw [h]
    exact hsync
  refine hsync.trans ?_
  have hclean := syncWindow_clean hok
  have hdisk : drive.content disk = drive.content (syncWindow drive vol).2.disk := by
    have := drive.content_read (d := (syncWindow drive vol).2.disk) (s := sect) (n := 1)
      (by omega) (by omega)
    rwa [hread] at this
  -- The window is clean, so it may be filled with anything.
  have hcontent : ∀ win winsect, Volume.content drive
      ⟨{ (syncWindow drive vol).2.fs with win := win, winsect := winsect }, disk⟩ =
        (syncWindow drive vol).2.content drive := by
    intro win winsect
    unfold Volume.content
    rw [Buffered.content_of_clean hclean, Buffered.content_of_clean hclean]
    exact hdisk
  rcases h with ⟨-, h⟩ | ⟨hres, h⟩
  · rw [h]
    refine ⟨rfl, rfl, rfl, rfl, fun s _ => congrFun (hcontent _ _) s, hsync.ready.fits,
      fun hne => absurd rfl hne, fun hflag => ?_⟩
    exact absurd hflag (by simp [hclean])
  · rw [h]
    refine ⟨rfl, rfl, rfl, rfl, fun s _ => congrFun (hcontent _ _) s, hsync.ready.fits,
      fun _ => ?_, fun hflag => ?_⟩
    · have hfilled : buff 0 = drive.content (syncWindow drive vol).2.disk sect := by
        have := drive.read_one_ok (d := (syncWindow drive vol).2.disk) hsect (by rw [hread, hres])
        rwa [hread] at this
      have hsector := congrFun (hcontent (buff 0) sect) sect
      rw [Volume.content.eq_def _ (syncWindow drive vol).2, Buffered.content_of_clean hclean]
        at hsector
      exact hfilled.trans hsector.symm
    · exact absurd hflag (by simp [hclean])

/-- `move_window` fails only if the drive does. -/
theorem moveWindow_ends (hready : vol.Ready drive) (hsect : sect.toNat < drive.size) :
    (moveWindow drive vol sect).1 = .ok ∨
      (moveWindow drive vol sect).1 = .diskErr ∧ drive.Failing := by
  rcases moveWindow_cases drive vol sect with ⟨-, h⟩ | ⟨-, ⟨hbad, h⟩ |
    ⟨-, res, buff, disk, hread, ⟨hres, h⟩ | ⟨-, h⟩⟩⟩ <;> rw [h]
  · exact .inl rfl
  · exact .inr ((syncWindow_ends hready).resolve_left hbad)
  · refine .inr ⟨rfl, .inl ⟨(syncWindow drive vol).2.disk, sect, 1, by omega, hsect, ?_⟩⟩
    rwa [hread]
  · exact .inl rfl

/-- After `FR_OK` the window holds the sector asked for. -/
theorem moveWindow_ok (hready : vol.Ready drive) (hsect : sect.toNat < drive.size)
    (hok : (moveWindow drive vol sect).1 = .ok) :
    (moveWindow drive vol sect).2.fs.winsect = sect ∧
      (moveWindow drive vol sect).2.fs.win = (moveWindow drive vol sect).2.content drive sect := by
  have hwinsect : (moveWindow drive vol sect).2.fs.winsect = sect := by
    rcases moveWindow_cases drive vol sect with ⟨heq, h⟩ | ⟨-, h⟩
    · rw [h, heq]
    · rcases h with ⟨hbad, h⟩ | ⟨-, res, buff, disk, -, ⟨-, h⟩ | ⟨-, h⟩⟩
      · rw [h] at hok
        exact absurd hok hbad
      · rw [h] at hok
        cases hok
      · rw [h]
  refine ⟨hwinsect, ?_⟩
  have hne : sect ≠ noSector := by
    rintro rfl
    have := drive.size_lt
    simp [noSector] at hsect
    omega
  have hcurrent := (moveWindow_unchanged hready hsect).ready.current (by rwa [hwinsect])
  exact hcurrent.trans (congrArg ((moveWindow drive vol sect).2.content drive) hwinsect)

/-- An edit of the window changes the content of its sector. -/
theorem content_edit (win : Sector) :
    Volume.content drive { vol with fs := { vol.fs with win := win, wflag := true } } =
      Function.update (vol.content drive) vol.fs.winsect win :=
  Buffered.content_edited (b := vol.window drive) win

theorem Volume.Ready.edit (h : vol.Ready drive) (hin : vol.fs.winsect.toNat < drive.size)
    (win : Sector) :
    Volume.Ready drive { vol with fs := { vol.fs with win := win, wflag := true } } :=
  ⟨h.fits, fun _ => Buffered.current_of_dirty rfl, fun _ => hin⟩

end

end Sel4Xhci.Fat
