import Sel4Xhci.Fat.FileData

/-!
# Mounting a volume

A drive holds a FAT volume from its first sector on, or in one of four partitions. `mount_volume`
takes the first sector that looks like the boot sector of a FAT volume, checks the numbers in it
and lays out the volume by them; what a FAT32 volume notes about its free clusters is read too.

The sums of these numbers are taken in 32 bits, and that they fit is not checked: a boot sector
with a FAT of 2 GiB sectors is accepted, and the second FAT lies somewhere else.

## Main definitions

* `bootSector`, `checkFs`, `findVolume` — the search for a boot sector
* `readBpb`, `readFsinfo`, `mountVolume` — the volume is laid out
* `candidates`, `firstFat` — the sectors that are tried, in order, and the first FAT volume
* `systemSize` — the sectors in front of the clusters, if all sums fit

## Main results

* `findVolume_found` — the first FAT volume of the drive is found
* `readBpb_accepts`, `Accepted.readBpb` — which boot sectors are accepted
* `mountVolume_outcome` — the first FAT volume is mounted if its boot sector is accepted; it fits
  unless a sum has overflowed
-/

set_option autoImplicit false

namespace Sel4Xhci.Fat

open Semantics CString Disk Umass

/-! ## The search for a boot sector -/

/-- What `check_fs` returns: a FAT boot sector, another boot sector, no boot sector, or a disk
error. -/
inductive BootSector
  | fat
  | notFat
  | notBoot
  | diskError
  deriving DecidableEq, Repr

/-- `"FAT32   "`. -/
def fat32Name : List Byte := [0x46#8, 0x41#8, 0x54#8, 0x33#8, 0x32#8, 0x20#8, 0x20#8, 0x20#8]

/-- What a sector that was loaded by `check_fs` is. -/
def bootSector (win : Sector) : BootSector :=
  let sign := ldWord win 510
  let other := if sign = 0xaa55#16 then .notFat else .notBoot
  let b := win 0
  if b = 0xeb#8 ∨ b = 0xe9#8 ∨ b = 0xe8#8 then
    if sign = 0xaa55#16 ∧
        (List.range 8).map (fun i => win (Fin.ofNat 512 (82 + i))) = fat32Name then
      .fat
    else
      let w := ldWord win 11
      let b := win 13
      if w &&& (w - 1#16) = 0#16 ∧ w ≥ 512#16 ∧ w ≤ 512#16 ∧ b ≠ 0#8 ∧ b &&& (b - 1#8) = 0#8 ∧
          ldWord win 14 ≠ 0#16 ∧ (win 16).setWidth 32 - 1#32 ≤ 1#32 ∧ ldWord win 17 ≠ 0#16 ∧
          (ldWord win 19 ≥ 128#16 ∨ ldDword win 32 ≥ 0x10000#32) ∧ ldWord win 22 ≠ 0#16 then
        .fat
      else other
  else other

variable {δ : Type} (drive : Drive δ)

/-- `check_fs`: the window is thrown away. -/
def checkFs (vol : Volume δ) (sect : Lba) : BootSector × Volume δ :=
  let vol := { vol with fs := { vol.fs with wflag := false, winsect := noSector } }
  match moveWindow drive vol sect with
  | (.ok, vol) => (bootSector vol.fs.win, vol)
  | (_, vol) => (.diskError, vol)

/-- The start sectors in the partition table. -/
def partitionStarts (win : Sector) : List Lba :=
  [ldDword win 454, ldDword win 470, ldDword win 486, ldDword win 502]

/-- The loop of `find_volume` over the partitions. -/
def tryPartitions (vol : Volume δ) : List Lba → BootSector × Volume δ
  | [] => (.notBoot, vol)
  | start :: starts =>
    let (fmt, vol) := if start ≠ 0#32 then checkFs drive vol start else (.notBoot, vol)
    if fmt ≠ .fat ∧ starts ≠ [] then tryPartitions vol starts else (fmt, vol)

/-- `find_volume`, without a partition number: all of them are tried. -/
def findVolume (vol : Volume δ) : BootSector × Volume δ :=
  let (fmt, vol) := checkFs drive vol 0#32
  if fmt ≠ .notFat then (fmt, vol) else tryPartitions drive vol (partitionStarts vol.fs.win)

/-! ## The volume is laid out -/

/-- The size of a FAT, as the boot sector has it. -/
def fatSize (win : Sector) : BitVec 32 :=
  let fasize := (ldWord win 22).setWidth 32
  if fasize = 0#32 then ldDword win 36 else fasize

/-- The size of the volume. -/
def totalSectors (win : Sector) : BitVec 32 :=
  let tsect := (ldWord win 19).setWidth 32
  if tsect = 0#32 then ldDword win 32 else tsect

/-- The sectors in front of the clusters. -/
def systemSectors (win : Sector) : BitVec 32 :=
  (ldWord win 14).setWidth 32 + fatSize win * (win 16).setWidth 32 +
    (ldWord win 17 / 16#16).setWidth 32

/-- The number of clusters. -/
def clusterCount (win : Sector) : BitVec 32 :=
  (totalSectors win - systemSectors win) / (win 13).setWidth 32

/-- The type of a FAT with entries for so many clusters. -/
def fatType (nclst : BitVec 32) : FsType :=
  if nclst ≤ 0xff5#32 then .fat12
  else if nclst ≤ 0xfff5#32 then .fat16
  else if nclst ≤ 0x0ffffff5#32 then .fat32
  else .none

/-- The FAT size that is needed, in bytes. -/
def neededFat (fmt : FsType) (nFatent : BitVec 32) : BitVec 32 :=
  if fmt = .fat32 then nFatent * 4#32
  else if fmt = .fat16 then nFatent * 2#32
  else nFatent * 3#32 / 2#32 + (nFatent &&& 1#32)

/-- `mount_volume` analyzes the boot sector in the window; for `FR_NO_FILESYSTEM` there is no
type. -/
def readBpb (fs : Fatfs) (bsect : Lba) : FsType × Fatfs :=
  let win := fs.win
  if ldWord win 11 ≠ 512#16 then (.none, fs) else
  let fs := { fs with fsize := fatSize win, nFats := win 16 }
  if fs.nFats ≠ 1#8 ∧ fs.nFats ≠ 2#8 then (.none, fs) else
  let fs := { fs with csize := (win 13).setWidth 16 }
  if fs.csize = 0#16 ∨ fs.csize &&& (fs.csize - 1#16) ≠ 0#16 then (.none, fs) else
  let fs := { fs with nRootdir := ldWord win 17 }
  if fs.nRootdir % 16#16 ≠ 0#16 then (.none, fs) else
  if ldWord win 14 = 0#16 then (.none, fs) else
  let sysect := systemSectors win
  if totalSectors win < sysect then (.none, fs) else
  let nclst := clusterCount win
  if nclst = 0#32 then (.none, fs) else
  let fmt := fatType nclst
  if fmt = .none then (.none, fs) else
  let fs := { fs with
    nFatent := nclst + 2#32
    volbase := bsect
    fatbase := bsect + (ldWord win 14).setWidth 32
    database := bsect + sysect }
  if fmt = .fat32 ∧ ldWord win 42 ≠ 0#16 then (.none, fs) else
  if fmt = .fat32 ∧ fs.nRootdir ≠ 0#16 then (.none, fs) else
  if fmt ≠ .fat32 ∧ fs.nRootdir = 0#16 then (.none, fs) else
  let fs := { fs with dirbase :=
    if fmt = .fat32 then ldDword win 44 else fs.fatbase + fatSize win * fs.nFats.setWidth 32 }
  if fs.fsize < (neededFat fmt fs.nFatent + 511#32) / 512#32 then (.none, fs) else (fmt, fs)

/-- `mount_volume` reads what a FAT32 volume notes about its free clusters. -/
def readFsinfo (vol : Volume δ) (fmt : FsType) (bsect : Lba) : Volume δ :=
  let vol := { vol with fs := { vol.fs with
    lastClst := 0xffffffff#32, freeClst := 0xffffffff#32, fsiFlag := 0x80#8 } }
  if fmt = .fat32 ∧ ldWord vol.fs.win 48 = 1#16 then
    match moveWindow drive vol (bsect + 1#32) with
    | (.ok, vol) =>
      let fs := { vol.fs with fsiFlag := 0#8 }
      if ldWord fs.win 510 = 0xaa55#16 ∧ ldDword fs.win 0 = 0x41615252#32 ∧
          ldDword fs.win 484 = 0x61417272#32 then
        { vol with fs := { fs with
          freeClst := ldDword fs.win 488, lastClst := ldDword fs.win 492 } }
      else { vol with fs := fs }
    | (_, vol) => vol
  else vol

/-- `disk_status`. -/
def diskStatus (_pdrv : BitVec 8) : BitVec 8 := 0#8

/-- `disk_initialize`. -/
def diskInitialize (_pdrv : BitVec 8) : BitVec 8 := 0#8

/-- `STA_NOINIT`. -/
def staNoinit : BitVec 8 := 1#8

/-- `STA_PROTECT`. -/
def staProtect : BitVec 8 := 4#8

/-- `mount_volume`, for the filesystem object of a drive. -/
def mountVolume (vol : Volume δ) (pdrv mode : BitVec 8) : FResult × Volume δ :=
  let mode := mode &&& ~~~1#8
  let stat := diskStatus pdrv
  if vol.fs.fsType ≠ .none ∧ stat &&& staNoinit = 0#8 then
    if mode ≠ 0#8 ∧ stat &&& staProtect ≠ 0#8 then (.writeProtected, vol) else (.ok, vol)
  else
    let vol := { vol with fs := { vol.fs with fsType := .none } }
    let stat := diskInitialize pdrv
    if stat &&& staNoinit ≠ 0#8 then (.notReady, vol) else
    if mode ≠ 0#8 ∧ stat &&& staProtect ≠ 0#8 then (.writeProtected, vol) else
    match findVolume drive vol with
    | (.diskError, vol) => (.diskErr, vol)
    | (.notFat, vol) => (.noFilesystem, vol)
    | (.notBoot, vol) => (.noFilesystem, vol)
    | (.fat, vol) =>
      let bsect := vol.fs.winsect
      let (fmt, fs) := readBpb vol.fs bsect
      if fmt = .none then (.noFilesystem, { vol with fs := fs }) else
      let vol := readFsinfo drive { vol with fs := fs } fmt bsect
      (.ok, { vol with fs := { vol.fs with fsType := fmt } })

/-- A volume laid out by the numbers in its boot sector. -/
def laidOut (win : Sector) (bsect : Lba) : Layout :=
  let fmt := fatType (clusterCount win)
  let fatbase := bsect + (ldWord win 14).setWidth 32
  { fsType := fmt
    nFats := win 16
    nRootdir := ldWord win 17
    csize := (win 13).setWidth 16
    nFatent := clusterCount win + 2#32
    fsize := fatSize win
    volbase := bsect
    fatbase := fatbase
    dirbase := if fmt = .fat32 then ldDword win 44
      else fatbase + fatSize win * (win 16).setWidth 32
    database := bsect + systemSectors win }

/-- A boot sector with numbers that `mount_volume` accepts. -/
structure Accepted (win : Sector) : Prop where
  sectorSize : ldWord win 11 = 512#16
  nFats : win 16 = 1#8 ∨ win 16 = 2#8
  csize : win 13 ≠ 0#8 ∧ win 13 &&& (win 13 - 1#8) = 0#8
  nRootdir : ldWord win 17 % 16#16 = 0#16
  reserved : ldWord win 14 ≠ 0#16
  system : systemSectors win ≤ totalSectors win
  clusters : clusterCount win ≠ 0#32
  fsType : fatType (clusterCount win) ≠ .none
  fat32 : fatType (clusterCount win) = .fat32 → ldWord win 42 = 0#16 ∧ ldWord win 17 = 0#16
  rootDir : fatType (clusterCount win) ≠ .fat32 → ldWord win 17 ≠ 0#16
  fsize : (neededFat (fatType (clusterCount win)) (clusterCount win + 2#32) + 511#32) / 512#32 ≤
    fatSize win

/-- The sectors in front of the clusters, if all sums fit. -/
def systemSize (win : Sector) : ℕ :=
  (ldWord win 14).toNat + (fatSize win).toNat * (win 16).toNat + (ldWord win 17).toNat / 16

/-! ## What is found -/

/-- Some read of a sector of the drive fails. -/
def Drive.Unreadable : Prop := ∃ d, ∃ s : Lba, s.toNat < drive.size ∧ (drive.diskRead d s 1).1 ≠ .ok

/-- The sectors that are tried, in order. -/
def candidates (content : Lba → Sector) : List Lba :=
  0#32 :: if bootSector (content 0#32) = .notFat then
    (partitionStarts (content 0#32)).filter fun start => start ≠ 0#32
  else []

/-- The first one with a FAT boot sector. -/
def firstFat (content : Lba → Sector) : Option Lba :=
  (candidates content).find? fun s => bootSector (content s) = .fat

/-- A FAT boot sector was found and is in the window, or there is none, unless a read has failed. -/
structure Found (drive : Drive δ) (content : Lba → Sector) (tried : List Lba) (fmt : BootSector)
    (vol : Volume δ) : Prop where
  clean : vol.fs.wflag = false
  read : fmt = .diskError → drive.Unreadable
  loaded : fmt = .fat → vol.fs.winsect ∈ tried ∧ vol.fs.win = content vol.fs.winsect ∧
    bootSector vol.fs.win = .fat
  first : ¬ drive.Unreadable → tried.find? (fun s => bootSector (content s) = .fat) =
    if fmt = .fat then some vol.fs.winsect else none

section

variable {drive} {vol vol' : Volume δ} {sect : Lba}

variable (vol) in
/-- A sector is loaded into a window that is clean. -/
theorem moveWindow_loaded (hclean : vol.fs.wflag = false) (hin : sect.toNat < drive.size)
    (hne : sect ≠ vol.fs.winsect) : ∃ disk, drive.content disk = drive.content vol.disk ∧
      (moveWindow drive vol sect =
          (.ok, ⟨{ vol.fs with win := drive.content vol.disk sect, winsect := sect }, disk⟩) ∨
        drive.Unreadable ∧ ∃ win, moveWindow drive vol sect =
          (.diskErr, ⟨{ vol.fs with win := win, winsect := noSector }, disk⟩)) := by
  have hsync : syncWindow drive vol = (.ok, vol) := by simp [syncWindow, hclean]
  rcases hread : drive.diskRead vol.disk sect 1 with ⟨res, buff, disk⟩
  have hcontent : drive.content disk = drive.content vol.disk := by
    have hkeep := drive.content_read (d := vol.disk) (s := sect) (n := 1) (by omega) (by omega)
    rwa [hread] at hkeep
  refine ⟨disk, hcontent, ?_⟩
  by_cases hok : res = .ok
  · subst hok
    have hbuff := drive.read_one_ok (d := vol.disk) hin (by rw [hread])
    rw [hread] at hbuff
    simp only at hbuff
    left
    simp [moveWindow, hne, hsync, hread, hbuff]
  · right
    refine ⟨⟨vol.disk, sect, hin, by rw [hread]; exact hok⟩, buff 0, ?_⟩
    cases res <;> simp_all [moveWindow]

theorem bootSector_ne (win : Sector) : bootSector win ≠ .diskError := by
  unfold bootSector
  simp only
  split_ifs <;> decide

variable (vol) in
/-- A sector is checked, whatever was in the window before. -/
theorem checkFs_spec (hin : sect.toNat < drive.size) : ∃ fmt vol',
    checkFs drive vol sect = (fmt, vol') ∧ drive.content vol'.disk = drive.content vol.disk ∧
      vol'.fs.wflag = false ∧
      (vol'.fs.winsect = sect ∧ vol'.fs.win = drive.content vol.disk sect ∧
          fmt = bootSector (drive.content vol.disk sect) ∨
        drive.Unreadable ∧ fmt = .diskError) := by
  have hne : sect ≠ noSector := by
    rintro rfl
    have := drive.size_lt
    simp only [noSector, BitVec.toNat_ofNat] at hin
    omega
  obtain ⟨disk, hcontent, hmove | ⟨hfailing, win, hmove⟩⟩ := moveWindow_loaded
    { vol with fs := { vol.fs with wflag := false, winsect := noSector } } rfl hin hne
  · exact ⟨_, _, by rw [checkFs, hmove], hcontent, rfl, .inl ⟨rfl, rfl, rfl⟩⟩
  · exact ⟨_, _, by rw [checkFs, hmove], hcontent, rfl, .inr ⟨hfailing, rfl⟩⟩

/-- A disk error comes from a read that failed. -/
theorem unreadable_of_check {fmt : BootSector} {win : Sector}
    (h : vol'.fs.winsect = sect ∧ vol'.fs.win = win ∧ fmt = bootSector win ∨
      drive.Unreadable ∧ fmt = .diskError) (herr : fmt = .diskError) : drive.Unreadable := by
  rcases h with ⟨-, -, hfmt⟩ | ⟨hreads, -⟩
  · exact absurd (hfmt.symm.trans herr) (bootSector_ne win)
  · exact hreads

/-- The partitions are tried in order, up to the first one with a FAT boot sector. -/
theorem tryPartitions_found {starts : List Lba} (hclean : vol.fs.wflag = false)
    (hin : ∀ s ∈ starts, s.toNat < drive.size) {fmt : BootSector}
    (htry : tryPartitions drive vol starts = (fmt, vol')) :
    drive.content vol'.disk = drive.content vol.disk ∧
      Found drive (drive.content vol.disk) (starts.filter fun start => start ≠ 0#32) fmt vol' := by
  induction starts generalizing vol with
  | nil =>
    obtain ⟨rfl, rfl⟩ := Prod.mk.inj htry
    exact ⟨rfl, hclean, nofun, nofun, fun _ => rfl⟩
  | cons start starts ih =>
    rw [List.forall_mem_cons] at hin
    by_cases hzero : start = 0#32
    · -- An entry that is not in use is passed over.
      simp only [tryPartitions, hzero, ne_eq, not_true_eq_false, if_false] at htry
      have hfilter : (0#32 :: starts).filter (fun start => start ≠ 0#32) =
          starts.filter fun start => start ≠ 0#32 := by simp
      rw [hzero, hfilter]
      by_cases hlast : starts = []
      · subst hlast
        simp only [not_true_eq_false, and_false, if_false] at htry
        obtain ⟨rfl, rfl⟩ := Prod.mk.inj htry
        exact ⟨rfl, hclean, nofun, nofun, fun _ => rfl⟩
      · rw [if_pos ⟨by decide, hlast⟩] at htry
        exact ih hclean hin.2 htry
    · obtain ⟨fmt₁, vol₁, hcheck, hcontent, hclean₁, hresult⟩ := checkFs_spec vol hin.1
      simp only [tryPartitions, ne_eq, hzero, not_false_eq_true, if_true, hcheck] at htry
      have hfilter : (start :: starts).filter (fun start => start ≠ 0#32) =
          start :: starts.filter fun start => start ≠ 0#32 := by simp [hzero]
      rw [hfilter]
      by_cases hfat : fmt₁ = .fat
      · -- This is the one.
        rw [if_neg fun h => h.1 hfat] at htry
        obtain ⟨rfl, rfl⟩ := Prod.mk.inj htry
        obtain ⟨hsect, hwin, hboot⟩ := hresult.resolve_right fun h => by simp [hfat] at h
        rw [hfat] at hboot
        refine ⟨hcontent, hclean₁, fun h => by simp [hfat] at h, fun _ => ⟨?_, ?_, ?_⟩, fun _ => ?_⟩
        · rw [hsect]
          exact List.mem_cons_self
        · rw [hwin, hsect]
        · rw [hwin, ← hboot]
        · rw [List.find?_cons_of_pos (by simp [← hboot]), if_pos hfat, hsect]
      · have hskip : ¬ drive.Unreadable →
            (start :: starts.filter fun start => start ≠ 0#32).find?
              (fun s => bootSector (drive.content vol.disk s) = .fat) =
            (starts.filter fun start => start ≠ 0#32).find?
              (fun s => bootSector (drive.content vol.disk s) = .fat) := by
          intro hreads
          obtain ⟨-, -, hboot⟩ := hresult.resolve_right fun h => hreads h.1
          exact List.find?_cons_of_neg (by simp [← hboot, hfat])
        by_cases hlast : starts = []
        · rw [if_neg fun h => h.2 hlast] at htry
          obtain ⟨rfl, rfl⟩ := Prod.mk.inj htry
          refine ⟨hcontent, hclean₁, unreadable_of_check hresult, fun h => absurd h hfat,
            fun hreads => ?_⟩
          rw [hskip hreads, hlast, if_neg hfat]
          rfl
        · rw [if_pos ⟨hfat, hlast⟩] at htry
          obtain ⟨hcontent', hfound⟩ := ih hclean₁ hin.2 htry
          rw [hcontent] at hcontent' hfound
          refine ⟨hcontent', hfound.clean, hfound.read, fun h => ?_, fun hreads => ?_⟩
          · obtain ⟨hmem, hwin⟩ := hfound.loaded h
            exact ⟨List.mem_cons_of_mem _ hmem, hwin⟩
          · rw [hskip hreads]
            exact hfound.first hreads

/-- What `find_volume` comes to. -/
theorem findVolume_found (hin : ∀ s ∈ candidates (drive.content vol.disk), s.toNat < drive.size)
    {fmt : BootSector} (hfind : findVolume drive vol = (fmt, vol')) :
    drive.content vol'.disk = drive.content vol.disk ∧
      Found drive (drive.content vol.disk) (candidates (drive.content vol.disk)) fmt vol' := by
  obtain ⟨fmt₁, vol₁, hcheck, hcontent, hclean₁, hresult⟩ :=
    checkFs_spec vol (hin 0#32 List.mem_cons_self)
  simp only [findVolume, hcheck] at hfind
  by_cases hnotFat : fmt₁ = .notFat
  · rw [if_neg (not_not.mpr hnotFat)] at hfind
    obtain ⟨-, hwin, hboot⟩ := hresult.resolve_right fun h => by simp [hnotFat] at h
    rw [hnotFat] at hboot
    rw [hwin] at hfind
    have hcandidates : candidates (drive.content vol.disk) = 0#32 ::
        (partitionStarts (drive.content vol.disk 0#32)).filter fun start => start ≠ 0#32 := by
      rw [candidates, if_pos hboot.symm]
    rw [hcandidates] at hin ⊢
    have hskip : ∀ tried : List Lba,
        (0#32 :: tried).find? (fun s => bootSector (drive.content vol.disk s) = .fat) =
          tried.find? fun s => bootSector (drive.content vol.disk s) = .fat := fun tried =>
      List.find?_cons_of_neg (by simp [← hboot])
    have hstarts : ∀ s ∈ partitionStarts (drive.content vol.disk 0#32),
        s.toNat < drive.size := by
      intro s hs
      by_cases hzero : s = 0#32
      · rw [hzero]
        exact hin 0#32 List.mem_cons_self
      · exact hin s (List.mem_cons_of_mem _ (List.mem_filter.mpr ⟨hs, by simpa using hzero⟩))
    obtain ⟨hcontent', hfound⟩ := tryPartitions_found hclean₁ hstarts hfind
    rw [hcontent] at hcontent' hfound
    refine ⟨hcontent', hfound.clean, hfound.read, fun h => ?_, fun hreads => ?_⟩
    · obtain ⟨hmem, hwin'⟩ := hfound.loaded h
      exact ⟨List.mem_cons_of_mem _ hmem, hwin'⟩
    · rw [hskip]
      exact hfound.first hreads
  · rw [if_pos hnotFat] at hfind
    obtain ⟨rfl, rfl⟩ := Prod.mk.inj hfind
    refine ⟨hcontent, hclean₁, unreadable_of_check hresult, fun hfat => ?_, fun hreads => ?_⟩
    · obtain ⟨hsect, hwin, hboot⟩ := hresult.resolve_right fun h => by simp [hfat] at h
      rw [hfat] at hboot
      refine ⟨?_, ?_, ?_⟩
      · rw [hsect]
        exact List.mem_cons_self
      · rw [hwin, hsect]
      · rw [hwin, ← hboot]
    · obtain ⟨hsect, -, hboot⟩ := hresult.resolve_right fun h => hreads h.1
      have hcandidates : candidates (drive.content vol.disk) = [0#32] := by
        rw [candidates, if_neg (by rw [← hboot]; exact hnotFat)]
      rw [hcandidates]
      by_cases hfat : fmt₁ = .fat
      · rw [List.find?_cons_of_pos (by simp [← hboot, hfat]), if_pos hfat, hsect]
      · rw [List.find?_cons_of_neg (by simp [← hboot, hfat]), if_neg hfat]
        rfl

/-! ## What is accepted -/

section Numbers

variable {win : Sector} {bsect : Lba} {fs fs' : Fatfs} {fmt : FsType}

theorem byte_pow_two : ∀ b : Fin 256, BitVec.ofFin b ≠ 0#8 →
    BitVec.ofFin b &&& (BitVec.ofFin b - 1#8) = 0#8 → ∃ k ≤ 7, b.val = 2 ^ k := by decide +kernel

theorem byte_narrow : ∀ b : Fin 256, ((BitVec.ofFin b : BitVec 8).setWidth 16 = 0#16 ∨
    (BitVec.ofFin b : BitVec 8).setWidth 16 &&&
      ((BitVec.ofFin b : BitVec 8).setWidth 16 - 1#16) ≠ 0#16) ↔
    ¬ (BitVec.ofFin b ≠ 0#8 ∧ BitVec.ofFin b &&& (BitVec.ofFin b - 1#8) = 0#8) := by
  decide +kernel

theorem Accepted.csize_pow (h : Accepted win) : ∃ k ≤ 7, (win 13).toNat = 2 ^ k :=
  byte_pow_two (win 13).toFin h.csize.1 h.csize.2

/-- A check that was passed. -/
theorem passed {p : Prop} [Decidable p] {rejected : Fatfs} {next : FsType × Fatfs}
    (h : (if p then (FsType.none, rejected) else next) = (fmt, fs')) (hfmt : fmt ≠ .none) :
    ¬ p ∧ next = (fmt, fs') := by
  split_ifs at h with hp
  · exact absurd (Prod.mk.inj h).1.symm hfmt
  · exact ⟨hp, h⟩

/-- What is known of a boot sector that is not refused. -/
theorem readBpb_accepts (h : readBpb fs bsect = (fmt, fs')) (hfmt : fmt ≠ .none) :
    Accepted fs.win := by
  unfold readBpb at h
  obtain ⟨hsectorSize, h⟩ := passed h hfmt
  obtain ⟨hnFats, h⟩ := passed h hfmt
  obtain ⟨hcsize, h⟩ := passed h hfmt
  obtain ⟨hnRootdir, h⟩ := passed h hfmt
  obtain ⟨hreserved, h⟩ := passed h hfmt
  obtain ⟨hsystem, h⟩ := passed h hfmt
  obtain ⟨hclusters, h⟩ := passed h hfmt
  obtain ⟨hfsType, h⟩ := passed h hfmt
  obtain ⟨hversion, h⟩ := passed h hfmt
  obtain ⟨hroot32, h⟩ := passed h hfmt
  obtain ⟨hroot, h⟩ := passed h hfmt
  obtain ⟨hfsize, -⟩ := passed h hfmt
  refine ⟨not_not.mp hsectorSize, ?_, ?_, not_not.mp hnRootdir, hreserved, BitVec.not_lt.mp hsystem,
    hclusters, hfsType, fun h32 => ⟨?_, ?_⟩, fun h32 hzero => hroot ⟨h32, hzero⟩,
    BitVec.not_lt.mp hfsize⟩
  · by_cases hone : fs.win 16 = 1#8
    · exact .inl hone
    · exact .inr (not_not.mp fun htwo => hnFats ⟨hone, htwo⟩)
  · exact not_not.mp (mt (byte_narrow (fs.win 13).toFin).mpr hcsize)
  · exact not_not.mp fun hne => hversion ⟨h32, hne⟩
  · exact not_not.mp fun hne => hroot32 ⟨h32, hne⟩

/-- A boot sector that passes all checks is not refused, and the volume is laid out by it. -/
theorem Accepted.readBpb (h : Accepted fs.win) :
    readBpb fs bsect = (fatType (clusterCount fs.win),
      { fs with toLayout := { laidOut fs.win bsect with fsType := fs.fsType } }) := by
  have hnFats : ¬ (fs.win 16 ≠ 1#8 ∧ fs.win 16 ≠ 2#8) := fun hne => h.nFats.elim hne.1 hne.2
  have hcsize := mt (byte_narrow (fs.win 13).toFin).mp (not_not.mpr h.csize)
  unfold Fat.readBpb
  simp only
  rw [if_neg (not_not.mpr h.sectorSize), if_neg hnFats, if_neg hcsize,
    if_neg (not_not.mpr h.nRootdir), if_neg h.reserved, if_neg (BitVec.not_lt.mpr h.system),
    if_neg h.clusters, if_neg h.fsType, if_neg fun hne => hne.2 (h.fat32 hne.1).1,
    if_neg fun hne => hne.2 (h.fat32 hne.1).2, if_neg fun hne => h.rootDir hne.1 hne.2,
    if_neg (BitVec.not_lt.mpr h.fsize)]
  rfl

/-! ## What fits -/

/-- The type of the FAT has room for the entries. -/
theorem fatType_entries {nclst : BitVec 32} (h : fatType nclst ≠ .none) :
    nclst.toNat + 2 ≤ (fatType nclst).maxEntries := by
  unfold fatType at h ⊢
  split_ifs at h ⊢ with h₁ h₂ h₃
  · exact Nat.add_le_add_right (BitVec.le_def.mp h₁) 2
  · exact Nat.add_le_add_right (BitVec.le_def.mp h₂) 2
  · exact Nat.add_le_add_right (BitVec.le_def.mp h₃) 2
  · exact absurd rfl h

/-- The bytes that are needed have room for the bits of the entries. -/
theorem toNat_neededFat {n : BitVec 32} (hfmt : fmt ≠ .none) (hn : n.toNat ≤ fmt.maxEntries) :
    fmt.width * n.toNat ≤ 8 * (neededFat fmt n).toNat ∧
      (neededFat fmt n).toNat + 511 < 2 ^ 32 := by
  cases fmt with
  | none => exact absurd rfl hfmt
  | fat12 =>
    simp only [FsType.maxEntries] at hn
    have hodd : (n &&& 1#32).toNat = n.toNat % 2 := by
      rw [BitVec.toNat_and]
      exact Nat.and_one_is_mod _
    have htriple : (n * 3#32).toNat = n.toNat * 3 := by
      rw [BitVec.toNat_mul, BitVec.toNat_ofNat]
      omega
    have hneeded : (neededFat .fat12 n).toNat = n.toNat * 3 / 2 + n.toNat % 2 := by
      rw [neededFat, if_neg (by decide), if_neg (by decide), BitVec.toNat_add, BitVec.toNat_udiv,
        htriple, hodd]
      simp only [BitVec.toNat_ofNat, Nat.reducePow, Nat.reduceMod]
      omega
    simp only [FsType.width, hneeded]
    rcases Nat.mod_two_eq_zero_or_one n.toNat with heven | heven <;> omega
  | fat16 =>
    simp only [FsType.maxEntries] at hn
    have hneeded : (neededFat .fat16 n).toNat = n.toNat * 2 := by
      rw [neededFat, if_neg (by decide), if_pos rfl, BitVec.toNat_mul, BitVec.toNat_ofNat]
      omega
    simp only [FsType.width, hneeded]
    omega
  | fat32 =>
    simp only [FsType.maxEntries] at hn
    have hneeded : (neededFat .fat32 n).toNat = n.toNat * 4 := by
      rw [neededFat, if_pos rfl, BitVec.toNat_mul, BitVec.toNat_ofNat]
      omega
    simp only [FsType.width, hneeded]
    omega

theorem Accepted.toNat_nFatent (h : Accepted win) :
    (clusterCount win + 2#32).toNat = (clusterCount win).toNat + 2 := by
  have hentries := fatType_entries h.fsType
  have hmax : ∀ fmt : FsType, fmt.maxEntries < 2 ^ 32 := fun fmt => by cases fmt <;> decide
  have hlt := hmax (fatType (clusterCount win))
  rw [BitVec.toNat_add, BitVec.toNat_ofNat]
  omega

theorem Accepted.entriesFit (h : Accepted win) (bsect : Lba) : (laidOut win bsect).EntriesFit := by
  have hentries := fatType_entries h.fsType
  rw [← h.toNat_nFatent] at hentries
  obtain ⟨hbits, hbytes⟩ := toNat_neededFat h.fsType hentries
  have hfsize := BitVec.le_def.mp h.fsize
  have hsectors : ((neededFat (fatType (clusterCount win)) (clusterCount win + 2#32) + 511#32) /
      512#32).toNat =
        ((neededFat (fatType (clusterCount win)) (clusterCount win + 2#32)).toNat + 511) / 512 := by
    rw [BitVec.toNat_udiv, BitVec.toNat_add]
    simp only [BitVec.toNat_ofNat, Nat.reducePow, Nat.reduceMod]
    omega
  rw [hsectors] at hfsize
  refine ⟨hentries, ?_⟩
  change (fatType (clusterCount win)).width * (clusterCount win + 2#32).toNat ≤
    8 * (512 * (fatSize win).toNat)
  omega

theorem Accepted.fatPresent (h : Accepted win) : 0 < (fatSize win).toNat := by
  have hfit := (h.entriesFit 0#32).fsize
  change (fatType (clusterCount win)).width * (clusterCount win + 2#32).toNat ≤
    8 * (512 * (fatSize win).toNat) at hfit
  rw [h.toNat_nFatent] at hfit
  by_contra hzero
  have hwidth : 0 < (fatType (clusterCount win)).width := by
    have hnone := h.fsType
    cases hfmt : fatType (clusterCount win) with
    | none => exact absurd hfmt hnone
    | fat12 => decide
    | fat16 => decide
    | fat32 => decide
  have hpos := Nat.mul_pos hwidth (show 0 < (clusterCount win).toNat + 2 by omega)
  omega

/-- The clusters lie within the volume. -/
theorem Accepted.clusters_le (h : Accepted win) :
    (systemSectors win).toNat + (win 13).toNat * (clusterCount win).toNat ≤
      (totalSectors win).toNat := by
  have hsystem := BitVec.le_def.mp h.system
  have hcount : (clusterCount win).toNat =
      ((totalSectors win).toNat - (systemSectors win).toNat) / (win 13).toNat := by
    have hcsize : ((win 13).setWidth 32).toNat = (win 13).toNat := by
      have := (win 13).isLt
      rw [BitVec.toNat_setWidth, Nat.mod_eq_of_lt (by omega)]
    rw [clusterCount, BitVec.toNat_udiv, BitVec.toNat_sub_of_le h.system, hcsize]
  have hmul := Nat.mul_div_le ((totalSectors win).toNat - (systemSectors win).toNat) (win 13).toNat
  rw [← hcount] at hmul
  omega

/-- The sum is what it should be, cut to 32 bits. -/
theorem toNat_systemSectors (win : Sector) :
    (systemSectors win).toNat = systemSize win % 2 ^ 32 := by
  have hword : ∀ w : BitVec 16, (w.setWidth 32).toNat = w.toNat := fun w => by
    have := w.isLt
    rw [BitVec.toNat_setWidth, Nat.mod_eq_of_lt (by omega)]
  have hbyte : ((win 16).setWidth 32).toNat = (win 16).toNat := by
    have := (win 16).isLt
    rw [BitVec.toNat_setWidth, Nat.mod_eq_of_lt (by omega)]
  have hroot : (ldWord win 17 / 16#16).toNat = (ldWord win 17).toNat / 16 := by
    rw [BitVec.toNat_udiv, BitVec.toNat_ofNat]
  rw [systemSectors, BitVec.toNat_add, BitVec.toNat_add, BitVec.toNat_mul, hword, hword, hbyte,
    hroot, systemSize]
  omega

/-- The layout fits on the drive, with the FATs behind the boot sector, if and only if no sum has
overflowed. -/
theorem Accepted.fits_iff (h : Accepted win) {size : ℕ} (hsize : size < 2 ^ 32)
    (hvolume : bsect.toNat + (totalSectors win).toNat ≤ size) :
    ((laidOut win bsect).FatsFit size ∧ (laidOut win bsect).DataFit size ∧
      bsect < (laidOut win bsect).fatbase) ↔ systemSize win < 2 ^ 32 := by
  have hsystem := toNat_systemSectors win
  have hclusters := h.clusters_le
  have hsum : systemSize win = (ldWord win 14).toNat + (fatSize win).toNat * (win 16).toNat +
    (ldWord win 17).toNat / 16 := rfl
  have hcsize : (laidOut win bsect).csize.toNat = (win 13).toNat := by
    have := (win 13).isLt
    change ((win 13).setWidth 16).toNat = _
    rw [BitVec.toNat_setWidth, Nat.mod_eq_of_lt (by omega)]
  have hnFatent : (laidOut win bsect).nFatent.toNat = (clusterCount win).toNat + 2 :=
    h.toNat_nFatent
  have hnrsv : ((ldWord win 14).setWidth 32).toNat = (ldWord win 14).toNat := by
    have := (ldWord win 14).isLt
    rw [BitVec.toNat_setWidth, Nat.mod_eq_of_lt (by omega)]
  have hfatbase : (laidOut win bsect).fatbase.toNat =
      (bsect.toNat + (ldWord win 14).toNat) % 2 ^ 32 := by
    change (bsect + (ldWord win 14).setWidth 32).toNat = _
    rw [BitVec.toNat_add, hnrsv]
  have hdatabase : (laidOut win bsect).database.toNat =
      bsect.toNat + (systemSectors win).toNat := by
    change (bsect + systemSectors win).toNat = _
    rw [BitVec.toNat_add]
    omega
  have hreserved : 0 < (ldWord win 14).toNat := by
    refine Nat.pos_of_ne_zero fun hzero => h.reserved (BitVec.eq_of_toNat_eq hzero)
  have hword := (ldWord win 14).isLt
  rw [BitVec.lt_def, hfatbase]
  constructor
  · rintro ⟨⟨-, hfats⟩, ⟨-, -, hdata, -⟩, hbehind⟩
    change (laidOut win bsect).fatbase.toNat + (win 16).toNat * (fatSize win).toNat ≤ _ at hfats
    change (laidOut win bsect).fatbase.toNat + (win 16).toNat * (fatSize win).toNat ≤ _ at hdata
    rw [hfatbase, Nat.mul_comm] at hfats
    rw [hfatbase, hdatabase, Nat.mul_comm] at hdata
    generalize (fatSize win).toNat * (win 16).toNat = fats at *
    by_contra hover
    have hroot := (ldWord win 17).isLt
    omega
  · intro hfit
    rw [Nat.mod_eq_of_lt hfit] at hsystem
    have hmul := Nat.mul_comm (win 16).toNat (fatSize win).toNat
    refine ⟨⟨h.nFats, ?_⟩, ⟨?_, h.fatPresent, ?_, ?_⟩, ?_⟩
    · change (laidOut win bsect).fatbase.toNat + (win 16).toNat * (fatSize win).toNat ≤ _
      rw [hfatbase]
      omega
    · rw [hcsize]
      exact h.csize_pow
    · change (laidOut win bsect).fatbase.toNat + (win 16).toNat * (fatSize win).toNat ≤ _
      rw [hfatbase, hdatabase]
      omega
    · rw [hcsize, hnFatent, hdatabase, Nat.add_sub_cancel]
      omega
    · rw [Nat.mod_eq_of_lt (by omega)]
      omega

end Numbers

/-! ## What is mounted -/

/-- The window is clean, and holds what it claims to hold. -/
structure Mounted (drive : Drive δ) (content : Lba → Sector) (vol : Volume δ) : Prop where
  disk : drive.content vol.disk = content
  clean : vol.fs.wflag = false
  current : vol.fs.winsect ≠ noSector → vol.fs.win = content vol.fs.winsect

theorem Mounted.ready {content : Lba → Sector} (h : Mounted drive content vol)
    (hfits : vol.fs.FatsFit drive.size) : vol.Ready drive := by
  refine ⟨hfits, fun hne => ?_, fun hdirty => ?_⟩
  · have hcontent : (vol.window drive).content = drive.content vol.disk :=
      Buffered.content_of_clean h.clean
    change vol.fs.win = (vol.window drive).content vol.fs.winsect
    rw [hcontent, h.disk]
    exact h.current hne
  · rw [h.clean] at hdirty
    cases hdirty

theorem readFsinfo_mounted {content : Lba → Sector} {fmt : FsType} {bsect : Lba}
    (h : Mounted drive content vol)
    (hin : fmt = .fat32 → (bsect + 1#32).toNat < drive.size ∧ bsect + 1#32 ≠ vol.fs.winsect) :
    (readFsinfo drive vol fmt bsect).fs.toLayout = vol.fs.toLayout ∧
      Mounted drive content (readFsinfo drive vol fmt bsect) := by
  unfold readFsinfo
  simp only
  by_cases hnoted : fmt = .fat32 ∧ ldWord vol.fs.win 48 = 1#16
  swap
  · rw [if_neg hnoted]
    exact ⟨rfl, h.disk, h.clean, h.current⟩
  rw [if_pos hnoted]
  obtain ⟨hlt, hne⟩ := hin hnoted.1
  obtain ⟨disk, hcontent, hmove | ⟨-, win, hmove⟩⟩ := moveWindow_loaded
    { vol with fs := { vol.fs with
      lastClst := 0xffffffff#32, freeClst := 0xffffffff#32, fsiFlag := 0x80#8 } } h.clean hlt hne
  · rw [hmove]
    have hloaded : drive.content vol.disk (bsect + 1#32) = content (bsect + 1#32) := by
      rw [h.disk]
    simp only
    split_ifs
    · exact ⟨rfl, hcontent.trans h.disk, h.clean, fun _ => hloaded⟩
    · exact ⟨rfl, hcontent.trans h.disk, h.clean, fun _ => hloaded⟩
  · rw [hmove]
    exact ⟨rfl, hcontent.trans h.disk, h.clean, fun hsect => absurd rfl hsect⟩

/-- From the boot sector in the window a volume is laid out. -/
theorem laidOut_mounted {content : Lba → Sector} (h : Mounted drive content vol)
    (hbound : vol.fs.winsect.toNat + (totalSectors vol.fs.win).toNat ≤ drive.size)
    {fmt : FsType} {fs : Fatfs} (hread : readBpb vol.fs vol.fs.winsect = (fmt, fs))
    (hfmt : fmt ≠ .none) :
    ∃ vol', (let vol := readFsinfo drive { vol with fs := fs } fmt vol.fs.winsect
        { vol with fs := { vol.fs with fsType := fmt } }) = vol' ∧
      Mounted drive content vol' ∧ vol'.fs.toLayout = laidOut vol.fs.win vol.fs.winsect ∧
      Accepted vol.fs.win := by
  have haccepted := readBpb_accepts hread hfmt
  obtain ⟨htype, rfl⟩ := Prod.mk.inj (hread.symm.trans haccepted.readBpb)
  -- A FAT32 volume is long enough to have a second sector.
  have hnext : fmt = .fat32 → (vol.fs.winsect + 1#32).toNat < drive.size ∧
      vol.fs.winsect + 1#32 ≠ vol.fs.winsect := by
    intro h32
    rw [h32] at htype
    have hmany : 0xfff5 < (clusterCount vol.fs.win).toNat := by
      by_contra hfew
      have hle : clusterCount vol.fs.win ≤ 0xfff5#32 := BitVec.le_def.mpr (Nat.le_of_not_lt hfew)
      unfold fatType at htype
      split_ifs at htype
    have hcsize : 0 < (vol.fs.win 13).toNat := by
      obtain ⟨k, -, hk⟩ := haccepted.csize_pow
      rw [hk]
      exact Nat.two_pow_pos k
    have hsectors := Nat.le_mul_of_pos_left (clusterCount vol.fs.win).toNat hcsize
    have hclusters := haccepted.clusters_le
    have hsize := drive.size_lt
    have hsucc : (vol.fs.winsect + 1#32).toNat = vol.fs.winsect.toNat + 1 := by
      rw [BitVec.toNat_add, BitVec.toNat_ofNat]
      omega
    refine ⟨by omega, fun heq => ?_⟩
    rw [heq] at hsucc
    omega
  have hmounted : Mounted drive content { vol with fs := { vol.fs with
      toLayout := { laidOut vol.fs.win vol.fs.winsect with fsType := vol.fs.fsType } } } :=
    ⟨h.disk, h.clean, h.current⟩
  obtain ⟨hlayout, hmounted'⟩ := readFsinfo_mounted hmounted hnext
  refine ⟨_, rfl, ⟨hmounted'.disk, hmounted'.clean, hmounted'.current⟩, ?_, haccepted⟩
  refine (congrArg (fun l : Layout => { l with fsType := fmt }) hlayout).trans ?_
  rw [htype]
  rfl

/-- A volume is mounted. It is laid out as its boot sector says, and there is a FAT entry for every
cluster. FATs and clusters lie on the drive in this order, each sector where it should be, if and
only if the sum of the sectors in front of the clusters fits in 32 bits. -/
structure MountedAt (drive : Drive δ) (content : Lba → Sector) (s : Lba) (vol : Volume δ) :
    Prop where
  boot : bootSector (content s) = .fat
  accepted : Accepted (content s)
  layout : vol.fs.toLayout = laidOut (content s) s
  mounted : Mounted drive content vol
  entriesFit : vol.fs.EntriesFit
  clusters : 2#32 < vol.fs.nFatent
  fits : vol.FatReady drive ∧ vol.fs.DataFit drive.size ∧ s < vol.fs.fatbase ↔
    systemSize (content s) < 2 ^ 32

theorem mounted_of_accepted {content : Lba → Sector} {s : Lba}
    (hboot : bootSector (content s) = .fat) (haccepted : Accepted (content s))
    (hlayout : vol.fs.toLayout = laidOut (content s) s) (h : Mounted drive content vol)
    (hbound : s.toNat + (totalSectors (content s)).toNat ≤ drive.size) :
    MountedAt drive content s vol := by
  have hentries := haccepted.entriesFit s
  have hclusters : 0 < (clusterCount (content s)).toNat :=
    Nat.pos_of_ne_zero fun hzero => haccepted.clusters (BitVec.eq_of_toNat_eq hzero)
  have hmany : vol.fs.nFatent = clusterCount (content s) + 2#32 :=
    congrArg Layout.nFatent hlayout
  have hfits := haccepted.fits_iff drive.size_lt hbound
  rw [← hlayout] at hfits hentries
  refine ⟨hboot, haccepted, hlayout, h, hentries, ?_, ?_⟩
  · rw [hmany, BitVec.lt_def, haccepted.toNat_nFatent, BitVec.toNat_ofNat]
    omega
  · rw [← hfits]
    exact ⟨fun ⟨hready, hrest⟩ => ⟨hready.fits, hrest⟩,
      fun ⟨hfats, hrest⟩ => ⟨⟨h.ready hfats, hentries⟩, hrest⟩⟩

/-- `mount_volume` takes the first FAT volume of the drive, and mounts it if its boot sector is
accepted; else, or if there is none, there is no filesystem. Only if a read fails may it take
another one, or end with a disk error. Nothing on the drive is changed. -/
theorem mountVolume_outcome (hin : ∀ s ∈ candidates (drive.content vol.disk), s.toNat < drive.size)
    (hvolumes : ∀ s ∈ candidates (drive.content vol.disk),
      bootSector (drive.content vol.disk s) = .fat →
        s.toNat + (totalSectors (drive.content vol.disk s)).toNat ≤ drive.size)
    (hnew : vol.fs.fsType = .none) (pdrv mode : BitVec 8) :
    ∃ res vol', mountVolume drive vol pdrv mode = (res, vol') ∧
      drive.content vol'.disk = drive.content vol.disk ∧
      ((∃ s ∈ candidates (drive.content vol.disk), res = .ok ∧
          MountedAt drive (drive.content vol.disk) s vol' ∧
          (firstFat (drive.content vol.disk) = some s ∨ drive.Unreadable)) ∨
        (res = .noFilesystem ∧ ((∀ s, firstFat (drive.content vol.disk) = some s →
          ¬ Accepted (drive.content vol.disk s)) ∨ drive.Unreadable)) ∨
        (res = .diskErr ∧ drive.Unreadable)) := by
  unfold mountVolume
  simp only [diskStatus, diskInitialize, BitVec.zero_and, hnew, ne_eq, not_true_eq_false,
    false_and, and_false, if_false]
  have hdisk : drive.content vol.disk = drive.content
      ({ vol with fs := { vol.fs with fsType := .none } } : Volume δ).disk := rfl
  generalize ({ vol with fs := { vol.fs with fsType := .none } } : Volume δ) = vol₀ at hdisk ⊢
  rw [hdisk] at hin hvolumes ⊢
  rcases hfind : findVolume drive vol₀ with ⟨fmt, vol₁⟩
  obtain ⟨hcontent, hfound⟩ := findVolume_found hin hfind
  generalize drive.content vol₀.disk = content at *
  have hfirst : firstFat content = (if fmt = .fat then some vol₁.fs.winsect else none) ∨
      drive.Unreadable := by
    by_cases hreads : drive.Unreadable
    · exact .inr hreads
    · exact .inl (hfound.first hreads)
  have hnone : fmt ≠ .fat →
      (∀ s, firstFat content = some s → ¬ Accepted (content s)) ∨ drive.Unreadable := by
    refine fun hfmt => hfirst.imp_left fun heq s hs => ?_
    rw [heq, if_neg hfmt] at hs
    cases hs
  cases fmt with
  | notFat => exact ⟨_, _, rfl, hcontent, .inr (.inl ⟨rfl, hnone (by decide)⟩)⟩
  | notBoot => exact ⟨_, _, rfl, hcontent, .inr (.inl ⟨rfl, hnone (by decide)⟩)⟩
  | diskError => exact ⟨_, _, rfl, hcontent, .inr (.inr ⟨rfl, hfound.read rfl⟩)⟩
  | fat =>
    obtain ⟨hmem, hwin, hboot⟩ := hfound.loaded rfl
    rw [if_pos rfl] at hfirst
    have hbound := hvolumes _ hmem (by rw [← hwin]; exact hboot)
    rcases hread : readBpb vol₁.fs vol₁.fs.winsect with ⟨fmt, fs⟩
    simp only [hread]
    by_cases hrefused : fmt = .none
    · rw [if_pos hrefused]
      refine ⟨_, _, rfl, hcontent, .inr (.inl ⟨rfl, hfirst.imp_left fun heq s hs haccepted => ?_⟩)⟩
      obtain rfl := Option.some.inj (heq.symm.trans hs)
      rw [← hwin] at haccepted
      have htype := congrArg Prod.fst (haccepted.readBpb.symm.trans hread)
      exact haccepted.fsType (htype.trans hrefused)
    rw [if_neg hrefused]
    obtain ⟨vol₂, hvol₂, hmounted, hlayout, haccepted⟩ :=
      laidOut_mounted ⟨hcontent, hfound.clean, fun _ => hwin⟩ (by rwa [hwin]) hread hrefused
    rw [hwin] at haccepted hboot hlayout
    exact ⟨_, vol₂, by rw [← hvol₂], hmounted.disk, .inl ⟨_, hmem, rfl,
      mounted_of_accepted hboot haccepted hlayout hmounted hbound, hfirst⟩⟩

end

/-! ## A volume to be mounted -/

/-- A drive with this sector in front, under an idle API. -/
def frontSector (boot : Sector) : DiskWorld (Fifo.bounded BlkReq 0) (Fifo.bounded Answer 0) :=
  ⟨ApiState.fresh oneDrive 0,
    ⟨512, fun i => if 0 ≤ i ∧ i < 512 then boot (Fin.ofNat 512 i.toNat) else 0#8⟩⟩

theorem idle_frontSector (boot : Sector) : Idle (frontSector boot).api := idle_idleWorld 512

theorem blocksize_frontSector (boot : Sector) : (frontSector boot).device.blocksize = 512 := rfl

/-- That drive, and a filesystem object that is not in use. -/
def unmounted (boot : Sector) :
    Volume (UsbDrive (Fifo.bounded BlkReq 0) (Fifo.bounded Answer 0)) where
  fs := { blankVolume.fs with fsType := .none }
  disk := ⟨frontSector boot, idle_frontSector boot, blocksize_frontSector boot⟩

/-- The boot sector of a FAT12 volume of 128 sectors. -/
def smallBoot : Sector := fun i =>
  match i.val with
  | 0 => 0xeb#8
  | 12 => 2#8
  | 13 => 1#8
  | 14 => 1#8
  | 16 => 2#8
  | 17 => 16#8
  | 19 => 128#8
  | 22 => 1#8
  | 510 => 0x55#8
  | 511 => 0xaa#8
  | _ => 0#8

theorem content_unmounted (boot : Sector) :
    (usbDrive _ _).content (unmounted boot).disk 0#32 = boot := by
  rw [usbDrive_content]
  funext i
  have hi := i.isLt
  have hzero : ((0#32).toNat : ℤ) = 0 := rfl
  simp only [UsbDrive.content, unmounted, frontSector]
  rw [hzero, if_pos (by omega)]
  refine congrArg boot (Fin.ext ?_)
  rw [Fin.val_ofNat]
  omega

/-- It is mounted, and its FATs and clusters lie on the drive. -/
theorem mountVolume_outcome_small : ∃ vol',
    mountVolume (usbDrive _ _) (unmounted smallBoot) 2#8 0#8 = (.ok, vol') ∧
    vol'.fs.toLayout = laidOut smallBoot 0#32 ∧ vol'.FatReady (usbDrive _ _) ∧
    vol'.fs.DataFit (2 ^ 31) := by
  have hcandidates : candidates ((usbDrive _ _).content (unmounted smallBoot).disk) = [0#32] := by
    rw [candidates, content_unmounted, if_neg (by decide)]
  have hok : (mountVolume (usbDrive _ _) (unmounted smallBoot) 2#8 0#8).1 = .ok := by decide
  obtain ⟨res, vol', hmount, -, hres⟩ := @mountVolume_outcome _ (usbDrive _ _)
    (unmounted smallBoot)
    (by rw [hcandidates, List.forall_mem_singleton]; decide)
    (by rw [hcandidates, List.forall_mem_singleton, content_unmounted]; decide) rfl 2#8 0#8
  rw [hmount] at hok
  obtain rfl : res = .ok := hok
  rcases hres with ⟨s, hs, -, hmounted, -⟩ | ⟨hno, -⟩ | ⟨hno, -⟩
  · rw [hcandidates, List.mem_singleton] at hs
    subst hs
    obtain ⟨-, -, hlayout, -, -, -, hfits⟩ := hmounted
    rw [content_unmounted] at hlayout hfits
    obtain ⟨hready, hdata, -⟩ := hfits.mpr (by decide)
    exact ⟨vol', hmount, hlayout, hready, hdata⟩
  · cases hno
  · cases hno

/-- A boot sector with two FATs of 2 GiB sectors is accepted, too. -/
def hugeBoot : Sector := fun i =>
  match i.val with
  | 0 => 0xeb#8
  | 12 => 2#8
  | 13 => 1#8
  | 14 => 32#8
  | 16 => 2#8
  | 34 => 2#8
  | 39 => 0x80#8
  | 44 => 2#8
  | 510 => 0x55#8
  | 511 => 0xaa#8
  | j => if 82 ≤ j ∧ j < 90 then fat32Name.getD (j - 82) 0#8 else 0#8

example : (mountVolume (usbDrive _ _) (unmounted hugeBoot) 2#8 0#8).1 = .ok ∧
    systemSize hugeBoot = 2 ^ 32 + 32 := by decide

end Sel4Xhci.Fat
