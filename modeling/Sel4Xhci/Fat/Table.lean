import Sel4Xhci.Fat.Volume
import Sel4Xhci.Semantics.BitStream
import Mathlib.Tactic.IntervalCases

/-!
# Entries of the FAT, read

`get_fat` reads the entry of a cluster through the window. An entry is 12, 16 or 32 bits wide;
of 32 bits the upper four are not its own. An entry of 12 bits starts in the middle of a byte
if the cluster number is odd, and may lie in two sectors.

What the FAT says is stated about the bits of its sectors in order: the entries are fields of
equal width, side by side.

## Main definitions

* `getFat`, `clst2sect` — the code
* `Layout.entry` — the entry of a cluster, read off the bits of the FAT

## Main results

* `getFat_spec` — `get_fat` returns the entry, unless the drive fails
-/

set_option autoImplicit false

namespace Sel4Xhci.Fat

open Semantics BitStream CString

/-- `k % SS(fs)`. -/
def offset (k : BitVec 32) : Fin 512 := Fin.ofNat 512 k.toNat

/-- `ld_word`. -/
def ldWord (win : Sector) (ofs : Fin 512) : BitVec 16 :=
  (win (ofs + 1)).setWidth 16 <<< 8 ||| (win ofs).setWidth 16

/-- `ld_dword`. -/
def ldDword (win : Sector) (ofs : Fin 512) : BitVec 32 :=
  let rv := (win (ofs + 3)).setWidth 32
  let rv := rv <<< 8 ||| (win (ofs + 2)).setWidth 32
  let rv := rv <<< 8 ||| (win (ofs + 1)).setWidth 32
  rv <<< 8 ||| (win ofs).setWidth 32

/-- `clst2sect`; 0 for a number that is not that of a cluster. -/
def clst2sect (fs : Layout) (clst : BitVec 32) : Lba :=
  let clst := clst - 2#32
  if clst ≥ fs.nFatent - 2#32 then 0#32 else fs.database + fs.csize.setWidth 32 * clst

/-- The value of `get_fat` for a disk error. -/
def diskError : BitVec 32 := 0xffffffff#32

variable {δ : Type} (drive : Drive δ)

/-- `get_fat`. -/
def getFat (vol : Volume δ) (clst : BitVec 32) : BitVec 32 × Volume δ :=
  if clst < 2#32 ∨ clst ≥ vol.fs.nFatent then (1#32, vol)
  else
    match vol.fs.fsType with
    | .fat12 =>
      let bc := clst + clst / 2#32
      let (res, vol) := moveWindow drive vol (vol.fs.fatbase + bc / 512#32)
      if res ≠ .ok then (diskError, vol) else
      let wc := (vol.fs.win (offset bc)).setWidth 32
      let bc := bc + 1#32
      let (res, vol) := moveWindow drive vol (vol.fs.fatbase + bc / 512#32)
      if res ≠ .ok then (diskError, vol) else
      let wc := wc ||| (vol.fs.win (offset bc)).setWidth 32 <<< 8
      (if clst &&& 1#32 ≠ 0#32 then wc >>> 4 else wc &&& 0xfff#32, vol)
    | .fat16 =>
      let (res, vol) := moveWindow drive vol (vol.fs.fatbase + clst / 256#32)
      if res ≠ .ok then (diskError, vol) else
      ((ldWord vol.fs.win (offset (clst * 2#32))).setWidth 32, vol)
    | .fat32 =>
      let (res, vol) := moveWindow drive vol (vol.fs.fatbase + clst / 128#32)
      if res ≠ .ok then (diskError, vol) else
      (ldDword vol.fs.win (offset (clst * 4#32)) &&& 0x0fffffff#32, vol)
    | .none => (1#32, vol)

/-! ## The bits of the FAT -/

/-- The width of an entry. -/
def FsType.width : FsType → ℕ
  | .fat12 => 12
  | .fat16 => 16
  | .fat32 => 32
  | .none => 0

/-- How many of these bits are the value of the entry. -/
def FsType.bits : FsType → ℕ
  | .fat12 => 12
  | .fat16 => 16
  | .fat32 => 28
  | .none => 0

/-- The largest number of entries, with the two that stand for no cluster. -/
def FsType.maxEntries : FsType → ℕ
  | .fat12 => 0xff7
  | .fat16 => 0xfff7
  | .fat32 => 0x0ffffff7
  | .none => 0

/-- The entries fit in the FAT, and their number in an entry. -/
structure Layout.EntriesFit (l : Layout) : Prop where
  entries : l.nFatent.toNat ≤ l.fsType.maxEntries
  fsize : l.fsType.width * l.nFatent.toNat ≤ 8 * (512 * l.fsize.toNat)

/-- The sector that the `k`-th byte of the FAT is in. -/
def Layout.fatSect (l : Layout) (k : ℕ) : Lba := l.fatbase + BitVec.ofNat 32 (k / 512)

/-- The bytes of the FAT in order. -/
def Layout.table (l : Layout) (content : Lba → Sector) (k : ℕ) : Byte :=
  content (l.fatSect k) (Fin.ofNat 512 k)

/-- The entry of a cluster. -/
def Layout.entry (l : Layout) (content : Lba → Sector) (clst : BitVec 32) : BitVec 32 :=
  (field (l.table content) (l.fsType.width * clst.toNat) l.fsType.bits).setWidth 32

/-- The entry of a cluster of a volume. -/
def Volume.entry (vol : Volume δ) (clst : BitVec 32) : BitVec 32 :=
  vol.fs.entry (vol.content drive) clst

/-- The volume is ready for accesses to its FAT. -/
structure Volume.FatReady (vol : Volume δ) : Prop extends vol.Ready drive where
  entriesFit : vol.fs.EntriesFit

/-- A cluster of the volume: a number with an entry of its own. -/
def Layout.IsCluster (l : Layout) (clst : BitVec 32) : Prop := 2#32 ≤ clst ∧ clst < l.nFatent

section

variable {drive} {vol vol' : Volume δ} {l : Layout} {clst val : BitVec 32} {k : ℕ}

theorem Layout.inFat_fatSect (hk : k < 512 * l.fsize.toNat) : l.InFat (l.fatSect k) := by
  have := l.fsize.isLt
  rw [InFat, fatSect, BitVec.add_comm, BitVec.add_sub_cancel, BitVec.lt_def, BitVec.toNat_ofNat,
    Nat.mod_eq_of_lt (by omega)]
  omega

/-- Two bytes of the FAT are in one sector if they are in the same 512 bytes. -/
theorem Layout.fatSect_inj {j : ℕ} (hj : j < 512 * l.fsize.toNat)
    (hk : k < 512 * l.fsize.toNat) :
    l.fatSect j = l.fatSect k ↔ j / 512 = k / 512 := by
  have := l.fsize.isLt
  unfold fatSect
  rw [BitVec.add_right_inj]
  constructor
  · intro h
    have := congrArg BitVec.toNat h
    rwa [BitVec.toNat_ofNat, BitVec.toNat_ofNat, Nat.mod_eq_of_lt (by omega),
      Nat.mod_eq_of_lt (by omega)] at this
  · intro h
    rw [h]

theorem Volume.FatReady.unchanged (h : vol.FatReady drive) (hsame : Unchanged drive vol vol') :
    vol'.FatReady drive := by
  refine ⟨hsame.ready, ?_⟩
  rw [hsame.layout]
  exact h.entriesFit

/-- Moves of the window leave the bytes of the FAT. -/
theorem Unchanged.table (h : Unchanged drive vol vol') (hready : vol.FatReady drive)
    (hk : k < 512 * vol.fs.fsize.toNat) :
    vol'.fs.table (vol'.content drive) k = vol.fs.table (vol.content drive) k := by
  rw [h.layout]
  exact congrFun (h.content (hready.fits.primary_of_inFat drive.size_lt
    (Layout.inFat_fatSect hk))) _

/-- The window at a sector of the FAT. -/
theorem moveWindow_fat (hready : vol.FatReady drive) (hk : k < 512 * vol.fs.fsize.toNat) :
    Unchanged drive vol (moveWindow drive vol (vol.fs.fatSect k)).2 ∧
      ((moveWindow drive vol (vol.fs.fatSect k)).1 = .ok →
        (moveWindow drive vol (vol.fs.fatSect k)).2.fs.winsect = vol.fs.fatSect k ∧
        (moveWindow drive vol (vol.fs.fatSect k)).2.fs.win =
          vol.content drive (vol.fs.fatSect k)) ∧
      ((moveWindow drive vol (vol.fs.fatSect k)).1 ≠ .ok →
        (moveWindow drive vol (vol.fs.fatSect k)).1 = .diskErr ∧ drive.Failing) := by
  have hfat := Layout.inFat_fatSect hk
  obtain ⟨-, hlt, hsize⟩ := hready.fits.toNat_of_inFat drive.size_lt hfat
  have hin : (vol.fs.fatSect k).toNat < drive.size := by omega
  have hsame := moveWindow_unchanged hready.toReady hin
  refine ⟨hsame, fun hok => ?_, (moveWindow_ends hready.toReady hin).resolve_left⟩
  obtain ⟨hsect, hwin⟩ := moveWindow_ok hready.toReady hin hok
  refine ⟨hsect, hwin.trans ?_⟩
  exact hsame.content (hready.fits.primary_of_inFat drive.size_lt hfat)

/-! ## Reading an entry -/

/-- A number is a field, filled up with zeros, if its bits are. -/
theorem eq_field_setWidth {t : ℕ → Byte} {v : BitVec 32} {lo w : ℕ}
    (h : ∀ i < 32, v.getLsbD i = (decide (i < w) && bit t (lo + i))) :
    v = (field t lo w).setWidth 32 := by
  refine BitVec.eq_of_getLsbD_eq fun i hi => ?_
  rw [h i hi, BitVec.getLsbD_setWidth]
  by_cases hi' : i < w
  · rw [getLsbD_field hi']
    simp [hi, hi']
  · rw [BitVec.getLsbD_of_ge _ i (Nat.le_of_not_lt hi')]
    simp [hi']

/-- Two bytes hold an entry of 12 bits and half of another one. -/
theorem fat12_value (t : ℕ → Byte) {c bc : ℕ} (hbc : bc = c + c / 2) :
    let wc := (t bc).setWidth 32 ||| (t (bc + 1)).setWidth 32 <<< 8
    (if c % 2 = 1 then wc >>> 4 else wc &&& 0xfff#32) = (field t (12 * c) 12).setWidth 32 := by
  intro wc
  refine eq_field_setWidth fun i hi => ?_
  split_ifs with hodd
  · have hstart : 12 * c + i = 8 * bc + (4 + i) := by omega
    rw [hstart, bit_byte_add]
    interval_cases i <;> simp [wc]
  · have hstart : 12 * c + i = 8 * bc + i := by omega
    rw [hstart, bit_byte_add]
    interval_cases i <;> simp [wc]

/-- So do two bytes for an entry of 16 bits. -/
theorem fat16_value (t : ℕ → Byte) (c : ℕ) :
    (((t (2 * c + 1)).setWidth 16 <<< 8 ||| (t (2 * c)).setWidth 16 : BitVec 16)).setWidth 32 =
      (field t (16 * c) 16).setWidth 32 := by
  refine eq_field_setWidth fun i hi => ?_
  have hstart : 16 * c + i = 8 * (2 * c) + i := by omega
  rw [hstart, bit_byte_add]
  interval_cases i <;> simp

/-- Of four bytes the upper four bits are not part of the entry. -/
theorem fat32_value (t : ℕ → Byte) (c : ℕ) :
    ((((((t (4 * c + 3)).setWidth 32 <<< 8 ||| (t (4 * c + 2)).setWidth 32) <<< 8 |||
      (t (4 * c + 1)).setWidth 32) <<< 8 ||| (t (4 * c)).setWidth 32) &&& 0x0fffffff#32) :
        BitVec 32) = (field t (32 * c) 28).setWidth 32 := by
  refine eq_field_setWidth fun i hi => ?_
  have hstart : 32 * c + i = 8 * (4 * c) + i := by omega
  rw [hstart, bit_byte_add]
  interval_cases i <;> simp

theorem Layout.fatbase_add {x : BitVec 32} (h : x.toNat = k / 512) :
    l.fatbase + x = l.fatSect k := by
  have hx : x = BitVec.ofNat 32 (k / 512) := by
    rw [← h, BitVec.ofNat_toNat, BitVec.setWidth_eq]
  rw [fatSect, hx]

theorem odd_iff (clst : BitVec 32) : clst &&& 1#32 ≠ 0#32 ↔ clst.toNat % 2 = 1 := by
  rw [ne_eq, ← BitVec.toNat_inj, BitVec.toNat_and]
  simp [Nat.and_one_is_mod]

theorem ofNat_add (k j : ℕ) : Fin.ofNat 512 k + Fin.ofNat 512 j = Fin.ofNat 512 (k + j) := by
  rw [Fin.ext_iff, Fin.val_add]
  simp

/-- A cluster passes the range check of `put_fat`. -/
theorem Layout.IsCluster.inside (hc : l.IsCluster clst) : clst ≥ 2#32 ∧ clst < l.nFatent := hc

/-- So it does that of `get_fat`. -/
theorem Layout.IsCluster.not_outside (hc : l.IsCluster clst) :
    ¬ (clst < 2#32 ∨ clst ≥ l.nFatent) := by
  rw [not_or, BitVec.not_lt, ge_iff_le, BitVec.not_le]
  exact hc

/-- A cluster, its entry and the FAT, in numbers. -/
theorem Layout.IsCluster.bounds (hc : l.IsCluster clst) (h : l.EntriesFit) :
    2 ≤ clst.toNat ∧ clst.toNat < l.nFatent.toNat ∧
      l.fsType.width * (clst.toNat + 1) ≤ 8 * (512 * l.fsize.toNat) := by
  obtain ⟨hle, hlt⟩ := hc
  rw [BitVec.le_def] at hle
  rw [BitVec.lt_def] at hlt
  exact ⟨hle, hlt, (Nat.mul_le_mul_left _ hlt).trans h.fsize⟩

/-- The two bytes with an entry of 12 bits, as `get_fat` and `put_fat` find them. -/
theorem Layout.IsCluster.fat12 (hc : l.IsCluster clst) (h : l.EntriesFit)
    (htype : l.fsType = .fat12) :
    (clst + clst / 2#32).toNat = clst.toNat + clst.toNat / 2 ∧
      (clst + clst / 2#32 + 1#32).toNat = clst.toNat + clst.toNat / 2 + 1 ∧
      l.fatbase + (clst + clst / 2#32) / 512#32 = l.fatSect (clst.toNat + clst.toNat / 2) ∧
      l.fatbase + (clst + clst / 2#32 + 1#32) / 512#32 =
        l.fatSect (clst.toNat + clst.toNat / 2 + 1) ∧
      clst.toNat + clst.toNat / 2 + 1 < 512 * l.fsize.toNat := by
  obtain ⟨-, hlt, hbytes⟩ := hc.bounds h
  have hentries := h.entries
  rw [htype] at hbytes hentries
  simp only [FsType.width, FsType.maxEntries] at hbytes hentries
  have hbc : (clst + clst / 2#32).toNat = clst.toNat + clst.toNat / 2 := by
    simp
    omega
  have hnext : (clst + clst / 2#32 + 1#32).toNat = clst.toNat + clst.toNat / 2 + 1 := by
    rw [BitVec.toNat_add, hbc]
    simp
    omega
  exact ⟨hbc, hnext, fatbase_add (by simp [hbc]), fatbase_add (by simp [hnext]), by omega⟩

/-- The bytes of an entry of 16 bits. -/
theorem Layout.IsCluster.fat16 (hc : l.IsCluster clst) (h : l.EntriesFit)
    (htype : l.fsType = .fat16) :
    l.fatbase + clst / 256#32 = l.fatSect (2 * clst.toNat) ∧
      offset (clst * 2#32) = Fin.ofNat 512 (2 * clst.toNat) ∧
      2 * clst.toNat + 1 < 512 * l.fsize.toNat := by
  obtain ⟨-, hlt, hbytes⟩ := hc.bounds h
  have hentries := h.entries
  rw [htype] at hbytes hentries
  simp only [FsType.width, FsType.maxEntries] at hbytes hentries
  refine ⟨fatbase_add (by simp; omega), ?_, by omega⟩
  simp [offset, Fin.ext_iff]
  omega

/-- The bytes of an entry of 32 bits. -/
theorem Layout.IsCluster.fat32 (hc : l.IsCluster clst) (h : l.EntriesFit)
    (htype : l.fsType = .fat32) :
    l.fatbase + clst / 128#32 = l.fatSect (4 * clst.toNat) ∧
      offset (clst * 4#32) = Fin.ofNat 512 (4 * clst.toNat) ∧
      4 * clst.toNat + 3 < 512 * l.fsize.toNat := by
  obtain ⟨-, hlt, hbytes⟩ := hc.bounds h
  have hentries := h.entries
  rw [htype] at hbytes hentries
  simp only [FsType.width, FsType.maxEntries] at hbytes hentries
  refine ⟨fatbase_add (by simp; omega), ?_, by omega⟩
  simp [offset, Fin.ext_iff]
  omega

/-- A volume with clusters has a type. -/
theorem Layout.IsCluster.fsType_ne (hc : l.IsCluster clst) (h : l.EntriesFit) :
    l.fsType ≠ .none := by
  intro htype
  obtain ⟨-, hlt, -⟩ := hc.bounds h
  have hentries := h.entries
  rw [htype] at hentries
  simp only [FsType.maxEntries] at hentries
  omega

section Window

variable {t : ℕ → Byte} {win : Sector}

/-- The sector of the `k`-th byte of the FAT holds the bytes around it. -/
theorem Layout.window_table {content : Lba → Sector} (hwin : win = content (l.fatSect k)) :
    ∀ j, j / 512 = k / 512 → win (Fin.ofNat 512 j) = l.table content j := by
  intro j hj
  rw [hwin, table, fatSect, fatSect, hj]

theorem ldWord_window (hk : (k + 1) / 512 = k / 512)
    (hwin : ∀ j, j / 512 = k / 512 → win (Fin.ofNat 512 j) = t j) :
    ldWord win (Fin.ofNat 512 k) =
      (t (k + 1)).setWidth 16 <<< 8 ||| (t k).setWidth 16 := by
  have hnext : Fin.ofNat 512 k + 1 = Fin.ofNat 512 (k + 1) := ofNat_add k 1
  rw [ldWord, hnext, hwin _ hk, hwin k rfl]

theorem ldDword_window (hk : (k + 3) / 512 = k / 512)
    (hwin : ∀ j, j / 512 = k / 512 → win (Fin.ofNat 512 j) = t j) :
    ldDword win (Fin.ofNat 512 k) = (((t (k + 3)).setWidth 32 <<< 8 |||
      (t (k + 2)).setWidth 32) <<< 8 ||| (t (k + 1)).setWidth 32) <<< 8 |||
        (t k).setWidth 32 := by
  have h₁ : Fin.ofNat 512 k + 1 = Fin.ofNat 512 (k + 1) := ofNat_add k 1
  have h₂ : Fin.ofNat 512 k + 2 = Fin.ofNat 512 (k + 2) := ofNat_add k 2
  have h₃ : Fin.ofNat 512 k + 3 = Fin.ofNat 512 (k + 3) := ofNat_add k 3
  simp only [ldDword, h₁, h₂, h₃, hwin (k + 1) (by omega), hwin (k + 2) (by omega),
    hwin (k + 3) hk, hwin k rfl]

end Window

/-- `get_fat` for entries of 12 bits. -/
theorem getFat_fat12 (hready : vol.FatReady drive) (hc : vol.fs.IsCluster clst)
    (htype : vol.fs.fsType = .fat12) :
    Unchanged drive vol (getFat drive vol clst).2 ∧
      ((getFat drive vol clst).1 = vol.entry drive clst ∨
        (getFat drive vol clst).1 = diskError ∧ drive.Failing) := by
  obtain ⟨hbc, hnext, hfirst, hsecond, hk⟩ := hc.fat12 hready.entriesFit htype
  unfold getFat Volume.entry Layout.entry
  rw [if_neg hc.not_outside, htype]
  simp only [FsType.width, FsType.bits]
  -- The entry starts in the byte `bc`, and ends in the next one, maybe in another sector.
  obtain ⟨hsame, hwin, hfails⟩ :=
    moveWindow_fat hready (k := clst.toNat + clst.toNat / 2) (by omega)
  rcases hmove : moveWindow drive vol (vol.fs.fatSect (clst.toNat + clst.toNat / 2))
    with ⟨res, vol₁⟩
  rw [hmove] at hsame hwin hfails
  simp only [hfirst, hmove]
  by_cases hres : res = .ok
  swap
  · rw [if_pos hres]
    exact ⟨hsame, .inr ⟨rfl, (hfails hres).2⟩⟩
  rw [if_neg (not_not.mpr hres)]
  rw [← hsame.layout] at hsecond hk
  obtain ⟨hsame', hwin', hfails'⟩ := moveWindow_fat (hready.unchanged hsame) hk
  rcases hmove' : moveWindow drive vol₁ (vol₁.fs.fatSect (clst.toNat + clst.toNat / 2 + 1))
    with ⟨res', vol₂⟩
  rw [hmove'] at hsame' hwin' hfails'
  simp only [hsecond, hmove']
  by_cases hres' : res' = .ok
  swap
  · rw [if_pos hres']
    exact ⟨hsame.trans hsame', .inr ⟨rfl, (hfails' hres').2⟩⟩
  rw [if_neg (not_not.mpr hres')]
  refine ⟨hsame.trans hsame', .inl ?_⟩
  have hbyte : vol₁.fs.win (offset (clst + clst / 2#32)) =
      vol.fs.table (vol.content drive) (clst.toNat + clst.toNat / 2) := by
    rw [offset, hbc, Layout.window_table (hwin hres).2 _ rfl]
  have hbyte' : vol₂.fs.win (offset (clst + clst / 2#32 + 1#32)) =
      vol.fs.table (vol.content drive) (clst.toNat + clst.toNat / 2 + 1) := by
    rw [offset, hnext, Layout.window_table (hwin' hres').2 _ rfl]
    exact hsame.table hready (by rwa [← hsame.layout])
  rw [← fat12_value _ rfl, hbyte, hbyte']
  simp only [odd_iff]

/-- `get_fat` for entries of 16 bits. -/
theorem getFat_fat16 (hready : vol.FatReady drive) (hc : vol.fs.IsCluster clst)
    (htype : vol.fs.fsType = .fat16) :
    Unchanged drive vol (getFat drive vol clst).2 ∧
      ((getFat drive vol clst).1 = vol.entry drive clst ∨
        (getFat drive vol clst).1 = diskError ∧ drive.Failing) := by
  obtain ⟨hsect, hofs, hk⟩ := hc.fat16 hready.entriesFit htype
  unfold getFat Volume.entry Layout.entry
  rw [if_neg hc.not_outside, htype]
  simp only [FsType.width, FsType.bits]
  obtain ⟨hsame, hwin, hfails⟩ := moveWindow_fat hready (k := 2 * clst.toNat) (by omega)
  rcases hmove : moveWindow drive vol (vol.fs.fatSect (2 * clst.toNat)) with ⟨res, vol'⟩
  rw [hmove] at hsame hwin hfails
  simp only [hsect, hmove]
  by_cases hres : res = .ok
  swap
  · rw [if_pos hres]
    exact ⟨hsame, .inr ⟨rfl, (hfails hres).2⟩⟩
  rw [if_neg (not_not.mpr hres)]
  refine ⟨hsame, .inl ?_⟩
  rw [← fat16_value, hofs, ldWord_window (by omega) (Layout.window_table (hwin hres).2)]

/-- `get_fat` for entries of 32 bits. -/
theorem getFat_fat32 (hready : vol.FatReady drive) (hc : vol.fs.IsCluster clst)
    (htype : vol.fs.fsType = .fat32) :
    Unchanged drive vol (getFat drive vol clst).2 ∧
      ((getFat drive vol clst).1 = vol.entry drive clst ∨
        (getFat drive vol clst).1 = diskError ∧ drive.Failing) := by
  obtain ⟨hsect, hofs, hk⟩ := hc.fat32 hready.entriesFit htype
  unfold getFat Volume.entry Layout.entry
  rw [if_neg hc.not_outside, htype]
  simp only [FsType.width, FsType.bits]
  obtain ⟨hsame, hwin, hfails⟩ := moveWindow_fat hready (k := 4 * clst.toNat) (by omega)
  rcases hmove : moveWindow drive vol (vol.fs.fatSect (4 * clst.toNat)) with ⟨res, vol'⟩
  rw [hmove] at hsame hwin hfails
  simp only [hsect, hmove]
  by_cases hres : res = .ok
  swap
  · rw [if_pos hres]
    exact ⟨hsame, .inr ⟨rfl, (hfails hres).2⟩⟩
  rw [if_neg (not_not.mpr hres)]
  refine ⟨hsame, .inl ?_⟩
  rw [← fat32_value, hofs, ldDword_window (by omega) (Layout.window_table (hwin hres).2)]

/-- `get_fat` reads the entry of the cluster, or fails if the drive does; the volume is not
changed. -/
theorem getFat_spec (hready : vol.FatReady drive) (hc : vol.fs.IsCluster clst) :
    Unchanged drive vol (getFat drive vol clst).2 ∧
      ((getFat drive vol clst).1 = vol.entry drive clst ∨
        (getFat drive vol clst).1 = diskError ∧ drive.Failing) := by
  cases htype : vol.fs.fsType with
  | fat12 => exact getFat_fat12 hready hc htype
  | fat16 => exact getFat_fat16 hready hc htype
  | fat32 => exact getFat_fat32 hready hc htype
  | none => exact absurd htype (hc.fsType_ne hready.entriesFit)

end

end Sel4Xhci.Fat
