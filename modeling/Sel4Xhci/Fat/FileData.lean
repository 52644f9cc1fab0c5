import Sel4Xhci.Fat.Accesses
import Sel4Xhci.Fat.File

/-!
# Where the data of a file is

The sectors of a file are those of the clusters of its chain, in order. They lie behind the FATs,
and no two of them are the same. What a file holds is found there, except for the sector that is
dirty in the buffer of the file object.

## Main definitions

* `Layout.fileSect` — the sectors of a file, counted through
* `Layout.DataFit` — the clusters lie on the drive, behind the FATs
* `Fil.block` — what a sector of the file holds, the buffer included
* `Placed`, `Positioned` — the file object fits the file, and its position

## Main results

* `fileSect_injective` — no two sectors of a file are the same
* `disk_changed` — a write of data sectors behind the back of the window
* `flushBuf_spec` — the buffer can be written back at any time
-/

set_option autoImplicit false

namespace Sel4Xhci.Fat

open Semantics CString Chains Disk

/-- The clusters of the data area lie on the drive, behind the FATs. A cluster has a power of two
of sectors, 128 at most. -/
structure Layout.DataFit (l : Layout) (size : ℕ) : Prop where
  csize : ∃ k ≤ 7, l.csize.toNat = 2 ^ k
  fatPresent : 0 < l.fsize.toNat
  data : l.fatbase.toNat + l.nFats.toNat * l.fsize.toNat ≤ l.database.toNat
  clusters : l.database.toNat + l.csize.toNat * (l.nFatent.toNat - 2) ≤ size

/-- The `i`-th sector of the file with the clusters `cs`. -/
def Layout.fileSect (l : Layout) (cs : List (BitVec 32)) (i : ℕ) : Lba :=
  clst2sect l (cs.getD (i / l.csize.toNat) 0#32) + BitVec.ofNat 32 (i % l.csize.toNat)

/-- The number of sectors of a file with the clusters `cs`. -/
def Layout.sectors (l : Layout) (cs : List (BitVec 32)) : ℕ := l.csize.toNat * cs.length

/-- The sectors behind the FATs, and in front of them. -/
def Layout.IsData (l : Layout) (s : Lba) : Prop := ¬ l.InFat s ∧ s ∈ l.primary

variable {δ : Type} (drive : Drive δ)

/-- The buffer of a file object in front of the volume. -/
def Fil.window (fil : Fil) (vol : Volume δ) : Buffered Lba Sector where
  store := vol.content drive
  key := fil.sect
  block := fil.buf
  dirty := fil.faDirty

/-- What a sector holds, seen through the file object. -/
def Fil.content (fil : Fil) (vol : Volume δ) : Lba → Sector := (fil.window drive vol).content

/-- The `i`-th sector of the file. -/
def Fil.block (fil : Fil) (vol : Volume δ) (cs : List (BitVec 32)) (i : ℕ) : Sector :=
  fil.content drive vol (vol.fs.fileSect cs i)

/-- The `k`-th byte of the file. -/
def Fil.byte (fil : Fil) (vol : Volume δ) (cs : List (BitVec 32)) : ℕ → Byte :=
  bytesOf (fil.block drive vol cs)

/-- The file object belongs to the file with the clusters `cs`. A buffer that is in use belongs to
one of its sectors, and the window is elsewhere. -/
structure Placed (vol : Volume δ) (fil : Fil) (cs : List (BitVec 32)) : Prop where
  ready : vol.FatReady drive
  dataFit : vol.fs.DataFit drive.size
  chain : ListsChain (vol.cell drive) cs
  clusters : ∀ c ∈ cs, vol.fs.IsCluster c
  head : cs.head? = if fil.sclust = 0#32 then none else some fil.sclust
  long : fil.objsize.toNat ≤ 512 * vol.fs.sectors cs
  apart : ∀ i < vol.fs.sectors cs, vol.fs.fileSect cs i ≠ vol.fs.winsect
  owned : fil.faDirty = true ∨ fil.sect ≠ 0#32 →
    ∃ i < vol.fs.sectors cs, fil.sect = vol.fs.fileSect cs i

/-- The buffer is what it claims to be, if it claims to be anything. -/
def Fil.Current (fil : Fil) (vol : Volume δ) : Prop :=
  fil.sect ≠ 0#32 → vol.fs.IsData fil.sect ∧ (fil.window drive vol).Current

/-- The file object is in use at its position: the buffer holds the sector of the position, unless
the position is at the start of a sector. -/
structure Positioned (vol : Volume δ) (fil : Fil) (cs : List (BitVec 32)) : Prop where
  noErr : fil.err = .ok
  inFile : fil.fptr.toNat ≤ fil.objsize.toNat
  clust : 0 < fil.fptr.toNat →
    cs[(fil.fptr.toNat - 1) / (512 * vol.fs.csize.toNat)]? = some fil.clust
  loaded : fil.fptr.toNat % 512 ≠ 0 → fil.sect = vol.fs.fileSect cs (fil.fptr.toNat / 512)
  current : fil.Current drive vol

section

variable {drive} {vol vol' : Volume δ} {fil fil' : Fil} {cs : List (BitVec 32)} {l : Layout}
variable {size i j : ℕ} {c : BitVec 32}

/-! ## Sectors of clusters -/

theorem Layout.DataFit.csize_bounds (h : l.DataFit size) :
    0 < l.csize.toNat ∧ l.csize.toNat ≤ 128 := by
  obtain ⟨k, hk, hc⟩ := h.csize
  rw [hc]
  exact ⟨Nat.two_pow_pos k, (Nat.pow_le_pow_right (by omega) hk).trans (by decide)⟩

/-- The sectors of a cluster. -/
theorem Layout.DataFit.toNat_sect (h : l.DataFit size) (hsize : size < 2 ^ 32)
    (hc : l.IsCluster c) (hj : j < l.csize.toNat) :
    (clst2sect l c + BitVec.ofNat 32 j).toNat =
      l.database.toNat + l.csize.toNat * (c.toNat - 2) + j ∧
    l.database.toNat + l.csize.toNat * (c.toNat - 2) + j < size := by
  have hle := BitVec.le_def.mp hc.1
  have hlt := BitVec.lt_def.mp hc.2
  have hclusters := h.clusters
  rw [BitVec.toNat_ofNat] at hle
  have hstep : l.csize.toNat * (c.toNat - 2) + l.csize.toNat ≤
      l.csize.toNat * (l.nFatent.toNat - 2) := by
    rw [← Nat.mul_succ]
    exact Nat.mul_le_mul_left _ (by omega)
  have hsub : (c - 2#32).toNat = c.toNat - 2 := by
    rw [BitVec.toNat_sub_of_le hc.1]
    rfl
  have hsub' : (l.nFatent - 2#32).toNat = l.nFatent.toNat - 2 := by
    rw [BitVec.toNat_sub_of_le (by rw [BitVec.le_def, BitVec.toNat_ofNat]; omega)]
    rfl
  have hrange : ¬ c - 2#32 ≥ l.nFatent - 2#32 := by
    rw [ge_iff_le, BitVec.le_def, hsub, hsub']
    omega
  have hsect : clst2sect l c = l.database + l.csize.setWidth 32 * (c - 2#32) := if_neg hrange
  have hword := l.csize.isLt
  have hcsize : (l.csize.setWidth 32).toNat = l.csize.toNat := by
    rw [BitVec.toNat_setWidth, Nat.mod_eq_of_lt (by omega)]
  refine ⟨?_, by omega⟩
  rw [hsect, BitVec.toNat_add, BitVec.toNat_add, BitVec.toNat_mul, hcsize, hsub,
    BitVec.toNat_ofNat, Nat.mod_eq_of_lt (a := l.csize.toNat * (c.toNat - 2)) (by omega)]
  omega

theorem Layout.sectors_index (h : l.DataFit size) (hi : i < l.sectors cs) :
    i / l.csize.toNat < cs.length ∧ i % l.csize.toNat < l.csize.toNat := by
  have hpos := h.csize_bounds.1
  exact ⟨Nat.div_lt_of_lt_mul hi, Nat.mod_lt _ hpos⟩

/-- A sector of a file, in numbers. -/
theorem Layout.DataFit.toNat_fileSect (h : l.DataFit size) (hsize : size < 2 ^ 32)
    (hclusters : ∀ c ∈ cs, l.IsCluster c) (hi : i < l.sectors cs) :
    ∃ c, cs[i / l.csize.toNat]? = some c ∧ l.IsCluster c ∧
      (l.fileSect cs i).toNat =
        l.database.toNat + l.csize.toNat * (c.toNat - 2) + i % l.csize.toNat ∧
      (l.fileSect cs i).toNat < size := by
  obtain ⟨hlt, hmod⟩ := Layout.sectors_index h hi
  have hc := List.getElem?_eq_getElem hlt
  have hcluster := hclusters _ (List.getElem_mem hlt)
  obtain ⟨hsect, hsize'⟩ := h.toNat_sect hsize hcluster hmod
  have hget : cs.getD (i / l.csize.toNat) 0#32 = cs[i / l.csize.toNat] := by
    rw [List.getD_eq_getElem?_getD, hc, Option.getD_some]
  refine ⟨_, hc, hcluster, ?_, ?_⟩ <;> rw [Layout.fileSect, hget, hsect]
  exact hsize'

/-- The same sector in two files is the same one of the same cluster. -/
theorem Layout.DataFit.fileSect_eq (h : l.DataFit size) (hsize : size < 2 ^ 32)
    {ds : List (BitVec 32)} (hcs : ∀ c ∈ cs, l.IsCluster c) (hds : ∀ c ∈ ds, l.IsCluster c)
    (hi : i < l.sectors cs) (hj : j < l.sectors ds) (heq : l.fileSect cs i = l.fileSect ds j) :
    (∃ c, cs[i / l.csize.toNat]? = some c ∧ ds[j / l.csize.toNat]? = some c) ∧
      i % l.csize.toNat = j % l.csize.toNat := by
  obtain ⟨c, hc, hcluster, hsect, -⟩ := h.toNat_fileSect hsize hcs hi
  obtain ⟨d, hd, hcluster', hsect', -⟩ := h.toNat_fileSect hsize hds hj
  have hmod := (Layout.sectors_index h hi).2
  have hmod' := (Layout.sectors_index h hj).2
  have hc₂ := BitVec.le_def.mp hcluster.1
  have hd₂ := BitVec.le_def.mp hcluster'.1
  rw [BitVec.toNat_ofNat] at hc₂ hd₂
  have hpos := h.csize_bounds.1
  have hnum : l.csize.toNat * (c.toNat - 2) + i % l.csize.toNat =
      l.csize.toNat * (d.toNat - 2) + j % l.csize.toNat := by
    rw [heq] at hsect
    omega
  have hsub : c.toNat - 2 = d.toNat - 2 := by
    have hdiv := congrArg (· / l.csize.toNat) hnum
    simpa [Nat.mul_add_div hpos, Nat.div_eq_of_lt hmod, Nat.div_eq_of_lt hmod'] using hdiv
  have hcd : c = d := BitVec.eq_of_toNat_eq (by omega)
  rw [hsub] at hnum
  exact ⟨⟨c, hc, by rw [hcd]; exact hd⟩, by omega⟩

theorem Layout.DataFit.fileSect_injective (h : l.DataFit size) (hsize : size < 2 ^ 32)
    (hclusters : ∀ c ∈ cs, l.IsCluster c) {t : BitVec 32 → Cell (BitVec 32)}
    (hchain : ListsChain t cs) (hi : i < l.sectors cs) (hj : j < l.sectors cs)
    (heq : l.fileSect cs i = l.fileSect cs j) : i = j := by
  obtain ⟨⟨c, hc, hd⟩, hmod⟩ := h.fileSect_eq hsize hclusters hclusters hi hj heq
  rw [← Nat.div_add_mod i l.csize.toNat, ← Nat.div_add_mod j l.csize.toNat,
    hchain.injective hc hd, hmod]

/-- The sectors of a file are no part of the FATs. -/
theorem Layout.DataFit.fileSect_apart (h : l.DataFit size) (hsize : size < 2 ^ 32)
    (hfats : l.nFats = 1#8 ∨ l.nFats = 2#8) (hclusters : ∀ c ∈ cs, l.IsCluster c)
    (hi : i < l.sectors cs) : l.IsData (l.fileSect cs i) := by
  obtain ⟨c, -, -, hsect, hlt⟩ := h.toNat_fileSect hsize hclusters hi
  have hdata := h.data
  have hge : l.fatbase.toNat + l.nFats.toNat * l.fsize.toNat ≤ (l.fileSect cs i).toNat := by omega
  have hword := (l.fileSect cs i).isLt
  generalize l.fileSect cs i = s at hge hlt hword
  constructor
  · rw [Layout.InFat, BitVec.lt_def, BitVec.toNat_sub]
    rcases hfats with hn | hn <;> rw [hn] at hge <;> simp at hge <;> omega
  · rintro ⟨hn, hmirror⟩
    rw [hn] at hge
    rw [Layout.InFat, BitVec.lt_def, BitVec.toNat_sub, BitVec.toNat_sub] at hmirror
    simp at hge
    omega

/-- The drive has changed in some sectors that are neither in the window nor in the FAT. -/
theorem disk_changed (hready : vol.FatReady drive) {d : δ} {T : Set Lba}
    (hsame : ∀ t ∉ T, drive.content d t = drive.content vol.disk t)
    (hwin : vol.fs.winsect ∉ T) (hfat : ∀ t ∈ T, ¬ vol.fs.InFat t) :
    Volume.FatReady drive { vol with disk := d } ∧
      (∀ t ∉ T, Volume.content drive { vol with disk := d } t = vol.content drive t) ∧
      (∀ t ∈ T, Volume.content drive { vol with disk := d } t = drive.content d t) ∧
      ∀ c, vol.fs.IsCluster c →
        Volume.entry drive { vol with disk := d } c = vol.entry drive c := by
  have hout : ∀ t ∉ T,
      Volume.content drive { vol with disk := d } t = vol.content drive t :=
    fun t ht => Buffered.content_congr (b := vol.window drive) (hsame t ht)
  refine ⟨⟨⟨hready.fits, fun hne => ?_, hready.inDrive⟩, hready.entriesFit⟩, hout, ?_, ?_⟩
  · exact (hready.current hne).trans (hout _ hwin).symm
  · intro t ht
    have hsect : t ≠ vol.fs.winsect := by
      rintro rfl
      exact hwin ht
    exact Buffered.content_of_ne (b := Volume.window drive { vol with disk := d }) hsect
  · intro c hc
    refine entry_congr hready.entriesFit hc.2 fun k hk => ?_
    exact congrFun (hout _ fun ht => hfat _ ht (Layout.inFat_fatSect hk)) _

/-! ## The buffer written back and filled -/

/-- Seen through the file object, all that is behind or in front of the FATs is as it was, and so
is what the FAT says. -/
structure Same (drive : Drive δ) (vol : Volume δ) (fil : Fil) (vol' : Volume δ) (fil' : Fil) :
    Prop where
  near : NearFat vol vol'
  entry : ∀ c, vol.fs.IsCluster c → vol'.entry drive c = vol.entry drive c
  content : ∀ t, vol.fs.IsData t → fil'.content drive vol' t = fil.content drive vol t

theorem Same.layout (h : Same drive vol fil vol' fil') : vol'.fs.toLayout = vol.fs.toLayout :=
  h.near.1

theorem Same.cell (h : Same drive vol fil vol' fil') : vol'.cell drive = vol.cell drive :=
  cell_congr h.layout h.entry

theorem Same.refl : Same drive vol fil vol fil := ⟨.refl vol, fun _ _ => rfl, fun _ _ => rfl⟩

theorem Same.trans {vol'' : Volume δ} {fil'' : Fil} (h : Same drive vol fil vol' fil')
    (h' : Same drive vol' fil' vol'' fil'') : Same drive vol fil vol'' fil'' where
  near := h.near.trans h'.near
  entry c hc := (h'.entry c (by rwa [h.layout])).trans (h.entry c hc)
  content t ht := (h'.content t (by rwa [h.layout])).trans (h.content t ht)

/-- The position, the flags of the mode and the error do not matter for what a file holds. -/
theorem Same.congr {fil₁ : Fil} (h : Same drive vol fil vol' fil₁) (hsect : fil'.sect = fil₁.sect)
    (hbuf : fil'.buf = fil₁.buf) (hdirty : fil'.faDirty = fil₁.faDirty) :
    Same drive vol fil vol' fil' := by
  refine ⟨h.near, h.entry, fun t ht => ?_⟩
  rw [← h.content t ht]
  unfold Fil.content Fil.window
  rw [hsect, hbuf, hdirty]

/-- The buffer stays what it is, if its sector does. -/
theorem Fil.Current.to (h : fil.Current drive vol) (hlayout : vol'.fs.toLayout = vol.fs.toLayout)
    (hcontent : vol.fs.IsData fil.sect →
      fil'.content drive vol' fil.sect = fil.content drive vol fil.sect)
    (hsect : fil'.sect = fil.sect) (hbuf : fil'.buf = fil.buf) : fil'.Current drive vol' := by
  intro hne
  rw [hsect] at hne
  obtain ⟨hdata, hcurrent⟩ := h hne
  rw [hsect, hlayout]
  refine ⟨hdata, ?_⟩
  have hsame := hcontent hdata
  unfold Buffered.Current
  change fil'.buf = fil'.content drive vol' fil'.sect
  rw [hsect, hsame, hbuf]
  exact hcurrent

theorem Same.current (h : Same drive vol fil vol' fil') (hcurrent : fil.Current drive vol)
    (hsect : fil'.sect = fil.sect) (hbuf : fil'.buf = fil.buf) : fil'.Current drive vol' :=
  hcurrent.to h.layout (h.content _) hsect hbuf

/-- The parts of a file object that say where the file is and how far it was read. -/
def Fil.SamePlace (fil fil' : Fil) : Prop :=
  ∃ buf sect dirty, fil' = { fil with buf := buf, sect := sect, faDirty := dirty }

theorem Placed.isData (h : Placed drive vol fil cs) (hi : i < vol.fs.sectors cs) :
    vol.fs.IsData (vol.fs.fileSect cs i) :=
  h.dataFit.fileSect_apart drive.size_lt h.ready.fits.nFats h.clusters hi

theorem Same.block (h : Same drive vol fil vol' fil') (hplaced : Placed drive vol fil cs)
    (hi : i < vol.fs.sectors cs) : fil'.block drive vol' cs i = fil.block drive vol cs i := by
  rw [Fil.block, h.layout]
  exact h.content _ (hplaced.isData hi)

/-- A byte of the file, by the sector it is in. -/
theorem byte_congr {cs' : List (BitVec 32)} {k : ℕ}
    (h : fil'.block drive vol' cs' (k / 512) = fil.block drive vol cs (k / 512)) :
    fil'.byte drive vol' cs' k = fil.byte drive vol cs k := by
  rw [Fil.byte, Fil.byte, bytesOf, bytesOf, h]

/-- What does not belong to the file, the buffer cannot hide. -/
theorem Placed.content_of_ne (h : Placed drive vol fil cs) {t : Lba}
    (hne : ∀ i < vol.fs.sectors cs, t ≠ vol.fs.fileSect cs i) :
    fil.content drive vol t = vol.content drive t := by
  unfold Fil.content
  by_cases hdirty : fil.faDirty = true
  · obtain ⟨i, hi, hsect⟩ := h.owned (.inl hdirty)
    exact Buffered.content_of_ne fun hkey => hne i hi (hkey.trans hsect)
  · rw [Buffered.content_of_clean (Bool.eq_false_iff.mpr hdirty)]
    rfl

/-- All that does not belong to the file is as it was. -/
theorem Same.others (h : Same drive vol fil vol' fil') (hplaced : Placed drive vol fil cs)
    (hplaced' : Placed drive vol' fil' cs) {t : Lba} (ht : vol.fs.IsData t)
    (hne : ∀ i < vol.fs.sectors cs, t ≠ vol.fs.fileSect cs i) :
    vol'.content drive t = vol.content drive t := by
  rw [← hplaced.content_of_ne hne, ← h.content t ht, hplaced'.content_of_ne]
  rwa [h.layout]

theorem Placed.sect_lt (h : Placed drive vol fil cs) (hi : i < vol.fs.sectors cs) :
    (vol.fs.fileSect cs i).toNat < drive.size := by
  obtain ⟨-, -, -, -, hlt⟩ := h.dataFit.toNat_fileSect drive.size_lt h.clusters hi
  exact hlt

theorem Placed.sect_ne_zero (h : Placed drive vol fil cs) (hi : i < vol.fs.sectors cs) :
    vol.fs.fileSect cs i ≠ 0#32 := by
  intro hzero
  obtain ⟨c, -, -, hsect, -⟩ := h.dataFit.toNat_fileSect drive.size_lt h.clusters hi
  have hdata := h.dataFit.data
  have hfat := h.dataFit.fatPresent
  rw [hzero] at hsect
  rcases h.ready.fits.nFats with hn | hn <;> rw [hn] at hdata <;> simp at hdata hsect <;> omega

theorem Placed.injective (h : Placed drive vol fil cs) (hi : i < vol.fs.sectors cs)
    (hj : j < vol.fs.sectors cs) (heq : vol.fs.fileSect cs i = vol.fs.fileSect cs j) : i = j :=
  h.dataFit.fileSect_injective drive.size_lt h.clusters h.chain hi hj heq

/-- What a sector of the file holds on the drive, if it is not dirty in the buffer. -/
theorem Placed.block_of_ne (h : Placed drive vol fil cs) (hi : i < vol.fs.sectors cs)
    (hne : ¬ (vol.fs.fileSect cs i = fil.sect ∧ fil.faDirty = true)) :
    fil.block drive vol cs i = drive.content vol.disk (vol.fs.fileSect cs i) := by
  have hstore : fil.block drive vol cs i = vol.content drive (vol.fs.fileSect cs i) := by
    unfold Fil.block Fil.content
    by_cases hdirty : fil.faDirty = true
    · exact Buffered.content_of_ne fun hkey => hne ⟨hkey, hdirty⟩
    · rw [Buffered.content_of_clean (Bool.eq_false_iff.mpr hdirty)]
      rfl
  rw [hstore]
  exact Buffered.content_of_ne (b := vol.window drive) (h.apart i hi)

/-- The buffer holds what the file holds in its sector. -/
theorem Fil.Current.block (h : fil.Current drive vol) (hplaced : Placed drive vol fil cs)
    (hi : i < vol.fs.sectors cs) (hsect : fil.sect = vol.fs.fileSect cs i) :
    fil.buf = fil.block drive vol cs i := by
  have hcurrent := (h (by rw [hsect]; exact hplaced.sect_ne_zero hi)).2
  rw [Fil.block, ← hsect]
  exact hcurrent

/-- A buffer that holds a sector of the file. -/
theorem Placed.current (h : Placed drive vol fil cs) (hi : i < vol.fs.sectors cs)
    (hsect : fil.sect = vol.fs.fileSect cs i) (hbuf : fil.buf = fil.block drive vol cs i) :
    fil.Current drive vol := by
  refine fun _ => ⟨by rw [hsect]; exact h.isData hi, ?_⟩
  rw [Fil.block, ← hsect] at hbuf
  exact hbuf

/-- The buffer can be written back at any time; if the drive fails it stays dirty. -/
theorem flushBuf_spec (h : Placed drive vol fil cs) {res : FResult}
    (hflush : flushBuf drive vol fil = (res, vol', fil')) :
    Placed drive vol' fil' cs ∧ Same drive vol fil vol' fil' ∧
      (res = .ok ∧ fil' = { fil with faDirty := false } ∨
        res = .diskErr ∧ drive.Failing ∧ fil' = fil) := by
  unfold flushBuf at hflush
  by_cases hdirty : fil.faDirty = true
  swap
  · rw [if_neg hdirty, Prod.mk.injEq, Prod.mk.injEq] at hflush
    obtain ⟨rfl, rfl, rfl⟩ := hflush
    have hclean : fil.faDirty = false := Bool.eq_false_iff.mpr hdirty
    refine ⟨h, .refl, .inl ⟨rfl, ?_⟩⟩
    rw [← hclean]
  rw [if_pos hdirty] at hflush
  obtain ⟨n, hn, hsect⟩ := h.owned (.inl hdirty)
  have hin : fil.sect.toNat < drive.size := by
    rw [hsect]
    exact h.sect_lt hn
  rcases hwrite : drive.diskWrite vol.disk (fun _ => fil.buf) fil.sect 1 with ⟨wres, disk⟩
  rw [hwrite] at hflush
  have hframe : ∀ t ∉ ({fil.sect} : Set Lba), drive.content disk t = drive.content vol.disk t := by
    intro t ht
    have := drive.write_one_frame (d := vol.disk) (b := fil.buf) hin ht
    rwa [hwrite] at this
  have hwin : vol.fs.winsect ∉ ({fil.sect} : Set Lba) := by
    rintro heq
    exact h.apart n hn (hsect.symm.trans heq.symm)
  have hfat : ∀ t ∈ ({fil.sect} : Set Lba), ¬ vol.fs.InFat t := by
    rintro t rfl
    rw [hsect]
    exact (h.isData hn).1
  obtain ⟨hready, hout, hat, hentry⟩ := disk_changed h.ready hframe hwin hfat
  have hcell : Volume.cell drive { vol with disk := disk } = vol.cell drive := cell_congr rfl hentry
  have hplaced : ∀ dirty, (dirty = true → fil.faDirty = true) →
      Placed drive { vol with disk := disk } { fil with faDirty := dirty } cs := by
    intro dirty hd
    refine ⟨hready, h.dataFit, ?_, h.clusters, h.head, h.long, h.apart,
      fun hd' => h.owned (hd'.imp_left hd)⟩
    rw [hcell]
    exact h.chain
  -- Any other result of the drive becomes `FR_DISK_ERR`.
  have hwrong : wres ≠ .ok → .diskErr = res ∧ { vol with disk := disk } = vol' ∧ fil = fil' := by
    intro hne
    cases wres <;> simp_all
  by_cases hres : wres = .ok
  · subst hres
    simp only [Prod.mk.injEq] at hflush
    obtain ⟨rfl, rfl, rfl⟩ := hflush
    refine ⟨hplaced false nofun, ⟨.refl vol, hentry, fun t _ => ?_⟩, .inl ⟨rfl, rfl⟩⟩
    have hclean : Fil.content drive { fil with faDirty := false } { vol with disk := disk } =
        Volume.content drive { vol with disk := disk } := Buffered.content_of_clean rfl
    rw [hclean]
    by_cases hkey : t = fil.sect
    · subst hkey
      rw [hat _ rfl]
      have := drive.write_one_ok (d := vol.disk) (b := fil.buf) hin (by rw [hwrite])
      rw [hwrite] at this
      exact this.trans (Buffered.content_key_of_dirty (b := fil.window drive vol) hdirty).symm
    · rw [hout _ hkey]
      exact (Buffered.content_of_ne (b := fil.window drive vol) hkey).symm
  · -- The buffer is still dirty, so the file holds what it held whatever is on the disk now.
    obtain ⟨rfl, rfl, rfl⟩ := hwrong hres
    have hfailing : drive.Failing :=
      .inr ⟨vol.disk, fun _ => fil.buf, fil.sect, 1, by omega, hin, by rwa [hwrite]⟩
    refine ⟨?_, ⟨.refl vol, hentry, fun t _ => ?_⟩, .inr ⟨rfl, hfailing, rfl⟩⟩
    · exact hplaced fil.faDirty id
    · by_cases hkey : t = fil.sect
      · subst hkey
        have hretained := Buffered.content_key_of_dirty
          (b := fil.window drive { vol with disk := disk }) hdirty
        exact hretained.trans
          (Buffered.content_key_of_dirty (b := fil.window drive vol) hdirty).symm
      · exact Buffered.content_congr (b := fil.window drive vol) (hout _ hkey)

end

/-! ## An empty file -/

end Sel4Xhci.Fat
