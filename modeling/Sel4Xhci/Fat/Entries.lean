import Sel4Xhci.Fat.Table
import Sel4Xhci.Fat.Usb

/-!
# Entries of the FAT, written

`put_fat` stores the entry of a cluster in the window and leaves it dirty. The neighbours of an
entry of 12 bits share a byte with it, and the upper four bits of an entry of 32 bits are kept.
An entry of 12 bits may lie in two sectors; if the second one cannot be had, its first byte is
changed already.

## Main definitions

* `putFat` — the code
* `Layout.Straddles` — the entry lies in two sectors
* `EntriesSet` — the entries are given by a function, and nothing else has changed

## Main results

* `putFat_spec` — `put_fat` stores the bits of the entry and no others; if it fails, at most this
  one entry is damaged, and only if it lies in two sectors
* `EntryStored.entries` — the other entries are as before
* `getFat_putFat` — what `get_fat` returns after `put_fat`
-/

set_option autoImplicit false

namespace Sel4Xhci.Fat

open Semantics BitStream CString

/-- `st_word`. -/
def stWord (win : Sector) (ofs : Fin 512) (val : BitVec 16) : Sector :=
  let win := Function.update win ofs (val.setWidth 8)
  Function.update win (ofs + 1) ((val >>> 8).setWidth 8)

/-- `st_dword`. -/
def stDword (win : Sector) (ofs : Fin 512) (val : BitVec 32) : Sector :=
  let win := Function.update win ofs (val.setWidth 8)
  let win := Function.update win (ofs + 1) ((val >>> 8).setWidth 8)
  let win := Function.update win (ofs + 2) ((val >>> 16).setWidth 8)
  Function.update win (ofs + 3) ((val >>> 24).setWidth 8)

/-- A change of the window, which is dirty then. -/
def Volume.edit {δ : Type} (vol : Volume δ) (f : Sector → Sector) : Volume δ :=
  { vol with fs := { vol.fs with win := f vol.fs.win, wflag := true } }

variable {δ : Type} (drive : Drive δ)

/-- `put_fat`. -/
def putFat (vol : Volume δ) (clst val : BitVec 32) : FResult × Volume δ :=
  if clst ≥ 2#32 ∧ clst < vol.fs.nFatent then
    match vol.fs.fsType with
    | .fat12 =>
      let bc := clst + clst / 2#32
      let (res, vol) := moveWindow drive vol (vol.fs.fatbase + bc / 512#32)
      if res ≠ .ok then (res, vol) else
      let p := offset bc
      let vol := vol.edit fun win => Function.update win p
        (if clst &&& 1#32 ≠ 0#32 then (win p &&& 0x0f#8) ||| (val.setWidth 8 <<< 4)
          else val.setWidth 8)
      let bc := bc + 1#32
      let (res, vol) := moveWindow drive vol (vol.fs.fatbase + bc / 512#32)
      if res ≠ .ok then (res, vol) else
      let p := offset bc
      (.ok, vol.edit fun win => Function.update win p
        (if clst &&& 1#32 ≠ 0#32 then (val >>> 4).setWidth 8
          else (win p &&& 0xf0#8) ||| ((val >>> 8).setWidth 8 &&& 0x0f#8)))
    | .fat16 =>
      let (res, vol) := moveWindow drive vol (vol.fs.fatbase + clst / 256#32)
      if res ≠ .ok then (res, vol) else
      (.ok, vol.edit fun win => stWord win (offset (clst * 2#32)) (val.setWidth 16))
    | .fat32 =>
      let (res, vol) := moveWindow drive vol (vol.fs.fatbase + clst / 128#32)
      if res ≠ .ok then (res, vol) else
      let p := offset (clst * 4#32)
      (.ok, vol.edit fun win => stDword win p
        ((val &&& 0x0fffffff#32) ||| (ldDword win p &&& 0xf0000000#32)))
    | .none => (.intErr, vol)
  else (.intErr, vol)

/-- The bytes of the FAT have become `t`, and nothing else has changed. -/
structure TableStored (vol vol' : Volume δ) (t : ℕ → Byte) : Prop where
  layout : vol'.fs.toLayout = vol.fs.toLayout
  freeClst : vol'.fs.freeClst = vol.fs.freeClst
  lastClst : vol'.fs.lastClst = vol.fs.lastClst
  fsiFlag : vol'.fs.fsiFlag = vol.fs.fsiFlag
  table : ∀ k < 512 * vol.fs.fsize.toNat, vol.fs.table (vol'.content drive) k = t k
  others : ∀ s ∈ vol.fs.primary, ¬ vol.fs.InFat s → vol'.content drive s = vol.content drive s
  ready : vol'.FatReady drive

/-- The entry of a cluster has become `val`, and nothing else has changed. -/
def EntryStored (vol vol' : Volume δ) (clst val : BitVec 32) : Prop :=
  ∃ t, TableStored drive vol vol' t ∧
    StoresField (8 * (512 * vol.fs.fsize.toNat)) (vol.fs.table (vol.content drive)) t
      (vol.fs.fsType.width * clst.toNat) vol.fs.fsType.bits (val.setWidth vol.fs.fsType.bits)

section

variable {drive} {vol vol' : Volume δ} {l : Layout} {clst val : BitVec 32} {k : ℕ}

/-! ## Writing an entry -/

section Stores

variable {t t' : ℕ → Byte} {vol₁ : Volume δ}

theorem Unchanged.tableStored (h : Unchanged drive vol vol') (hready : vol.FatReady drive) :
    TableStored drive vol vol' (vol.fs.table (vol.content drive)) where
  layout := h.layout
  freeClst := h.freeClst
  lastClst := h.lastClst
  fsiFlag := h.fsiFlag
  table k hk := by
    rw [← h.table hready hk, h.layout]
  others s hs _ := h.content hs
  ready := hready.unchanged h

theorem TableStored.unchanged (h : TableStored drive vol vol₁ t)
    (hsame : Unchanged drive vol₁ vol') : TableStored drive vol vol' t where
  layout := hsame.layout.trans h.layout
  freeClst := hsame.freeClst.trans h.freeClst
  lastClst := hsame.lastClst.trans h.lastClst
  fsiFlag := hsame.fsiFlag.trans h.fsiFlag
  table k hk := by
    have hk' : k < 512 * vol₁.fs.fsize.toNat := by rwa [h.layout]
    have hstep := hsame.table h.ready hk'
    rw [hsame.layout, h.layout] at hstep
    rw [hstep, h.table k hk]
  others s hs hfat := by
    have hstep : vol'.content drive s = vol₁.content drive s :=
      hsame.content (by rwa [h.layout])
    rw [hstep, h.others s hs hfat]
  ready := h.ready.unchanged hsame

theorem TableStored.fits (h : TableStored drive vol vol₁ t) : vol.fs.FatsFit drive.size := by
  rw [← h.layout]
  exact h.ready.fits

/-- An edit of the window at a sector of the FAT. -/
theorem TableStored.edit (h : TableStored drive vol vol₁ t)
    (hk : k < 512 * vol.fs.fsize.toNat) (hsect : vol₁.fs.winsect = vol.fs.fatSect k)
    (f : Sector → Sector)
    (hinside : ∀ j, j / 512 = k / 512 → f vol₁.fs.win (Fin.ofNat 512 j) = t' j)
    (houtside : ∀ j, j / 512 ≠ k / 512 → t' j = t j) :
    TableStored drive vol (vol₁.edit f) t' := by
  have hfat : vol.fs.InFat (vol.fs.fatSect k) := Layout.inFat_fatSect hk
  obtain ⟨hle, hlt, hsize⟩ := h.fits.toNat_of_inFat drive.size_lt hfat
  have hin : vol₁.fs.winsect.toNat < drive.size := by
    rw [hsect]
    omega
  have hcontent : (vol₁.edit f).content drive =
      Function.update (vol₁.content drive) (vol.fs.fatSect k) (f vol₁.fs.win) := by
    rw [← hsect]
    exact content_edit _
  refine ⟨h.layout, h.freeClst, h.lastClst, h.fsiFlag, ?_, ?_,
    ⟨h.ready.toReady.edit hin _, h.ready.entriesFit⟩⟩
  · intro j hj
    have hinj := Layout.fatSect_inj (l := vol.fs.toLayout) hj hk
    by_cases hsame : j / 512 = k / 512
    · rw [Layout.table, hcontent, hinj.mpr hsame, Function.update_self, hinside j hsame]
    · rw [Layout.table, hcontent, Function.update_of_ne (mt hinj.mp hsame), houtside j hsame]
      exact h.table j hj
  · intro s hs hnot
    rw [hcontent, Function.update_of_ne, h.others s hs hnot]
    rintro rfl
    exact hnot hfat

/-- A move of the window to a sector of the FAT, and an edit there. -/
theorem TableStored.moved (h : TableStored drive vol vol₁ t)
    (hk : k < 512 * vol.fs.fsize.toNat) {res : FResult}
    (hmove : moveWindow drive vol₁ (vol.fs.fatSect k) = (res, vol')) :
    TableStored drive vol vol' t ∧ (res ≠ .ok → res = .diskErr ∧ drive.Failing) ∧
      (res = .ok → ∀ (f : Sector → Sector) (t' : ℕ → Byte),
      (∀ win : Sector, (∀ j, j / 512 = k / 512 → win (Fin.ofNat 512 j) = t j) →
        ∀ j, j / 512 = k / 512 → f win (Fin.ofNat 512 j) = t' j) →
      (∀ j, j / 512 ≠ k / 512 → t' j = t j) → TableStored drive vol (vol'.edit f) t' ∧
        (vol'.edit f).fs.winsect = vol.fs.fatSect k) := by
  have hk' : k < 512 * vol₁.fs.fsize.toNat := by rwa [h.layout]
  have hsect : vol₁.fs.fatSect k = vol.fs.fatSect k := by rw [h.layout]
  obtain ⟨hsame, hwin, hfails⟩ := moveWindow_fat h.ready hk'
  rw [hsect, hmove] at hsame hwin hfails
  have hstored := h.unchanged hsame
  refine ⟨hstored, hfails, fun hok f t' hinside houtside => ?_⟩
  obtain ⟨hwinsect, hblock⟩ := hwin hok
  refine ⟨hstored.edit hk hwinsect f (hinside _ fun j hj => ?_) houtside, hwinsect⟩
  have hbyte := h.table j (by omega)
  rw [Layout.table, (Layout.fatSect_inj (by omega) hk).mpr hj] at hbyte
  rw [hblock, hbyte]

/-- A byte put where the `k`-th byte of the FAT is, in a sector with bytes of the FAT. -/
theorem update_window {win : Sector} {b : Byte} {m : ℕ} (hm : k / 512 = m / 512)
    (hwin : ∀ j, j / 512 = m / 512 → win (Fin.ofNat 512 j) = t j) :
    ∀ j, j / 512 = m / 512 → Function.update win (Fin.ofNat 512 k) b (Fin.ofNat 512 j) =
      Function.update t k b j := by
  intro j hj
  have hiff : Fin.ofNat 512 j = Fin.ofNat 512 k ↔ j = k := by
    rw [Fin.ext_iff]
    simp
    omega
  rw [Function.update_apply, Function.update_apply, hwin j hj]
  simp only [hiff]

/-- The first byte of an entry of 12 bits, which may hold half of the entry before. -/
def fat12First (t : ℕ → Byte) (c : ℕ) (val : BitVec 32) : ℕ → Byte :=
  Function.update t (c + c / 2)
    (if c % 2 = 1 then (t (c + c / 2) &&& 0x0f#8) ||| (val.setWidth 8 <<< 4) else val.setWidth 8)

/-- The second byte, which may hold half of the entry after. -/
def fat12Second (t : ℕ → Byte) (c : ℕ) (val : BitVec 32) : ℕ → Byte :=
  Function.update t (c + c / 2 + 1)
    (if c % 2 = 1 then (val >>> 4).setWidth 8
      else (t (c + c / 2 + 1) &&& 0xf0#8) ||| ((val >>> 8).setWidth 8 &&& 0x0f#8))

def fat16Bytes (t : ℕ → Byte) (c : ℕ) (v : BitVec 16) : ℕ → Byte :=
  Function.update (Function.update t (2 * c) (v.setWidth 8)) (2 * c + 1) ((v >>> 8).setWidth 8)

def fat32Bytes (t : ℕ → Byte) (c : ℕ) (v : BitVec 32) : ℕ → Byte :=
  Function.update (Function.update (Function.update (Function.update t (4 * c) (v.setWidth 8))
    (4 * c + 1) ((v >>> 8).setWidth 8)) (4 * c + 2) ((v >>> 16).setWidth 8))
      (4 * c + 3) ((v >>> 24).setWidth 8)

/-- The first byte holds no more than the entry changes. -/
theorem fat12First_stores (n : ℕ) (t : ℕ → Byte) (c : ℕ) (val : BitVec 32) :
    StoresField n t (fat12First t c val) (12 * c) 12 (field (fat12First t c val) (12 * c) 12) := by
  refine .of_outside fun m _ hm => ?_
  rw [bit, bit, fat12First, Function.update_apply]
  split_ifs with hj hodd
  · have hr : m % 8 < 4 := by omega
    rw [hj]
    generalize m % 8 = r at hr
    interval_cases r <;> simp
  · omega
  · rfl

theorem fat12_stores (n : ℕ) (t : ℕ → Byte) (c : ℕ) (val : BitVec 32) :
    StoresField n t (fat12Second (fat12First t c val) c val) (12 * c) 12 (val.setWidth 12) := by
  refine .of_bytes fun j r hr _ => ?_
  unfold fat12Second
  by_cases hnext : j = c + c / 2 + 1
  · subst hnext
    have hsame : fat12First t c val (c + c / 2 + 1) = t (c + c / 2 + 1) :=
      Function.update_of_ne (Nat.succ_ne_self _) _ _
    rw [Function.update_self, hsame]
    by_cases hodd : c % 2 = 1
    · rw [if_pos hodd, if_pos (by omega), show 8 * (c + c / 2 + 1) + r - 12 * c = 4 + r by omega]
      interval_cases r <;> simp
    · rw [if_neg hodd]
      split_ifs with hin
      · rw [show 8 * (c + c / 2 + 1) + r - 12 * c = 8 + r by omega]
        have hlow : r < 4 := by omega
        interval_cases r <;> simp
      · have hhigh : 4 ≤ r := by omega
        interval_cases r <;> simp
  rw [Function.update_of_ne hnext, fat12First, Function.update_apply]
  split_ifs with hfirst hodd hin hin
  · rw [show 8 * j + r - 12 * c = r - 4 by omega]
    have hhigh : 4 ≤ r := by omega
    interval_cases r <;> simp
  · have hlow : r < 4 := by omega
    rw [hfirst]
    interval_cases r <;> simp
  · rw [show 8 * j + r - 12 * c = r by omega]
    interval_cases r <;> simp
  all_goals first | rfl | omega

theorem fat16_stores (n : ℕ) (t : ℕ → Byte) (c : ℕ) (val : BitVec 32) :
    StoresField n t (fat16Bytes t c (val.setWidth 16)) (16 * c) 16 (val.setWidth 16) := by
  refine .of_bytes fun j r hr _ => ?_
  rw [fat16Bytes, Function.update_apply, Function.update_apply]
  split_ifs with hnext hin hin hfirst hin
  · rw [show 8 * j + r - 16 * c = 8 + r by omega]
    interval_cases r <;> simp
  · omega
  · rw [show 8 * j + r - 16 * c = r by omega]
    interval_cases r <;> simp
  all_goals first | rfl | omega

/-- The value of an entry of 32 bits, its upper four bits put back as they were. -/
def fat32Kept (t : ℕ → Byte) (c : ℕ) (val : BitVec 32) : BitVec 32 :=
  (val &&& 0x0fffffff#32) ||| ((((((t (4 * c + 3)).setWidth 32 <<< 8 |||
    (t (4 * c + 2)).setWidth 32) <<< 8 ||| (t (4 * c + 1)).setWidth 32) <<< 8 |||
      (t (4 * c)).setWidth 32) &&& 0xf0000000#32))

theorem fat32_stores (n : ℕ) (t : ℕ → Byte) (c : ℕ) (val : BitVec 32) :
    StoresField n t (fat32Bytes t c (fat32Kept t c val)) (32 * c) 28 (val.setWidth 28) := by
  refine .of_bytes fun j r hr _ => ?_
  rw [fat32Bytes, Function.update_apply, Function.update_apply, Function.update_apply,
    Function.update_apply]
  by_cases h₃ : j = 4 * c + 3
  · rw [if_pos h₃]
    split_ifs with hin
    · rw [show 8 * j + r - 32 * c = 24 + r by omega, fat32Kept]
      have hlow : r < 4 := by omega
      interval_cases r <;> simp
    · rw [fat32Kept, h₃]
      have hhigh : 4 ≤ r := by omega
      interval_cases r <;> simp
  rw [if_neg h₃]
  split_ifs with h₂ hin _ h₁ hin _ h₀
  · rw [show 8 * j + r - 32 * c = 16 + r by omega, fat32Kept]
    interval_cases r <;> simp
  · omega
  · rw [show 8 * j + r - 32 * c = 8 + r by omega, fat32Kept]
    interval_cases r <;> simp
  · omega
  · rw [show 8 * j + r - 32 * c = r by omega, fat32Kept]
    interval_cases r <;> simp
  all_goals first | rfl | omega

section Window

variable {c : ℕ} {win : Sector}

/-! The same stores, made in the window. -/

variable (val) in
theorem fat12First_window
    (hwin : ∀ j, j / 512 = (c + c / 2) / 512 → win (Fin.ofNat 512 j) = t j) :
    ∀ j, j / 512 = (c + c / 2) / 512 →
      Function.update win (Fin.ofNat 512 (c + c / 2)) (if c % 2 = 1 then
        (win (Fin.ofNat 512 (c + c / 2)) &&& 0x0f#8) ||| (val.setWidth 8 <<< 4)
        else val.setWidth 8) (Fin.ofNat 512 j) = fat12First t c val j := by
  rw [hwin _ rfl]
  exact update_window rfl hwin

theorem fat12Second_window
    (hwin : ∀ j, j / 512 = (c + c / 2 + 1) / 512 → win (Fin.ofNat 512 j) = t j) :
    ∀ j, j / 512 = (c + c / 2 + 1) / 512 →
      Function.update win (Fin.ofNat 512 (c + c / 2 + 1)) (if c % 2 = 1 then
        (val >>> 4).setWidth 8 else (win (Fin.ofNat 512 (c + c / 2 + 1)) &&& 0xf0#8) |||
          ((val >>> 8).setWidth 8 &&& 0x0f#8)) (Fin.ofNat 512 j) = fat12Second t c val j := by
  rw [hwin _ rfl]
  exact update_window rfl hwin

theorem fat16_window {v : BitVec 16}
    (hwin : ∀ j, j / 512 = 2 * c / 512 → win (Fin.ofNat 512 j) = t j) :
    ∀ j, j / 512 = 2 * c / 512 →
      stWord win (Fin.ofNat 512 (2 * c)) v (Fin.ofNat 512 j) = fat16Bytes t c v j := by
  have hnext : Fin.ofNat 512 (2 * c) + 1 = Fin.ofNat 512 (2 * c + 1) := ofNat_add _ 1
  rw [stWord, hnext]
  exact update_window (by omega) (update_window rfl hwin)

theorem fat32_window (hwin : ∀ j, j / 512 = 4 * c / 512 → win (Fin.ofNat 512 j) = t j) :
    ∀ j, j / 512 = 4 * c / 512 →
      stDword win (Fin.ofNat 512 (4 * c)) ((val &&& 0x0fffffff#32) |||
        (ldDword win (Fin.ofNat 512 (4 * c)) &&& 0xf0000000#32)) (Fin.ofNat 512 j) =
          fat32Bytes t c (fat32Kept t c val) j := by
  have h₁ : Fin.ofNat 512 (4 * c) + 1 = Fin.ofNat 512 (4 * c + 1) := ofNat_add _ 1
  have h₂ : Fin.ofNat 512 (4 * c) + 2 = Fin.ofNat 512 (4 * c + 2) := ofNat_add _ 2
  have h₃ : Fin.ofNat 512 (4 * c) + 3 = Fin.ofNat 512 (4 * c + 3) := ofNat_add _ 3
  rw [ldDword_window (by omega) hwin, stDword, h₁, h₂, h₃]
  exact update_window (by omega) (update_window (by omega) (update_window (by omega)
    (update_window rfl hwin)))

end Window

/-- The bytes of an entry of 12 bits are in two sectors. -/
def Layout.Straddles (l : Layout) (clst : BitVec 32) : Prop :=
  l.fsType = .fat12 ∧ (clst.toNat + clst.toNat / 2) % 512 = 511

/-- How `put_fat` can end: the value is in the entry of the cluster and nothing else has changed; or
the drive has failed, and that one entry may have changed, provided it lies in two sectors. -/
def Put (drive : Drive δ) (vol : Volume δ) (clst val : BitVec 32) (r : FResult × Volume δ) : Prop :=
  r.1 = .ok ∧ EntryStored drive vol r.2 clst val ∨
    r.1 = .diskErr ∧ drive.Failing ∧
      (TableStored drive vol r.2 (vol.fs.table (vol.content drive)) ∨
        vol.fs.Straddles clst ∧ ∃ torn, EntryStored drive vol r.2 clst torn)

/-- A second sector that cannot be had: the entry of 12 bits lies in two, and its first byte is
changed already. -/
theorem put_torn (hready : vol.FatReady drive) (hc : vol.fs.IsCluster clst)
    (htype : vol.fs.fsType = .fat12) (val : BitVec 32)
    (hhalf : TableStored drive vol vol₁
      (fat12First (vol.fs.table (vol.content drive)) clst.toNat val))
    (hwinsect : vol₁.fs.winsect = vol.fs.fatSect (clst.toNat + clst.toNat / 2)) {res : FResult}
    (hmove : moveWindow drive vol₁ (vol.fs.fatSect (clst.toNat + clst.toNat / 2 + 1)) = (res, vol'))
    (hres : res ≠ .ok) : Put drive vol clst val (res, vol') := by
  obtain ⟨-, -, -, -, hk⟩ := hc.fat12 hready.entriesFit htype
  obtain ⟨hmoved, hfails, -⟩ := hhalf.moved hk hmove
  refine .inr ⟨(hfails hres).1, (hfails hres).2, .inr ⟨⟨htype, ?_⟩,
    (field (fat12First (vol.fs.table (vol.content drive)) clst.toNat val)
      (12 * clst.toNat) 12).setWidth 32, _, hmoved, ?_⟩⟩
  · -- In the same sector, the window would have stayed where it is.
    by_contra hsame
    refine hres ?_
    have hstay : vol.fs.fatSect (clst.toNat + clst.toNat / 2 + 1) = vol₁.fs.winsect := by
      rw [hwinsect]
      exact (Layout.fatSect_inj (by omega) (by omega)).mpr (by omega)
    rw [hstay, moveWindow, if_neg (not_not.mpr rfl)] at hmove
    exact (Prod.ext_iff.mp hmove).1.symm
  · have htorn := fat12First_stores (8 * (512 * vol.fs.fsize.toNat))
      (vol.fs.table (vol.content drive)) clst.toNat val
    rw [htype]
    change StoresField _ _ _ _ 12 ((BitVec.setWidth 32 _).setWidth 12)
    rwa [BitVec.setWidth_setWidth_of_le _ (by omega), BitVec.setWidth_eq]

/-- `put_fat` for entries of 12 bits. -/
theorem putFat_fat12 (hready : vol.FatReady drive) (hc : vol.fs.IsCluster clst)
    (htype : vol.fs.fsType = .fat12) (val : BitVec 32) :
    Put drive vol clst val (putFat drive vol clst val) := by
  obtain ⟨hbc, hnext, hfirst, hsecond, hk⟩ := hc.fat12 hready.entriesFit htype
  have hself := (Unchanged.refl hready.toReady).tableStored hready
  rcases hmove : moveWindow drive vol (vol.fs.fatSect (clst.toNat + clst.toNat / 2))
    with ⟨res, vol₁⟩
  obtain ⟨hmoved, hfails, hedit⟩ := hself.moved (by omega) hmove
  rw [putFat, if_pos hc.inside, htype]
  simp only [hfirst, hmove, offset, hbc, hnext, odd_iff]
  by_cases hres : res = .ok
  swap
  · rw [if_pos hres]
    exact .inr ⟨(hfails hres).1, (hfails hres).2, .inl hmoved⟩
  rw [if_neg (not_not.mpr hres)]
  obtain ⟨hhalf, hwinsect⟩ := hedit hres _ _ (fun win hwin => fat12First_window val hwin)
    fun j hj => Function.update_of_ne (fun h => hj (by rw [h])) _ _
  -- The first byte is stored; the second one may be in another sector.
  generalize vol₁.edit _ = vol₂ at hhalf hwinsect ⊢
  rw [← hhalf.layout] at hsecond
  rcases hmove' : moveWindow drive vol₂ (vol.fs.fatSect (clst.toNat + clst.toNat / 2 + 1))
    with ⟨res', vol₃⟩
  obtain ⟨-, -, hedit'⟩ := hhalf.moved hk hmove'
  rw [← hhalf.layout] at hmove'
  simp only [hsecond, hmove']
  rw [hhalf.layout] at hmove'
  by_cases hres' : res' = .ok
  swap
  · rw [if_pos hres']
    exact put_torn hready hc htype val hhalf hwinsect hmove' hres'
  rw [if_neg (not_not.mpr hres')]
  refine .inl ⟨rfl, _, (hedit' hres' _ _ (fun win hwin => fat12Second_window hwin)
    fun j hj => Function.update_of_ne (fun h => hj (by rw [h])) _ _).1, ?_⟩
  rw [htype]
  exact fat12_stores _ _ _ _

/-- `put_fat` for entries of 16 bits. -/
theorem putFat_fat16 (hready : vol.FatReady drive) (hc : vol.fs.IsCluster clst)
    (htype : vol.fs.fsType = .fat16) (val : BitVec 32) :
    Put drive vol clst val (putFat drive vol clst val) := by
  obtain ⟨hsect, hofs, hk⟩ := hc.fat16 hready.entriesFit htype
  have hself := (Unchanged.refl hready.toReady).tableStored hready
  rcases hmove : moveWindow drive vol (vol.fs.fatSect (2 * clst.toNat)) with ⟨res, vol'⟩
  obtain ⟨hmoved, hfails, hedit⟩ := hself.moved (by omega) hmove
  rw [putFat, if_pos hc.inside, htype]
  simp only [hsect, hmove, hofs]
  by_cases hres : res = .ok
  swap
  · rw [if_pos hres]
    exact .inr ⟨(hfails hres).1, (hfails hres).2, .inl hmoved⟩
  rw [if_neg (not_not.mpr hres)]
  refine .inl ⟨rfl, _, (hedit hres _ _ (fun win hwin => fat16_window hwin) ?_).1, ?_⟩
  · intro j hj
    rw [fat16Bytes, Function.update_of_ne (by omega), Function.update_of_ne (by omega)]
  · rw [htype]
    exact fat16_stores _ _ _ _

/-- `put_fat` for entries of 32 bits. -/
theorem putFat_fat32 (hready : vol.FatReady drive) (hc : vol.fs.IsCluster clst)
    (htype : vol.fs.fsType = .fat32) (val : BitVec 32) :
    Put drive vol clst val (putFat drive vol clst val) := by
  obtain ⟨hsect, hofs, hk⟩ := hc.fat32 hready.entriesFit htype
  have hself := (Unchanged.refl hready.toReady).tableStored hready
  rcases hmove : moveWindow drive vol (vol.fs.fatSect (4 * clst.toNat)) with ⟨res, vol'⟩
  obtain ⟨hmoved, hfails, hedit⟩ := hself.moved (by omega) hmove
  rw [putFat, if_pos hc.inside, htype]
  simp only [hsect, hmove, hofs]
  by_cases hres : res = .ok
  swap
  · rw [if_pos hres]
    exact .inr ⟨(hfails hres).1, (hfails hres).2, .inl hmoved⟩
  rw [if_neg (not_not.mpr hres)]
  refine .inl ⟨rfl, _, (hedit hres _ _ (fun win hwin => fat32_window hwin) ?_).1, ?_⟩
  · intro j hj
    rw [fat32Bytes, Function.update_of_ne (by omega), Function.update_of_ne (by omega),
      Function.update_of_ne (by omega), Function.update_of_ne (by omega)]
  · rw [htype]
    exact fat32_stores _ _ _ _

/-- `put_fat` stores the value in the entry of the cluster and changes nothing else. If it
fails, it may have changed that one entry, provided the entry lies in two sectors. -/
theorem putFat_spec (hready : vol.FatReady drive) (hc : vol.fs.IsCluster clst) (val : BitVec 32) :
    Put drive vol clst val (putFat drive vol clst val) := by
  cases htype : vol.fs.fsType with
  | fat12 => exact putFat_fat12 hready hc htype val
  | fat16 => exact putFat_fat16 hready hc htype val
  | fat32 => exact putFat_fat32 hready hc htype val
  | none => exact absurd htype (hc.fsType_ne hready.entriesFit)

end Stores

/-! ## The FAT as a table of entries -/

/-- What an entry holds after `val` was put there: its upper bits are cut off. -/
def Layout.cut (l : Layout) (val : BitVec 32) : BitVec 32 :=
  (val.setWidth l.fsType.bits).setWidth 32

/-- The entries have become `f`; the FAT keeps its place, and all other sectors are as before. -/
structure EntriesSet (drive : Drive δ) (vol vol' : Volume δ) (f : BitVec 32 → BitVec 32) :
    Prop where
  layout : vol'.fs.toLayout = vol.fs.toLayout
  entry : ∀ c < vol.fs.nFatent, vol'.entry drive c = f c
  others : ∀ s ∈ vol.fs.primary, ¬ vol.fs.InFat s → vol'.content drive s = vol.content drive s
  ready : vol'.FatReady drive

/-- The number of free clusters and the cluster allocated last are as before. -/
structure InfoKept (vol vol' : Volume δ) : Prop where
  freeClst : vol'.fs.freeClst = vol.fs.freeClst
  lastClst : vol'.fs.lastClst = vol.fs.lastClst
  fsiFlag : vol'.fs.fsiFlag = vol.fs.fsiFlag

/-- Entries lie side by side, and within the FAT. -/
theorem Layout.EntriesFit.entry_le (h : l.EntriesFit) (hc : clst < l.nFatent) :
    l.fsType.width * clst.toNat + l.fsType.bits ≤ 8 * (512 * l.fsize.toNat) := by
  have hbits : l.fsType.bits ≤ l.fsType.width := by
    cases l.fsType <;> decide
  have hlast := Nat.mul_le_mul_left l.fsType.width (Nat.succ_le_of_lt (BitVec.lt_def.mp hc))
  rw [Nat.mul_succ] at hlast
  have := h.fsize
  omega

theorem entry_congr {content content' : Lba → Sector} (h : l.EntriesFit) (hc : clst < l.nFatent)
    (htable : ∀ k < 512 * l.fsize.toNat, l.table content' k = l.table content k) :
    l.entry content' clst = l.entry content clst := by
  have hle := h.entry_le hc
  unfold Layout.entry
  congr 1
  refine field_congr fun i hi => ?_
  rw [bit, bit, htable _ (by omega)]

theorem Unchanged.entries (h : Unchanged drive vol vol') (hready : vol.FatReady drive) :
    EntriesSet drive vol vol' (vol.entry drive) where
  layout := h.layout
  entry c hc := by
    unfold Volume.entry
    rw [h.layout]
    refine entry_congr hready.entriesFit hc fun k hk => ?_
    have htable := h.table hready hk
    rwa [h.layout] at htable
  others s hs _ := h.content hs
  ready := hready.unchanged h

theorem TableStored.entries_of_same
    (h : TableStored drive vol vol' (vol.fs.table (vol.content drive)))
    (hready : vol.FatReady drive) : EntriesSet drive vol vol' (vol.entry drive) where
  layout := h.layout
  entry c hc := by
    unfold Volume.entry
    rw [h.layout]
    exact entry_congr hready.entriesFit hc h.table
  others := h.others
  ready := h.ready

theorem EntryStored.entries (h : EntryStored drive vol vol' clst val)
    (hready : vol.FatReady drive) (hc : vol.fs.IsCluster clst) :
    EntriesSet drive vol vol' (Function.update (vol.entry drive) clst (vol.fs.cut val)) := by
  obtain ⟨t, htable, hstores⟩ := h
  refine ⟨htable.layout, fun c hc' => ?_, htable.others, htable.ready⟩
  have hle := hready.entriesFit.entry_le hc'
  have hle' := hready.entriesFit.entry_le hc.2
  -- Bit by bit, the table is `t`.
  have hfield : vol.fs.entry (vol'.content drive) c =
      (field t (vol.fs.fsType.width * c.toNat) vol.fs.fsType.bits).setWidth 32 := by
    unfold Layout.entry
    congr 1
    refine field_congr fun i hi => ?_
    rw [bit, bit, htable.table _ (by omega)]
  unfold Volume.entry
  rw [htable.layout, hfield]
  by_cases hcc : c = clst
  · subst hcc
    rw [Function.update_self, hstores.field_self hle]
    rfl
  · rw [Function.update_of_ne hcc, hstores.field_of_disjoint hle, Layout.entry]
    have hne : c.toNat ≠ clst.toNat := fun h => hcc (BitVec.eq_of_toNat_eq h)
    have hbits : vol.fs.fsType.bits ≤ vol.fs.fsType.width := by
      cases vol.fs.fsType <;> decide
    rcases Nat.lt_or_gt_of_ne hne with hlt | hlt
    · have := Nat.mul_le_mul_left vol.fs.fsType.width (Nat.succ_le_of_lt hlt)
      rw [Nat.mul_succ] at this
      omega
    · have := Nat.mul_le_mul_left vol.fs.fsType.width (Nat.succ_le_of_lt hlt)
      rw [Nat.mul_succ] at this
      omega


/-- No entry has the value of `get_fat` for a disk error. -/
theorem entry_ne_diskError (drive : Drive δ) (vol : Volume δ) (clst : BitVec 32) :
    vol.entry drive clst ≠ diskError := by
  intro h
  have hbits : vol.fs.fsType.bits ≤ 28 := by
    cases vol.fs.fsType <;> decide
  have hlt := (field (vol.fs.table (vol.content drive)) (vol.fs.fsType.width * clst.toNat)
    vol.fs.fsType.bits).isLt
  have hvalue := congrArg BitVec.toNat h
  have hpow := Nat.pow_le_pow_right (show 0 < 2 by omega) hbits
  rw [Volume.entry, Layout.entry, diskError, BitVec.toNat_setWidth,
    Nat.mod_eq_of_lt (by omega)] at hvalue
  simp only [BitVec.toNat_ofNat, Nat.reducePow, Nat.reduceMod] at hvalue
  omega

theorem update_agree {n : BitVec 32} {f g : BitVec 32 → BitVec 32} (h : ∀ c < n, f c = g c)
    (a v : BitVec 32) : ∀ c < n, Function.update f a v c = Function.update g a v c := by
  intro c hc
  by_cases hca : c = a
  · rw [hca, Function.update_self, Function.update_self]
  · rw [Function.update_of_ne hca, Function.update_of_ne hca, h c hc]

namespace EntriesSet

variable {f g : BitVec 32 → BitVec 32}

theorem trans {vol'' : Volume δ} (h : EntriesSet drive vol vol' f)
    (h' : EntriesSet drive vol' vol'' g) : EntriesSet drive vol vol'' g where
  layout := h'.layout.trans h.layout
  entry c hc := h'.entry c (by rwa [h.layout])
  others s hs hfat := by
    have hsecond := h'.others s (by rwa [h.layout]) (by rwa [h.layout])
    rw [hsecond, h.others s hs hfat]
  ready := h'.ready

theorem congr (h : EntriesSet drive vol vol' f) (hfg : ∀ c < vol.fs.nFatent, f c = g c) :
    EntriesSet drive vol vol' g :=
  ⟨h.layout, fun c hc => (h.entry c hc).trans (hfg c hc), h.others, h.ready⟩

/-- One entry more is set. -/
theorem update {vol'' : Volume δ} (h : EntriesSet drive vol vol' f)
    (h' : EntriesSet drive vol' vol'' (Function.update (vol'.entry drive) clst val)) :
    EntriesSet drive vol vol'' (Function.update f clst val) := by
  refine h.trans (h'.congr fun c hc => update_agree h.entry clst val c ?_)
  rwa [h.layout] at hc

end EntriesSet

/-- `get_fat` returns the entry, or fails if the drive does, and changes no entry. -/
theorem getFat_entries (hready : vol.FatReady drive) (hc : vol.fs.IsCluster clst) :
    EntriesSet drive vol (getFat drive vol clst).2 (vol.entry drive) ∧
      InfoKept vol (getFat drive vol clst).2 ∧
      ((getFat drive vol clst).1 = vol.entry drive clst ∨
        (getFat drive vol clst).1 = diskError ∧ drive.Failing) := by
  obtain ⟨hsame, hvalue⟩ := getFat_spec hready hc
  exact ⟨hsame.entries hready, ⟨hsame.freeClst, hsame.lastClst, hsame.fsiFlag⟩, hvalue⟩

/-- `put_fat` changes one entry, or fails if the drive does; if the entry is in one sector, it is
whole then. -/
theorem putFat_entries (hready : vol.FatReady drive) (hc : vol.fs.IsCluster clst)
    (hwhole : drive.Failing → ¬ vol.fs.Straddles clst) (val : BitVec 32) :
    InfoKept vol (putFat drive vol clst val).2 ∧
      (((putFat drive vol clst val).1 = .ok ∧
        EntriesSet drive vol (putFat drive vol clst val).2
          (Function.update (vol.entry drive) clst (vol.fs.cut val))) ∨
      ((putFat drive vol clst val).1 = .diskErr ∧ drive.Failing ∧
        EntriesSet drive vol (putFat drive vol clst val).2 (vol.entry drive))) := by
  rcases putFat_spec hready hc val with
    ⟨hok, hstored⟩ | ⟨herr, hfailing, hstored | ⟨hstraddles, -⟩⟩
  · obtain ⟨t, htable, -⟩ := id hstored
    exact ⟨⟨htable.freeClst, htable.lastClst, htable.fsiFlag⟩,
      .inl ⟨hok, hstored.entries hready hc⟩⟩
  · exact ⟨⟨hstored.freeClst, hstored.lastClst, hstored.fsiFlag⟩,
      .inr ⟨herr, hfailing, hstored.entries_of_same hready⟩⟩
  · exact absurd hstraddles (hwhole hfailing)

/-- After `put_fat`, `get_fat` returns the bits that were put for that cluster, and what it would
have returned before for any other. Neither fails unless the drive does. If `put_fat` has failed, no
entry has changed, except that one that lies in two sectors may be lost. -/
theorem getFat_putFat (hready : vol.FatReady drive) (hc : vol.fs.IsCluster clst)
    (val : BitVec 32) {d : BitVec 32} (hd : vol.fs.IsCluster d) :
    let stored := putFat drive vol clst val
    (stored.1 = .ok ∨ stored.1 = .diskErr ∧ drive.Failing) ∧
      ((getFat drive stored.2 d).1 =
          (if stored.1 = .ok ∧ d = clst then vol.fs.cut val else vol.entry drive d) ∨
        (getFat drive stored.2 d).1 = diskError ∧ drive.Failing ∨
        stored.1 ≠ .ok ∧ d = clst ∧ vol.fs.Straddles clst) := by
  have hread : ∀ {vol' : Volume δ} {f : BitVec 32 → BitVec 32}, EntriesSet drive vol vol' f →
      (getFat drive vol' d).1 = f d ∨ (getFat drive vol' d).1 = diskError ∧ drive.Failing := by
    intro vol' f hset
    have hd' : vol'.fs.IsCluster d := by
      rw [hset.layout]
      exact hd
    rw [← hset.entry d hd.2]
    exact (getFat_spec hset.ready hd').2
  simp only
  rcases putFat_spec hready hc val with
    ⟨hok, hstored⟩ | ⟨herr, hfailing, hstored | ⟨hstraddles, torn, hstored⟩⟩
  · refine ⟨.inl hok, (hread (hstored.entries hready hc)).imp (fun hvalue => ?_) .inl⟩
    rw [hvalue, hok]
    by_cases hdc : d = clst
    · rw [if_pos ⟨rfl, hdc⟩, hdc, Function.update_self]
    · rw [if_neg fun h => hdc h.2, Function.update_of_ne hdc]
  · refine ⟨.inr ⟨herr, hfailing⟩,
      (hread (hstored.entries_of_same hready)).imp (fun hvalue => ?_) .inl⟩
    rw [hvalue, if_neg fun h => by rw [herr] at h; exact absurd h.1 nofun]
  · refine ⟨.inr ⟨herr, hfailing⟩, ?_⟩
    by_cases hdc : d = clst
    · exact .inr (.inr ⟨by rw [herr]; nofun, hdc, hstraddles⟩)
    · refine (hread (hstored.entries hready hc)).imp (fun hvalue => ?_) .inl
      rw [hvalue, if_neg fun h => hdc h.2, Function.update_of_ne hdc]

theorem blankVolume_fatReady : blankVolume.FatReady (usbDrive _ _) :=
  ⟨blankVolume_ready, by decide, by decide⟩

/-- Every entry of a blank FAT is zero. -/
theorem entry_blank (fs : Fatfs) (hclean : fs.wflag = false) (c : BitVec 32) :
    { blankVolume with fs := fs }.entry (usbDrive _ _) c = 0#32 := by
  have hcontent : { blankVolume with fs := fs }.content (usbDrive _ _) = fun _ _ => 0#8 :=
    Buffered.content_of_clean hclean
  have hzero : ∀ lo w, BitStream.field (fun _ => 0#8) lo w = 0#w := fun lo w =>
    (BitStream.eq_field fun i _ => by simp [BitStream.bit]).symm
  rw [Volume.entry, hcontent]
  change BitVec.setWidth 32 (BitStream.field (fun _ => 0#8) _ _) = _
  rw [hzero, BitVec.setWidth_zero]

/-- Of a value that is too long, an entry of 16 bits keeps the lower half. -/
theorem getFat_putFat_blank :
    (getFat (usbDrive _ _) (putFat (usbDrive _ _) blankVolume 7#32 0x12345#32).2 7#32).1 =
      0x2345#32 := by
  have hc : blankVolume.fs.IsCluster 7#32 := ⟨by decide, by decide⟩
  obtain ⟨hput, hget⟩ := getFat_putFat blankVolume_fatReady hc 0x12345#32 hc
  have hok := hput.resolve_right fun h => usbDrive_not_failing h.2
  rcases hget with h | h | h
  · rw [h, if_pos ⟨hok, rfl⟩]
    rfl
  · exact absurd h.2 usbDrive_not_failing
  · exact absurd hok h.1

end

end Sel4Xhci.Fat
