import Sel4Xhci.Fat.Entries
import Sel4Xhci.Fat.Usb
import Sel4Xhci.Semantics.Machine

/-!
# The window over whole runs

The functions of FatFs move the window about, change it, and write it back now and then; the
drive may report a failure at any time. All the same the window is transparent: what the volume
holds is what the changes made of it, one after the other, as if they had been made on the drive.

The second FAT follows the first as long as no write fails.

## Main definitions

* `Access`, `window` — what is done to the window, as a machine
* `replay` — the changes, made on the sectors directly

## Main results

* `window_transparent` — the volume holds what the changes made of it
* `window_mirrored` — the FATs agree on the drive
-/

set_option autoImplicit false

namespace Sel4Xhci.Fat

open Semantics CString Disk

/-- What is done to the window; it is changed by whoever has moved it. -/
inductive Access
  | move (sect : Lba)
  | edit (sect : Lba) (f : Sector → Sector)
  | sync

variable {δ : Type} (drive : Drive δ)

/-- The window is moved within the drive, and changed where it was moved to. Nobody changes the
second FAT directly. -/
def window : Machine (Volume δ) Access where
  start vol := vol.Ready drive
  step vol
    | .move sect =>
        if sect.toNat < drive.size then some (moveWindow drive vol sect).2 else none
    | .edit sect f =>
        if vol.fs.winsect = sect ∧ sect.toNat < drive.size ∧ ¬ vol.fs.InMirror sect then
          some (vol.edit f)
        else none
    | .sync => some (syncWindow drive vol).2

/-- The changes, made on the sectors directly. -/
def replay (content : Lba → Sector) : List Access → Lba → Sector
  | [] => content
  | .edit sect f :: as => replay (Function.update content sect (f (content sect))) as
  | _ :: as => replay content as

/-- The FATs hold the same on the drive. -/
def Volume.Mirrored (vol : Volume δ) : Prop :=
  vol.fs.nFats = 2#8 → ∀ s, vol.fs.InFat s →
    drive.content vol.disk (s + vol.fs.fsize) = drive.content vol.disk s

section

variable {drive} {vol vol' : Volume δ} {as : List Access} {a : Access} {c : Lba → Sector}

theorem inDrive_ne_noSector {s : Lba} (hs : s.toNat < drive.size) : s ≠ noSector := by
  rintro rfl
  have := drive.size_lt
  simp only [noSector, BitVec.toNat_ofNat] at hs
  omega

/-- One step does to the content what it would do to the sectors. -/
theorem window_step (hready : vol.Ready drive) (hc : Set.EqOn (vol.content drive) c vol.fs.primary)
    (hstep : (window drive).step vol a = some vol') :
    vol'.Ready drive ∧ vol'.fs.toLayout = vol.fs.toLayout ∧
      Set.EqOn (vol'.content drive) (replay c [a]) vol.fs.primary := by
  cases a with
  | move sect =>
    change (if sect.toNat < drive.size then _ else none) = _ at hstep
    split_ifs at hstep with hin
    obtain rfl := Option.some.inj hstep
    have hsame := moveWindow_unchanged hready hin
    exact ⟨hsame.ready, hsame.layout, hsame.content.trans hc⟩
  | sync =>
    obtain rfl := Option.some.inj hstep
    have hsame := syncWindow_unchanged hready
    exact ⟨hsame.ready, hsame.layout, hsame.content.trans hc⟩
  | edit sect f =>
    change (if vol.fs.winsect = sect ∧ _ then _ else none) = _ at hstep
    split_ifs at hstep with hedit
    obtain ⟨rfl, hin, hprimary⟩ := hedit
    obtain rfl := Option.some.inj hstep
    refine ⟨hready.edit hin _, rfl, ?_⟩
    have hcurrent := hready.current (inDrive_ne_noSector hin)
    have hwin : vol.fs.win = c vol.fs.winsect := hcurrent.trans (hc hprimary)
    intro s hs
    unfold Volume.edit replay replay
    rw [content_edit]
    by_cases hsect : s = vol.fs.winsect
    · rw [hsect, Function.update_self, Function.update_self, hwin]
    · rw [Function.update_of_ne hsect, Function.update_of_ne hsect]
      exact hc hs

theorem replay_cons (c : Lba → Sector) (a : Access) (as : List Access) :
    replay c (a :: as) = replay (replay c [a]) as := by
  cases a <;> rfl

theorem exec_window (hready : vol.Ready drive) (hc : Set.EqOn (vol.content drive) c vol.fs.primary)
    (hrun : (window drive).exec vol as = some vol') :
    vol'.Ready drive ∧ vol'.fs.toLayout = vol.fs.toLayout ∧
      Set.EqOn (vol'.content drive) (replay c as) vol.fs.primary := by
  induction as generalizing vol c with
  | nil =>
    obtain rfl := Option.some.inj hrun
    exact ⟨hready, rfl, hc⟩
  | cons a as ih =>
    obtain ⟨vol₁, hstep, hrest⟩ := Machine.exec_cons_eq_some.mp hrun
    obtain ⟨hready₁, hlayout, hc₁⟩ := window_step hready hc hstep
    rw [← hlayout] at hc₁
    obtain ⟨hready', hlayout', hc'⟩ := ih hready₁ hc₁ hrest
    rw [hlayout] at hlayout' hc'
    rw [replay_cons]
    exact ⟨hready', hlayout', hc'⟩

/-- In every run, and whatever the drive reports as failed, the volume holds what the changes made
of it. When the window could be written back, so does the drive. -/
theorem window_transparent (hstart : (window drive).start vol)
    (hrun : (window drive).exec vol as = some vol') :
    Set.EqOn (vol'.content drive) (replay (vol.content drive) as) vol.fs.primary ∧
      ∀ vol'', syncWindow drive vol' = (.ok, vol'') →
        Set.EqOn (drive.content vol''.disk) (replay (vol.content drive) as) vol.fs.primary := by
  obtain ⟨hready, hlayout, hc⟩ := exec_window hstart (Set.eqOn_refl _ _) hrun
  refine ⟨hc, fun vol'' hsync => ?_⟩
  have hsame := syncWindow_unchanged hready
  have hclean := syncWindow_clean (show (syncWindow drive vol').1 = .ok by rw [hsync])
  rw [hsync] at hsame hclean
  have hstored : vol''.content drive = drive.content vol''.disk := Buffered.content_of_clean hclean
  rw [← hstored]
  have hcontent := hsame.content
  rw [hlayout] at hcontent
  exact hcontent.trans hc

/-- A sector is brought in and changed, and the window is moved on. -/
theorem window_transparent_blank : ∃ vol',
    (window (usbDrive _ _)).exec blankVolume
      [.move 7#32, .edit 7#32 fun win => Function.update win 3 0xaa#8, .move 9#32] = some vol' ∧
    Set.EqOn (vol'.content (usbDrive _ _)) (replay (blankVolume.content (usbDrive _ _))
      [.move 7#32, .edit 7#32 fun win => Function.update win 3 0xaa#8, .move 9#32])
      smallLayout.primary := by
  obtain ⟨vol', hrun⟩ : ∃ vol', (window (usbDrive _ _)).exec blankVolume
      [.move 7#32, .edit 7#32 fun win => Function.update win 3 0xaa#8, .move 9#32] = some vol' :=
    Option.isSome_iff_exists.mp (by decide)
  exact ⟨vol', hrun, (window_transparent blankVolume_ready hrun).1⟩

/-! ## The second FAT -/

/-- A changed window is not in the second FAT. -/
def Volume.DirtyElsewhere (vol : Volume δ) : Prop :=
  vol.fs.wflag = true → ¬ vol.fs.InMirror vol.fs.winsect

/-- A sector of the first FAT is changed along with its copy, and no copy without it. -/
theorem syncWindow_mirrored (hready : vol.Ready drive)
    (hwrites : ∀ d buff s, (drive.diskWrite d buff s 1).1 = .ok) (hmirrored : vol.Mirrored drive)
    (hwhere : vol.DirtyElsewhere) :
    (syncWindow drive vol).2.Mirrored drive ∧ (syncWindow drive vol).2.DirtyElsewhere := by
  rcases syncWindow_cases drive vol with ⟨-, h⟩ | ⟨hdirty, res, disk, hwrite, h⟩
  · rw [h]
    exact ⟨hmirrored, hwhere⟩
  have hin := hready.inDrive hdirty
  have hok : (drive.diskWrite vol.disk (fun _ => vol.fs.win) vol.fs.winsect 1).1 = .ok :=
    hwrites _ _ _
  have hres : res = .ok := by rwa [hwrite] at hok
  have hframe : ∀ s, s ≠ vol.fs.winsect → drive.content disk s = drive.content vol.disk s := by
    intro s hs
    have := drive.write_one_frame (d := vol.disk) (b := vol.fs.win) hin hs
    rwa [hwrite] at this
  have hstored : drive.content disk vol.fs.winsect = vol.fs.win := by
    have := drive.write_one_ok (d := vol.disk) (b := vol.fs.win) hin hok
    rwa [hwrite] at this
  -- No copy of a sector is in the window.
  have hcopy : vol.fs.nFats = 2#8 → ∀ s, vol.fs.InFat s → s + vol.fs.fsize ≠ vol.fs.winsect := by
    intro hn s hs heq
    refine hwhere hdirty ?_
    rw [← heq]
    exact Layout.inMirror_add hn hs
  rcases h with ⟨hbad, -⟩ | ⟨-, hnot, h⟩ | ⟨-, hfat, hn, h⟩
  · exact absurd hres hbad
  · rw [h]
    refine ⟨fun hn s hs => ?_, nofun⟩
    have hne : s ≠ vol.fs.winsect := by
      rintro rfl
      exact hnot ⟨hs, hn⟩
    exact (hframe _ (hcopy hn s hs)).trans ((hmirrored hn s hs).trans (hframe s hne).symm)
  · rw [h]
    refine ⟨fun _ s hs => ?_, nofun⟩
    have hlt := hready.fits.copy_lt drive.size_lt hn hfat
    have hne : s ≠ vol.fs.winsect + vol.fs.fsize := by
      rintro rfl
      exact hready.fits.primary_of_inFat drive.size_lt hs (Layout.inMirror_add hn hfat)
    have hother := drive.write_one_frame (d := disk) (b := vol.fs.win) hlt hne
    refine Eq.trans ?_ hother.symm
    by_cases hsect : s = vol.fs.winsect
    · subst hsect
      exact (drive.write_one_ok hlt (hwrites _ _ _)).trans hstored.symm
    · have hcopies : s + vol.fs.fsize ≠ vol.fs.winsect + vol.fs.fsize :=
        fun heq => hsect ((BitVec.add_left_inj _).mp heq)
      rw [hframe s hsect, ← hmirrored hn s hs, ← hframe _ (hcopy hn s hs)]
      exact drive.write_one_frame hlt hcopies

theorem mirrored_step (hready : vol.Ready drive)
    (hwrites : ∀ d buff s, (drive.diskWrite d buff s 1).1 = .ok) (hmirrored : vol.Mirrored drive)
    (hwhere : vol.DirtyElsewhere) (hstep : (window drive).step vol a = some vol') :
    vol'.Mirrored drive ∧ vol'.DirtyElsewhere := by
  obtain ⟨hsync, hsyncWhere⟩ := syncWindow_mirrored hready hwrites hmirrored hwhere
  cases a with
  | sync =>
    obtain rfl := Option.some.inj hstep
    exact ⟨hsync, hsyncWhere⟩
  | edit sect f =>
    change (if vol.fs.winsect = sect ∧ _ then _ else none) = _ at hstep
    split_ifs at hstep with hedit
    obtain ⟨rfl, -, hprimary⟩ := hedit
    obtain rfl := Option.some.inj hstep
    exact ⟨hmirrored, fun _ => hprimary⟩
  | move sect =>
    change (if sect.toNat < drive.size then _ else none) = _ at hstep
    split_ifs at hstep with hin
    obtain rfl := Option.some.inj hstep
    rcases moveWindow_cases drive vol sect with ⟨-, h⟩ | ⟨-, ⟨-, h⟩ |
      ⟨hok, res, buff, disk, hread, h⟩⟩
    · rw [h]
      exact ⟨hmirrored, hwhere⟩
    · rw [h]
      exact ⟨hsync, hsyncWhere⟩
    · have hdisk : drive.content disk = drive.content (syncWindow drive vol).2.disk := by
        have := drive.content_read (d := (syncWindow drive vol).2.disk) (s := sect) (n := 1)
          (by omega) (by omega)
        rwa [hread] at this
      have hclean := syncWindow_clean hok
      rcases h with ⟨-, h⟩ | ⟨-, h⟩ <;> rw [h] <;>
        refine ⟨fun hn s hs => ?_, fun hdirty => absurd hdirty (by simp [hclean])⟩
      · simp only [hdisk]
        exact hsync hn s hs
      · simp only [hdisk]
        exact hsync hn s hs

/-- As long as no write fails, the FATs hold the same on the drive, however the window was moved
and changed. -/
theorem window_mirrored (hstart : (window drive).start vol)
    (hwrites : ∀ d buff s, (drive.diskWrite d buff s 1).1 = .ok) (hmirrored : vol.Mirrored drive)
    (hclean : vol.fs.wflag = false) (hrun : (window drive).exec vol as = some vol') :
    vol'.Mirrored drive := by
  have hkeep := Machine.exec_induction (M := window drive)
    (P := fun vol => vol.Ready drive ∧ vol.Mirrored drive ∧ vol.DirtyElsewhere)
    (fun vol a vol' ⟨hready, hmirrored, hwhere⟩ hstep =>
      ⟨(window_step hready (Set.eqOn_refl _ _) hstep).1,
        mirrored_step hready hwrites hmirrored hwhere hstep⟩)
    ⟨hstart, hmirrored, fun hdirty => absurd hdirty (by simp [hclean])⟩ hrun
  exact hkeep.2.1

/-- A FAT sector is changed, and its copy follows. -/
theorem window_mirrored_blank : ∃ vol',
    (window (usbDrive _ _)).exec blankVolume
      [.move 1#32, .edit 1#32 fun win => Function.update win 8 0xff#8, .move 9#32] = some vol' ∧
    vol'.Mirrored (usbDrive _ _) := by
  obtain ⟨vol', hrun⟩ : ∃ vol', (window (usbDrive _ _)).exec blankVolume
      [.move 1#32, .edit 1#32 fun win => Function.update win 8 0xff#8, .move 9#32] = some vol' :=
    Option.isSome_iff_exists.mp (by decide)
  exact ⟨vol', hrun, window_mirrored blankVolume_ready (fun d buff s => writeSectors_ok d buff s 1)
    (fun _ _ _ => rfl) rfl hrun⟩

end

end Sel4Xhci.Fat
