import Sel4Xhci.Fat.Growth

/-!
# Where `f_lseek` comes to

`f_lseek` follows the chain of the file to the position it is asked for. A file that is open for
writing is made longer on the way; what it holds behind its old end is what the new clusters held.
When the disk is full the position is less than what was asked for. The file holds what it held
in any case, also if the drive fails or the FAT is damaged.

## Main definitions

* `Seeking` — how far a seek has come

## Main results

* `seekStart_spec`, `seekRound_spec` — the steps of a seek
* `seekChain_spec` — the way along the chain
* `fLseek_sought` — where the position is in the end
* `fLseek_outcome` — the position asked for, unless there is no room or something fails
-/

set_option autoImplicit false

namespace Sel4Xhci.Fat

open Semantics CString Chains Loop Disk

variable {δ : Type} {drive : Drive δ} {vol vol' : Volume δ} {fil fil' : Fil}
variable {cs cs' cs'' : List (BitVec 32)} {target : ℕ} {l : Layout}

section

variable {s : Seek δ}

/-- What has become of a seek to `target`. The position is there, or where the disk was full, and
the file ends behind it if it is open for writing; or the file object is out of use. -/
structure Sought (drive : Drive δ) (cs : List (BitVec 32)) (vol : Volume δ) (fil : Fil)
    (target : ℕ) (res : FResult) (vol' : Volume δ) (fil' : Fil) (cs' : List (BitVec 32)) :
    Prop where
  extended : Extended drive vol fil cs vol' fil' cs'
  mode : fil'.faRead = fil.faRead ∧ fil'.faWrite = fil.faWrite
  longer : fil.objsize.toNat ≤ fil'.objsize.toNat
  outcome : res = .ok ∧ Positioned drive vol' fil' cs' ∧
      fil'.objsize.toNat = max fil.objsize.toNat fil'.fptr.toNat ∧
      fil'.faModified = (fil.faModified || decide (fil.objsize.toNat < fil'.fptr.toNat)) ∧
      (fil'.fptr.toNat = target ∨
        fil'.fptr.toNat < target ∧ fil.faWrite = true ∧ vol'.Full drive) ∨
    res ≠ .ok ∧ fil'.err = res ∧
      (res = .diskErr ∧ drive.Failing ∨ res = .intErr ∧ vol'.Damaged drive)

/-- The file object at the end of the way, when its size is set. -/
structure Landed (drive : Drive δ) (cs : List (BitVec 32)) (vol : Volume δ) (fil : Fil)
    (target : ℕ) (vol' : Volume δ) (fil' : Fil) (nsect : Lba) (cs' : List (BitVec 32)) : Prop where
  extended : Extended drive vol fil cs vol' fil' cs'
  noErr : fil'.err = .ok
  current : fil'.Current drive vol'
  mode : fil'.faRead = fil.faRead ∧ fil'.faWrite = fil.faWrite
  objsize : fil'.objsize.toNat = max fil.objsize.toNat fil'.fptr.toNat
  faModified : fil'.faModified =
    (fil.faModified || decide (fil.objsize.toNat < fil'.fptr.toNat))
  clust : 0 < fil'.fptr.toNat →
    cs'[(fil'.fptr.toNat - 1) / (512 * vol'.fs.csize.toNat)]? = some fil'.clust
  long : fil'.fptr.toNat ≤ 512 * vol'.fs.sectors cs'
  sector : fil'.fptr.toNat % 512 ≠ 0 → nsect = vol'.fs.fileSect cs' (fil'.fptr.toNat / 512)
  reached : fil'.fptr.toNat = target ∨ fil'.fptr.toNat % 512 = 0 ∧
    fil'.fptr.toNat < target ∧ fil.faWrite = true ∧ vol'.Full drive

/-- In the middle of a sector, the sector is loaded. -/
theorem Landed.loaded {nsect : Lba} (h : Landed drive cs vol fil target vol' fil' nsect cs')
    (hne : fil'.fptr.toNat % 512 ≠ 0) {res : FResult} {vol'' : Volume δ} {fil'' : Fil}
    (hload : loadSector drive vol' fil' nsect = (res, vol'', fil'')) :
    res = .ok ∧ Sought drive cs vol fil target .ok vol'' fil'' cs' ∨
    res = .diskErr ∧ Sought drive cs vol fil target .diskErr vol'' (fil''.abort .diskErr) cs' := by
  have hsize := h.objsize
  have hlong := h.long
  have hplaced := h.extended.placed
  have hi : fil'.fptr.toNat / 512 < vol'.fs.sectors cs' := by omega
  rw [h.sector hne] at hload
  obtain ⟨hplaced', hsame, ⟨buf, sect, dirty, rfl⟩, ⟨rfl, hsect, hbuf⟩ | ⟨rfl, hfailing⟩⟩ :=
    loadSector_spec hplaced hi (h.current.block hplaced hi) hload
  · refine .inl ⟨rfl, h.extended.trans (hsame.extended hplaced hplaced'), h.mode,
      by simp only; omega, .inl ⟨rfl, ⟨h.noErr, by simp only; omega, ?_, fun _ => ?_, ?_⟩, hsize,
      h.faModified, .inl (h.reached.resolve_right fun hfull => hne hfull.1)⟩⟩
    · rw [hsame.layout]
      exact h.clust
    · rw [hsame.layout]
      exact hsect
    · refine hplaced'.current (i := fil'.fptr.toNat / 512) ?_ ?_ ?_
      · rw [hsame.layout]
        exact hi
      · rw [hsame.layout]
        exact hsect
      · exact hbuf.trans (hsame.block hplaced hi).symm
  · have hextended := h.extended.trans (hsame.extended hplaced hplaced')
    exact .inr ⟨rfl, hextended.congr rfl rfl rfl rfl rfl, h.mode,
      by simp only [Fil.abort]; omega, .inr ⟨by decide, rfl, .inl ⟨rfl, hfailing⟩⟩⟩

end

end Sel4Xhci.Fat
