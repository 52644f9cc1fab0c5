import Sel4Xhci.Fat.Accesses
import Sel4Xhci.Fat.FileData

/-!
# What `f_read` reads

`f_read` delivers the bytes of the file from the position on, whichever way they come: sector by
sector through the buffer, or many at a time past it, with a dirty buffer in their midst. It
changes neither the file nor anything else, and it never meets an end of the chain before the end
of the file.

## Main definitions

* `Reading` — how far a request has come

## Main results

* `readCluster_spec`, `loadSector_spec`, `readSectors_spec` — the steps of a round
* `readLoop_spec` — the loop of `f_read`
* `fRead_outcome` — all that was asked for is delivered, unless the drive fails
-/

set_option autoImplicit false

namespace Sel4Xhci.Fat

open Semantics CString Chains Loop Disk

variable {δ : Type} {drive : Drive δ} {vol vol' : Volume δ} {fil fil' : Fil}
variable {cs : List (BitVec 32)} {l : Layout} {i : ℕ}

/-! ## Positions -/

/-- Up to the end of a cluster the cluster is the same. -/
theorem cluster_advance {p N cnt : ℕ} (hcnt : 0 < cnt)
    (hspan : p / 512 % N * 512 + p % 512 + cnt ≤ 512 * N) :
    (p + cnt - 1) / (512 * N) = p / 512 / N := by
  have hdivmod := Nat.div_add_mod (p / 512) N
  generalize p / 512 / N = q at hdivmod ⊢
  refine Nat.div_eq_of_lt_le ?_ ?_
  · rw [Nat.mul_comm, Nat.mul_assoc]
    omega
  · rw [Nat.mul_comm, Nat.mul_succ, Nat.mul_assoc]
    omega

/-- The position, the flags of the mode and the error do not matter for where the file is. -/
theorem Placed.congr (h : Placed drive vol fil cs) (hsclust : fil'.sclust = fil.sclust)
    (hobjsize : fil'.objsize = fil.objsize) (hsect : fil'.sect = fil.sect)
    (hdirty : fil'.faDirty = fil.faDirty) : Placed drive vol fil' cs :=
  ⟨h.ready, h.dataFit, h.chain, h.clusters, by rw [hsclust]; exact h.head,
    by rw [hobjsize]; exact h.long, h.apart, by rw [hsect, hdirty]; exact h.owned⟩

/-! ## Moves of the window -/

/-- A window near the FAT holds no sector of the file. -/
theorem Placed.apart_near (h : Placed drive vol fil cs) (hnear : NearFat vol vol')
    (hi : i < vol.fs.sectors cs) : vol.fs.fileSect cs i ≠ vol'.fs.winsect := by
  rcases hnear.2 with hwin | hwin | hwin
  · rw [hwin]
    exact h.apart i hi
  · rw [hwin]
    intro hsect
    have hlt := h.sect_lt hi
    have hsize := drive.size_lt
    rw [hsect, noSector, BitVec.toNat_ofNat] at hlt
    omega
  · intro hsect
    rw [← hsect] at hwin
    exact (h.isData hi).1 hwin

/-- The window may be moved to the FAT while a file is open. -/
theorem Placed.moved (h : Placed drive vol fil cs) (hsame : Unchanged drive vol vol')
    (hnear : NearFat vol vol') : Placed drive vol' fil cs ∧ Same drive vol fil vol' fil := by
  have hentries := hsame.entries h.ready
  refine ⟨⟨h.ready.unchanged hsame, ?_, ?_, ?_, h.head, ?_, fun i hi => ?_, ?_⟩,
    ⟨hnear, fun c hc => hentries.entry c hc.2, fun t ht => ?_⟩⟩
  · rw [hsame.layout]
    exact h.dataFit
  · rw [hentries.cell]
    exact h.chain
  · rw [hsame.layout]
    exact h.clusters
  · rw [hsame.layout]
    exact h.long
  · rw [hsame.layout] at hi ⊢
    exact h.apart_near hnear hi
  · rw [hsame.layout]
    exact h.owned
  · exact Buffered.content_congr (b := fil.window drive vol) (hsame.content ht.2)

/-- The link from one cluster of the file to the next. -/
theorem Placed.getFat (h : Placed drive vol fil cs) {k : ℕ} {a b : BitVec 32}
    (ha : cs[k]? = some a) (hb : cs[k + 1]? = some b) :
    Placed drive (getFat drive vol a).2 fil cs ∧
      Same drive vol fil (getFat drive vol a).2 fil ∧
      ((getFat drive vol a).1 = b ∨ (getFat drive vol a).1 = diskError ∧ drive.Failing) := by
  have hc := h.clusters a (List.mem_of_getElem? ha)
  obtain ⟨hsame, hvalue⟩ := getFat_spec h.ready hc
  obtain ⟨hplaced, hsame'⟩ := h.moved hsame (getFat_near h.ready.entriesFit)
  have hentry := ((Layout.cells_link_iff hc).mp (h.chain.link ha hb)).1
  rw [hentry] at hvalue
  exact ⟨hplaced, hsame', hvalue⟩

/-! ## The buffer -/

/-- A read of the drive leaves its content. -/
theorem Placed.diskRead (h : Placed drive vol fil cs) {disk' : δ}
    (hdisk : drive.content disk' = drive.content vol.disk) :
    Placed drive { vol with disk := disk' } fil cs ∧
      Same drive vol fil { vol with disk := disk' } fil := by
  obtain ⟨hready, hout, -, hentry⟩ := disk_changed (T := ∅) h.ready (d := disk')
    (fun t _ => congrFun hdisk t) (Set.notMem_empty _) (fun t ht => absurd ht (Set.notMem_empty t))
  refine ⟨⟨hready, h.dataFit, ?_, h.clusters, h.head, h.long, h.apart, h.owned⟩,
    ⟨.refl vol, hentry, fun t _ => ?_⟩⟩
  · rw [show Volume.cell drive { vol with disk := disk' } = vol.cell drive from
      cell_congr rfl hentry]
    exact h.chain
  · exact Buffered.content_congr (b := fil.window drive vol) (hout _ (Set.notMem_empty _))

/-- A clean buffer may hold anything. -/
theorem Placed.refill (h : Placed drive vol fil cs) (hclean : fil.faDirty = false) {t : Lba}
    (hsect : t = fil.sect ∨ ∃ i < vol.fs.sectors cs, t = vol.fs.fileSect cs i)
    (buf : Sector) : Placed drive vol { fil with buf := buf, sect := t } cs ∧
      Same drive vol fil vol { fil with buf := buf, sect := t } := by
  refine ⟨⟨h.ready, h.dataFit, h.chain, h.clusters, h.head, h.long, h.apart,
    fun huse => ?_⟩, ⟨.refl vol, fun _ _ => rfl, fun u _ => ?_⟩⟩
  · rcases hsect with rfl | hsect
    · exact h.owned huse
    · exact hsect
  · exact congrFun (Buffered.content_filled (b := fil.window drive vol) hclean t buf) _

/-- A clean buffer is filled with a sector of the file. -/
theorem fillBuf_spec (h : Placed drive vol fil cs) (hclean : fil.faDirty = false)
    (hi : i < vol.fs.sectors cs) {res : FResult}
    (hfill : fillBuf drive vol fil (vol.fs.fileSect cs i) = (res, vol', fil')) :
    Placed drive vol' fil' cs ∧ Same drive vol fil vol' fil' ∧
      ∃ buf, fil' = { fil with buf := buf } ∧
        (res = .ok ∧ buf = fil.block drive vol cs i ∨ res = .diskErr ∧ drive.Failing) := by
  unfold fillBuf at hfill
  have hlt := h.sect_lt hi
  have hkept := drive.content_read (d := vol.disk) (s := vol.fs.fileSect cs i) (n := 1) (by omega)
    (by omega)
  rcases hread : drive.diskRead vol.disk (vol.fs.fileSect cs i) 1 with ⟨dres, buff, disk⟩
  rw [hread] at hkept hfill
  obtain ⟨hplaced, hsame⟩ := h.diskRead hkept
  have hrefill := hplaced.refill hclean (.inl rfl)
  by_cases hok : dres = .ok
  · subst hok
    simp only [Prod.mk.injEq] at hfill
    obtain ⟨rfl, rfl, rfl⟩ := hfill
    refine ⟨(hrefill _).1, hsame.trans (hrefill _).2, _, rfl, .inl ⟨rfl, ?_⟩⟩
    have hfilled := drive.read_one_ok (d := vol.disk) hlt (by rw [hread])
    rw [hread] at hfilled
    rw [h.block_of_ne hi (by simp [hclean])]
    exact hfilled
  · obtain ⟨rfl, rfl, rfl⟩ : .diskErr = res ∧ { vol with disk := disk } = vol' ∧
        { fil with buf := buff 0 } = fil' := by
      cases dres <;> simp_all
    have hfailing : drive.Failing :=
      .inl ⟨vol.disk, vol.fs.fileSect cs i, 1, by omega, hlt, by rwa [hread]⟩
    exact ⟨(hrefill _).1, hsame.trans (hrefill _).2, _, rfl, .inr ⟨rfl, hfailing⟩⟩

/-- The buffer holds the sector at the position, or the drive has failed. -/
theorem loadSector_spec (h : Placed drive vol fil cs) (hi : i < vol.fs.sectors cs)
    (hcurrent : fil.sect = vol.fs.fileSect cs i → fil.buf = fil.block drive vol cs i)
    {res : FResult}
    (hload : loadSector drive vol fil (vol.fs.fileSect cs i) = (res, vol', fil')) :
    Placed drive vol' fil' cs ∧ Same drive vol fil vol' fil' ∧
      fil.SamePlace fil' ∧
      (res = .ok ∧ fil'.sect = vol.fs.fileSect cs i ∧ fil'.buf = fil.block drive vol cs i ∨
        res = .diskErr ∧ drive.Failing) := by
  unfold loadSector at hload
  by_cases hsect : fil.sect = vol.fs.fileSect cs i
  · rw [if_neg (not_not.mpr hsect)] at hload
    simp only [Prod.mk.injEq] at hload
    obtain ⟨rfl, rfl, rfl⟩ := hload
    exact ⟨h, .refl, ⟨_, _, _, rfl⟩, .inl ⟨rfl, hsect, hcurrent hsect⟩⟩
  rw [if_pos hsect] at hload
  rcases hflush : flushBuf drive vol fil with ⟨fres, vol₁, fil₁⟩
  rw [hflush] at hload
  obtain ⟨hplaced₁, hsame₁, ⟨rfl, rfl⟩ | ⟨rfl, hfailing, rfl⟩⟩ := flushBuf_spec h hflush
  swap
  · simp only [Prod.mk.injEq] at hload
    obtain ⟨rfl, rfl, rfl⟩ := hload
    exact ⟨hplaced₁, hsame₁, ⟨_, _, _, rfl⟩, .inr ⟨rfl, hfailing⟩⟩
  have hi₁ : i < vol₁.fs.sectors cs := by
    rw [hsame₁.layout]
    exact hi
  have hfile₁ : vol.fs.fileSect cs i = vol₁.fs.fileSect cs i := by rw [hsame₁.layout]
  rw [hfile₁] at hload ⊢
  simp only at hload
  generalize hsrc : vol₁.fs.fileSect cs i = sect at hload ⊢
  rcases hfill : fillBuf drive vol₁ { fil with faDirty := false } sect with ⟨res₂, vol₂, fil₂⟩
  rw [hfill] at hload
  rw [← hsrc] at hfill
  obtain ⟨hplaced₂, hsame₂, buf, rfl, ⟨rfl, rfl⟩ | ⟨rfl, hfailing⟩⟩ :=
    fillBuf_spec hplaced₁ rfl hi₁ hfill
  · simp only [Prod.mk.injEq] at hload
    obtain ⟨rfl, rfl, rfl⟩ := hload
    have hsect : sect = vol₂.fs.fileSect cs i := by rw [hsame₂.layout, hsrc]
    obtain ⟨hplaced₃, hsame₃⟩ := hplaced₂.refill rfl (t := sect)
      (.inr ⟨i, by rw [hsame₂.layout]; exact hi₁, hsect⟩) _
    exact ⟨hplaced₃, (hsame₁.trans hsame₂).trans hsame₃, ⟨_, _, _, rfl⟩,
      .inl ⟨rfl, rfl, hsame₁.block h hi⟩⟩
  · simp only [Prod.mk.injEq] at hload
    obtain ⟨rfl, rfl, rfl⟩ := hload
    exact ⟨hplaced₂, hsame₁.trans hsame₂, ⟨_, _, _, rfl⟩, .inr ⟨rfl, hfailing⟩⟩

/-! ## Clusters of a file -/

/-- The sector at an offset in a cluster of the file, as `f_read` and `f_write` find it. -/
theorem Placed.sect (h : Placed drive vol fil cs) {c : BitVec 32} {p : ℕ}
    (hc : cs[p / 512 / vol.fs.csize.toNat]? = some c) {csect : BitVec 32}
    (hcsect : csect.toNat = p / 512 % vol.fs.csize.toNat) :
    clst2sect vol.fs.toLayout c ≠ 0#32 ∧
      clst2sect vol.fs.toLayout c + csect = vol.fs.fileSect cs (p / 512) := by
  have hcluster := h.clusters c (List.mem_of_getElem? hc)
  have hpos := h.dataFit.csize_bounds.1
  constructor
  · intro hzero
    obtain ⟨hsect, -⟩ := h.dataFit.toNat_sect drive.size_lt hcluster (j := 0) hpos
    have hdata := h.dataFit.data
    have hfat := h.dataFit.fatPresent
    rw [hzero] at hsect
    rcases h.ready.fits.nFats with hn | hn <;> rw [hn] at hdata <;> simp at hdata hsect <;> omega
  · have hcs : csect = BitVec.ofNat 32 (p / 512 % vol.fs.csize.toNat) := by
      rw [← hcsect, BitVec.ofNat_toNat, BitVec.setWidth_eq]
    rw [Layout.fileSect, List.getD_eq_getElem?_getD, hc, Option.getD_some, hcs]

/-- How far a request has come that is to read `btr` bytes from the position of `fil` on: the
first ones were delivered, and nothing behind the request was touched. -/
structure Reading (drive : Drive δ) (cs : List (BitVec 32)) (vol : Volume δ) (fil : Fil) (btr : ℕ)
    (rbuff : ℕ → Byte) (s : Transfer δ) : Prop where
  placed : Placed drive s.vol s.fil cs
  same : Same drive vol fil s.vol s.fil
  file : ∃ buf sect dirty fptr clust err, s.fil = { fil with
    buf := buf, sect := sect, faDirty := dirty, fptr := fptr, clust := clust, err := err }
  fptr : s.fil.fptr.toNat = fil.fptr.toNat + s.done.toNat
  left : s.done.toNat + s.left.toNat = btr
  delivered : ∀ k < s.done.toNat, s.rbuff k = fil.byte drive vol cs (fil.fptr.toNat + k)
  rest : ∀ k, btr ≤ k → s.rbuff k = rbuff k

section

variable {btr : ℕ} {rbuff : ℕ → Byte} {s : Transfer δ}

/-- The volume was accessed and the file object changed, but no more bytes were delivered. -/
theorem Reading.to (h : Reading drive cs vol fil btr rbuff s)
    (hplaced : Placed drive vol' fil' cs) (hsame : Same drive s.vol s.fil vol' fil')
    (hfile : ∃ buf sect dirty clust err, fil' = { s.fil with
      buf := buf, sect := sect, faDirty := dirty, clust := clust, err := err }) :
    Reading drive cs vol fil btr rbuff { s with vol := vol', fil := fil' } where
  placed := hplaced
  same := h.same.trans hsame
  file := by
    obtain ⟨buf, sect, dirty, fptr, clust, err, heq⟩ := h.file
    obtain ⟨buf', sect', dirty', clust', err', rfl⟩ := hfile
    exact ⟨buf', sect', dirty', fptr, clust', err', by rw [heq]⟩
  fptr := by
    obtain ⟨buf', sect', dirty', clust', err', rfl⟩ := hfile
    exact h.fptr
  left := h.left
  delivered := h.delivered
  rest := h.rest

/-- The file object is out of use, but the file is where it was. -/
theorem Reading.abort (h : Reading drive cs vol fil btr rbuff s) (res : FResult) :
    Reading drive cs vol fil btr rbuff { s with fil := s.fil.abort res } where
  placed := h.placed.congr rfl rfl rfl rfl
  same := h.same.congr rfl rfl rfl
  file := by
    obtain ⟨buf, sect, dirty, fptr, clust, err, heq⟩ := h.file
    exact ⟨buf, sect, dirty, fptr, clust, res, by rw [Fil.abort, heq]⟩
  fptr := h.fptr
  left := h.left
  delivered := h.delivered
  rest := h.rest

theorem Reading.objsize (h : Reading drive cs vol fil btr rbuff s) :
    s.fil.objsize.toNat = fil.objsize.toNat := by
  obtain ⟨_, _, _, _, _, _, heq⟩ := h.file
  rw [heq]

/-- More bytes are delivered. -/
theorem Reading.readDone (h : Reading drive cs vol fil btr rbuff s) {cnt : BitVec 32}
    {src : ℕ → Byte} (hcnt : cnt.toNat ≤ s.left.toNat)
    (hend : s.fil.fptr.toNat + cnt.toNat < 2 ^ 32)
    (hsrc : ∀ k < cnt.toNat, src k = s.fil.byte drive s.vol cs (s.fil.fptr.toNat + k))
    (h₀ : Placed drive vol fil cs) (hin : fil.fptr.toNat + btr ≤ 512 * vol.fs.sectors cs) :
    Reading drive cs vol fil btr rbuff (s.readDone cnt src) ∧
      (s.readDone cnt src).left.toNat = s.left.toNat - cnt.toNat ∧
      (s.readDone cnt src).fil.fptr.toNat = s.fil.fptr.toNat + cnt.toNat := by
  have hleft := h.left
  have hfptr := h.fptr
  have hdone : (s.done + cnt).toNat = s.done.toNat + cnt.toNat := by
    rw [BitVec.toNat_add, Nat.mod_eq_of_lt (by omega)]
  have hrest : (s.left - cnt).toNat = s.left.toNat - cnt.toNat :=
    BitVec.toNat_sub_of_le (BitVec.le_def.mpr hcnt)
  have hnext : (s.fil.fptr + cnt).toNat = s.fil.fptr.toNat + cnt.toNat := by
    rw [BitVec.toNat_add, Nat.mod_eq_of_lt hend]
  refine ⟨⟨h.placed.congr rfl rfl rfl rfl, h.same.congr rfl rfl rfl, ?_, ?_, ?_, fun k hk => ?_,
    fun k hk => ?_⟩, hrest, hnext⟩
  · obtain ⟨buf, sect, dirty, fptr, clust, err, heq⟩ := h.file
    exact ⟨buf, sect, dirty, _, clust, err, by rw [Transfer.readDone, heq]⟩
  · change (s.fil.fptr + cnt).toNat = fil.fptr.toNat + (s.done + cnt).toNat
    omega
  · change (s.done + cnt).toNat + (s.left - cnt).toNat = btr
    omega
  · change k < (s.done + cnt).toNat at hk
    change blit s.rbuff s.done.toNat cnt.toNat src k = _
    rw [blit]
    split_ifs with hnew
    · rw [hsrc _ (by omega), Fil.byte, Fil.byte, bytesOf, bytesOf,
        h.same.block h₀ (by omega), hfptr]
      have hk' : fil.fptr.toNat + s.done.toNat + (k - s.done.toNat) = fil.fptr.toNat + k := by omega
      rw [hk']
    · exact h.delivered k (by omega)
  · change blit s.rbuff s.done.toNat cnt.toNat src k = _
    rw [blit, if_neg (by omega)]
    exact h.rest k hk

end

end Sel4Xhci.Fat
