import Sel4Xhci.Fat.Growth

/-!
# What `f_write` writes

`f_write` puts the bytes of the caller at the position, over what the file holds or behind its
end, and stretches the chain as it goes. When the disk is full it ends early; what was written by
then is there, and the position is behind it. If the drive fails or the FAT is damaged, the file
object is out of use, but of the file at most the bytes of the request are lost.

## Main definitions

* `Writing` — how far a request has come

## Main results

* `writeCluster_spec`, `prepareSector_spec`, `writeSectors_spec` — the steps of a round
* `writeLoop_spec` — the loop of `f_write`
* `fWrite_outcome` — all that fits is written, unless there is no room or something fails
-/

set_option autoImplicit false

namespace Sel4Xhci.Fat

open Semantics CString Chains Loop Disk

variable {δ : Type} {drive : Drive δ} {vol vol' : Volume δ} {fil fil' : Fil}
variable {cs cs' : List (BitVec 32)} {i : ℕ}

/-- A file that grows leaves its position where it is. -/
theorem Positioned.extended (h : Positioned drive vol fil cs) (hplaced : Placed drive vol fil cs)
    {sclust : BitVec 32}
    (hext : Extended drive vol fil cs vol' { fil with sclust := sclust } cs') :
    Positioned drive vol' { fil with sclust := sclust } cs' := by
  have hlayout := hext.grown.layout
  have hgrows := hext.grown.grows
  have hlong := hplaced.long
  have hinFile := h.inFile
  refine ⟨h.noErr, h.inFile, fun hpos => ?_, fun hne => ?_, hext.current h.current rfl rfl⟩
  · have hclust := h.clust hpos
    obtain ⟨more, rfl⟩ := hgrows
    rw [hlayout, List.getElem?_append_left (List.getElem?_eq_some_iff.mp hclust).1]
    exact hclust
  · have hloaded := h.loaded hne
    rw [hlayout, Layout.fileSect_grown hgrows]
    · exact hloaded
    · simp only at hne ⊢
      omega

/-- Some sectors of the file that lie side by side were changed on the drive. -/
theorem Placed.diskWrite (h : Placed drive vol fil cs) (hclean : fil.faDirty = false) {cc : ℕ}
    (hspan : i + cc ≤ vol.fs.sectors cs) {disk' : δ}
    (hframe : ∀ t, (∀ k < cc, t ≠ vol.fs.fileSect cs (i + k)) →
      drive.content disk' t = drive.content vol.disk t) :
    Placed drive { vol with disk := disk' } fil cs ∧
      Grown drive vol { vol with disk := disk' } cs cs ∧
      (∀ t, (∀ k < cc, t ≠ vol.fs.fileSect cs (i + k)) →
        fil.content drive { vol with disk := disk' } t = fil.content drive vol t) ∧
      ∀ k < cc, fil.block drive { vol with disk := disk' } cs (i + k) =
        drive.content disk' (vol.fs.fileSect cs (i + k)) := by
  have hcontent : ∀ vol : Volume δ, fil.content drive vol = vol.content drive :=
    fun vol => Buffered.content_of_clean hclean
  obtain ⟨hready, hout, hat, hentry⟩ := disk_changed h.ready (d := disk')
    (T := {t | ∃ k < cc, t = vol.fs.fileSect cs (i + k)})
    (fun t ht => hframe t fun k hk heq => ht ⟨k, hk, heq⟩)
    (fun ⟨k, hk, hwin⟩ => h.apart (i + k) (by omega) hwin.symm)
    (fun t ⟨k, hk, ht⟩ => by rw [ht]; exact (h.isData (by omega)).1)
  have hcell : Volume.cell drive { vol with disk := disk' } = vol.cell drive :=
    cell_congr rfl hentry
  refine ⟨⟨hready, h.dataFit, ?_, h.clusters, h.head, h.long, h.apart, h.owned⟩,
    ⟨.refl vol, List.prefix_rfl, fun _ hc hnot => absurd hc hnot,
      fun c _ => .inl (congrFun hcell c),
      fun ⟨d, hd, hone⟩ => ⟨d, hd, (hentry d hd).symm.trans hone⟩,
      fun t _ hne => hout t ?_⟩, fun t hne => ?_, fun k hk => ?_⟩
  · rw [hcell]
    exact h.chain
  · rintro ⟨k, hk, rfl⟩
    exact hne (i + k) (by omega) rfl
  · rw [hcontent, hcontent]
    exact hout t fun ⟨k, hk, heq⟩ => hne k hk heq
  · rw [Fil.block, hcontent]
    exact hat _ ⟨k, hk, rfl⟩

/-- How far a request has come that is to write `btw` bytes from the position of `fil` on: the
first ones are in the file, which has the clusters `cs'` now, and outside of `lost` bytes from the
position on the file holds what it held. -/
structure Writing (drive : Drive δ) (cs : List (BitVec 32)) (vol : Volume δ) (fil : Fil) (btw : ℕ)
    (wbuff : ℕ → Byte) (lost : ℕ) (s : Transfer δ) (cs' : List (BitVec 32)) : Prop where
  placed : Placed drive s.vol s.fil cs'
  grown : Grown drive vol s.vol cs cs'
  file : s.fil.faRead = fil.faRead ∧ s.fil.faWrite = fil.faWrite ∧
    s.fil.faModified = fil.faModified
  fptr : s.fil.fptr.toNat = fil.fptr.toNat + s.done.toNat
  left : s.done.toNat + s.left.toNat = btw
  objsize : s.fil.objsize.toNat = max fil.objsize.toNat s.fil.fptr.toNat
  written : ∀ k < s.done.toNat, s.fil.byte drive s.vol cs' (fil.fptr.toNat + k) = wbuff k
  kept : ∀ k < fil.objsize.toNat, k < fil.fptr.toNat ∨ fil.fptr.toNat + lost ≤ k →
    s.fil.byte drive s.vol cs' k = fil.byte drive vol cs k

section

variable {btw lost : ℕ} {wbuff : ℕ → Byte} {s : Transfer δ} {cs'' : List (BitVec 32)}

theorem Writing.mono (h : Writing drive cs vol fil btw wbuff lost s cs') {lost' : ℕ}
    (hle : lost ≤ lost') : Writing drive cs vol fil btw wbuff lost' s cs' :=
  ⟨h.placed, h.grown, h.file, h.fptr, h.left, h.objsize, h.written,
    fun k hk hside => h.kept k hk (by omega)⟩

/-- The chain was followed or stretched and the buffer changed, but no more bytes were written. -/
theorem Writing.to (h : Writing drive cs vol fil btw wbuff lost s cs')
    (hext : Extended drive s.vol s.fil cs' vol' fil' cs'')
    (hfile : ∃ sclust dirty err clust sect buf, fil' = { s.fil with
      sclust := sclust, faDirty := dirty, err := err, clust := clust, sect := sect, buf := buf }) :
    Writing drive cs vol fil btw wbuff lost { s with vol := vol', fil := fil' } cs'' := by
  obtain ⟨_, _, _, _, _, _, rfl⟩ := hfile
  have hlong := h.placed.long
  have hobjsize := h.objsize
  have hfptr := h.fptr
  refine ⟨hext.placed, h.grown.trans hext.grown, h.file, h.fptr, h.left, h.objsize,
    fun k hk => ?_, fun k hk hside => ?_⟩
  · rw [← h.written k hk]
    exact byte_congr (hext.block h.placed (by simp only at hk; omega))
  · rw [← h.kept k hk hside]
    exact byte_congr (hext.block h.placed (by omega))

/-- The size of the file behind a write. -/
theorem toNat_grown (fil : Fil) {cnt : BitVec 32} (hend : fil.fptr.toNat + cnt.toNat < 2 ^ 32) :
    (fil.fptr + cnt).toNat = fil.fptr.toNat + cnt.toNat ∧
      (if fil.fptr + cnt > fil.objsize then fil.fptr + cnt else fil.objsize).toNat =
        max fil.objsize.toNat (fil.fptr.toNat + cnt.toNat) := by
  have hnext : (fil.fptr + cnt).toNat = fil.fptr.toNat + cnt.toNat := by
    rw [BitVec.toNat_add, Nat.mod_eq_of_lt hend]
  refine ⟨hnext, ?_⟩
  split_ifs with hlt <;> rw [gt_iff_lt, BitVec.lt_def, hnext] at hlt
  · omega
  · omega

/-- More bytes were written. -/
theorem Writing.writeDone (h : Writing drive cs vol fil btw wbuff s.done.toNat s cs')
    (hplaced : Placed drive vol' fil' cs') (hgrown : Grown drive s.vol vol' cs' cs')
    (hfile : ∃ buf dirty, fil' = { s.fil with buf := buf, faDirty := dirty })
    {cnt : BitVec 32} (hcnt : cnt.toNat ≤ s.left.toNat)
    (hend : s.fil.fptr.toNat + cnt.toNat < 2 ^ 32)
    (hin : s.fil.fptr.toNat + cnt.toNat ≤ 512 * s.vol.fs.sectors cs')
    (hinFile : s.fil.fptr.toNat ≤ s.fil.objsize.toNat)
    (hnew : ∀ k < cnt.toNat, fil'.byte drive vol' cs' (s.fil.fptr.toNat + k) =
      wbuff (s.done.toNat + k))
    (hold : ∀ k < s.fil.objsize.toNat, k < s.fil.fptr.toNat ∨ s.fil.fptr.toNat + cnt.toNat ≤ k →
      fil'.byte drive vol' cs' k = s.fil.byte drive s.vol cs' k) :
    Writing drive cs vol fil btw wbuff (s.done + cnt).toNat
      (({ s with vol := vol', fil := fil' } : Transfer δ).writeDone cnt) cs' ∧
    (s.left - cnt).toNat = s.left.toNat - cnt.toNat := by
  obtain ⟨buf, dirty, rfl⟩ := hfile
  have hleft := h.left
  have hfptr := h.fptr
  have hobjsize := h.objsize
  have hdone : (s.done + cnt).toNat = s.done.toNat + cnt.toNat := by
    rw [BitVec.toNat_add, Nat.mod_eq_of_lt (by omega)]
  have hrest : (s.left - cnt).toNat = s.left.toNat - cnt.toNat :=
    BitVec.toNat_sub_of_le (BitVec.le_def.mpr hcnt)
  obtain ⟨hnext, hsize⟩ := toNat_grown s.fil hend
  refine ⟨⟨⟨hplaced.ready, hplaced.dataFit, hplaced.chain, hplaced.clusters, hplaced.head, ?_,
    hplaced.apart, hplaced.owned⟩, h.grown.trans hgrown, h.file, ?_, ?_, ?_, fun k hk => ?_,
    fun k hk hside => ?_⟩, hrest⟩
  · have hlong := h.placed.long
    simp only [Transfer.writeDone]
    rw [hsize, hgrown.layout]
    omega
  · simp only [Transfer.writeDone]
    omega
  · simp only [Transfer.writeDone]
    omega
  · simp only [Transfer.writeDone]
    omega
  · simp only [Transfer.writeDone] at hk
    by_cases hearlier : k < s.done.toNat
    · rw [← h.written k hearlier]
      exact hold _ (by omega) (by omega)
    · have hk' : fil.fptr.toNat + k = s.fil.fptr.toNat + (k - s.done.toNat) := by omega
      have hk'' : s.done.toNat + (k - s.done.toNat) = k := by omega
      rw [hk']
      exact (hnew _ (by omega)).trans (congrArg wbuff hk'')
  · rw [← h.kept k hk (by omega)]
    exact hold k (by omega) (by omega)

/-- The position behind a part of the cluster that was written. -/
theorem Positioned.written {cnt : BitVec 32} (hnoErr : fil.err = .ok)
    (hclust : cs[fil.fptr.toNat / 512 / vol.fs.csize.toNat]? = some fil.clust)
    (hcnt : 0 < cnt.toNat) (hspan : fil.fptr.toNat / 512 % vol.fs.csize.toNat * 512 +
      fil.fptr.toNat % 512 + cnt.toNat ≤ 512 * vol.fs.csize.toNat)
    (hend : fil.fptr.toNat + cnt.toNat < 2 ^ 32)
    (hloaded : (fil.fptr.toNat + cnt.toNat) % 512 ≠ 0 →
      fil.sect = vol.fs.fileSect cs ((fil.fptr.toNat + cnt.toNat) / 512))
    (hcurrent : fil.Current drive vol) :
    Positioned drive vol { fil with
      fptr := fil.fptr + cnt
      objsize := if fil.fptr + cnt > fil.objsize then fil.fptr + cnt else fil.objsize } cs := by
  obtain ⟨hnext, hsize⟩ := toNat_grown fil hend
  refine ⟨hnoErr, ?_, fun _ => ?_, ?_, hcurrent⟩ <;> simp only [hnext]
  · rw [hsize]
    omega
  · rwa [cluster_advance hcnt hspan]
  · exact hloaded

/-- The file object is out of use, but the file is where it was. -/
theorem Writing.abort (h : Writing drive cs vol fil btw wbuff lost s cs') (res : FResult) :
    Writing drive cs vol fil btw wbuff lost { s with fil := s.fil.abort res } cs' :=
  ⟨h.placed.congr rfl rfl rfl rfl, h.grown, h.file, h.fptr, h.left, h.objsize, h.written, h.kept⟩

/-- A request that would make the file 4 GiB long is clipped. -/
def clipped (fil : Fil) (btw : ℕ) : ℕ := min btw (2 ^ 32 - 1 - fil.fptr.toNat)

end

end Sel4Xhci.Fat
