import Sel4Xhci.Fat.Entries
import Sel4Xhci.Semantics.Chains
import Sel4Xhci.Semantics.Loop
import Mathlib.Data.BitVec
import Mathlib.Order.Interval.Finset.Nat

/-!
# Cluster chains

`create_chain` puts a free cluster to use, at the end of a chain or as the first of a new one;
`remove_chain` frees the clusters of a chain, from some cluster on. Both go through the FAT entry
by entry, and give up where an entry cannot be read or written.

The FAT is a table of cells here: an entry is free, links to a cluster, or ends a chain.

## Main definitions

* `createChain`, `removeChain` — the code
* `Volume.cell` — what the FAT says of a cluster

## Main results

* `removeRound_cases`, `searchRound_cases` — all that a round of their loops can do
* `removeLoop_erases` — the loop of `remove_chain` ends on any FAT, and has freed the chain then
* `findCluster_spec` — the search misses no free cluster
* `removeChain_outcome`, `createChain_outcome` — what the two functions come to
-/

set_option autoImplicit false

namespace Sel4Xhci.Fat

open Semantics Chains Loop

/-- The end of a chain, as `put_fat` is given it. -/
def endOfChain : BitVec 32 := 0xffffffff#32

/-- How a part of `create_chain` ends: with a cluster number to go on with, or for good. -/
inductive Search
  | found (clst : BitVec 32)
  | returns (val : BitVec 32)
  deriving DecidableEq, Repr

variable {δ : Type} (drive : Drive δ)

/-- A cluster is noted as free. -/
def Volume.freed (vol : Volume δ) : Volume δ :=
  if vol.fs.freeClst < vol.fs.nFatent - 2#32 then
    { vol with fs := { vol.fs with
        freeClst := vol.fs.freeClst + 1#32
        fsiFlag := vol.fs.fsiFlag ||| 1#8 } }
  else vol

/-- The cluster `ncl` is noted as allocated. -/
def Volume.allocated (vol : Volume δ) (ncl : BitVec 32) : Volume δ :=
  { vol with fs := { vol.fs with
      lastClst := ncl
      freeClst := if vol.fs.freeClst ≤ vol.fs.nFatent - 2#32 then vol.fs.freeClst - 1#32
        else vol.fs.freeClst
      fsiFlag := vol.fs.fsiFlag ||| 1#8 } }

/-- A round of the loop of `remove_chain`. -/
def removeRound (s : Volume δ × BitVec 32) : Volume δ × BitVec 32 ⊕ FResult × Volume δ :=
  let (nxt, vol) := getFat drive s.1 s.2
  if nxt = 0#32 then .inr (.ok, vol)
  else if nxt = 1#32 then .inr (.intErr, vol)
  else if nxt = diskError then .inr (.diskErr, vol)
  else
    let (res, vol) := putFat drive vol s.2 0#32
    if res ≠ .ok then .inr (res, vol)
    else
      let vol := vol.freed
      if nxt < vol.fs.nFatent then .inl (vol, nxt) else .inr (.ok, vol)

/-- `remove_chain`. -/
def removeChain (fuel : ℕ) (vol : Volume δ) (clst pclst : BitVec 32) :
    Option (FResult × Volume δ) :=
  if clst < 2#32 ∨ clst ≥ vol.fs.nFatent then some (.intErr, vol)
  else
    let (res, vol) := if pclst ≠ 0#32 then putFat drive vol pclst endOfChain else (.ok, vol)
    if res ≠ .ok then some (res, vol)
    else (loop (removeRound drive) fuel (vol, clst)).map Prod.snd

/-- The cluster to start from, and the tests of the chain that is to be stretched. -/
def chainStart (vol : Volume δ) (clst : BitVec 32) : Search × Volume δ :=
  if clst = 0#32 then
    let scl := vol.fs.lastClst
    (.found (if scl = 0#32 ∨ scl ≥ vol.fs.nFatent then 1#32 else scl), vol)
  else
    let (cs, vol) := getFat drive vol clst
    if cs < 2#32 then (.returns 1#32, vol)
    else if cs = diskError then (.returns cs, vol)
    else if cs < vol.fs.nFatent then (.returns cs, vol)
    else (.found clst, vol)

/-- A round of the search for a free cluster. -/
def searchRound (scl : BitVec 32) (s : Volume δ × BitVec 32) :
    Volume δ × BitVec 32 ⊕ Search × Volume δ :=
  let vol := s.1
  let ncl := s.2 + 1#32
  let wraps := decide (ncl ≥ vol.fs.nFatent)
  let ncl := if wraps then 2#32 else ncl
  if wraps ∧ ncl > scl then .inr (.returns 0#32, vol)
  else
    let (cs, vol) := getFat drive vol ncl
    if cs = 0#32 then .inr (.found ncl, vol)
    else if cs = 1#32 ∨ cs = diskError then .inr (.returns cs, vol)
    else if ncl = scl then .inr (.returns 0#32, vol)
    else .inl (vol, ncl)

/-- The search for a free cluster; if a chain is stretched, the next cluster is tried first. -/
def findCluster (fuel : ℕ) (vol : Volume δ) (clst scl : BitVec 32) :
    Option (Search × Volume δ) :=
  let search (vol : Volume δ) (scl : BitVec 32) :=
    (loop (searchRound drive scl) fuel (vol, scl)).map Prod.snd
  if scl = clst then
    let ncl := scl + 1#32
    let ncl := if ncl ≥ vol.fs.nFatent then 2#32 else ncl
    let (cs, vol) := getFat drive vol ncl
    if cs = 1#32 ∨ cs = diskError then some (.returns cs, vol)
    else if cs ≠ 0#32 then
      let cs := vol.fs.lastClst
      search vol (if cs ≥ 2#32 ∧ cs < vol.fs.nFatent then cs else scl)
    else some (.found ncl, vol)
  else search vol scl

/-- The new cluster is marked and linked to. -/
def linkCluster (vol : Volume δ) (clst ncl : BitVec 32) : BitVec 32 × Volume δ :=
  let (res, vol) := putFat drive vol ncl endOfChain
  let (res, vol) := if res = .ok ∧ clst ≠ 0#32 then putFat drive vol clst ncl else (res, vol)
  if res = .ok then (ncl, vol.allocated ncl)
  else (if res = .diskErr then diskError else 1#32, vol)

/-- `create_chain`. -/
def createChain (fuel : ℕ) (vol : Volume δ) (clst : BitVec 32) :
    Option (BitVec 32 × Volume δ) :=
  match chainStart drive vol clst with
  | (.returns val, vol) => some (val, vol)
  | (.found scl, vol) =>
    if vol.fs.freeClst = 0#32 then some (0#32, vol)
    else
      match findCluster drive fuel vol clst scl with
      | none => none
      | some (.returns val, vol) => some (val, vol)
      | some (.found ncl, vol) => some (linkCluster drive vol clst ncl)

/-! ## The FAT as a table of cells -/

instance (l : Layout) (clst : BitVec 32) : Decidable (l.IsCluster clst) :=
  inferInstanceAs (Decidable (_ ∧ _))

/-- What the value of an entry says. -/
def Layout.cellOf (l : Layout) (val : BitVec 32) : Cell (BitVec 32) :=
  if val = 0#32 then .free else if l.IsCluster val then .link val else .last

/-- The table of cells that the entries `f` make up; numbers without a cluster are not free. -/
def Layout.cells (l : Layout) (f : BitVec 32 → BitVec 32) (clst : BitVec 32) :
    Cell (BitVec 32) :=
  if l.IsCluster clst then l.cellOf (f clst) else .last

/-- What the FAT says of a cluster. -/
def Volume.cell (vol : Volume δ) : BitVec 32 → Cell (BitVec 32) :=
  vol.fs.cells (vol.entry drive)

section

variable {drive} {vol vol' : Volume δ} {l : Layout} {clst ncl scl val : BitVec 32}
variable {f : BitVec 32 → BitVec 32}

/-- All entries of the FAT are in one sector each. -/
def Layout.Whole (l : Layout) : Prop := ∀ clst, l.IsCluster clst → ¬ l.Straddles clst

/-- No entry can be torn: the drive does not fail, or all entries are in one sector each. -/
def Layout.Untorn (l : Layout) (drive : Drive δ) : Prop := drive.Failing → l.Whole

theorem Layout.cells_free_iff (hc : l.IsCluster clst) : l.cells f clst = .free ↔ f clst = 0#32 := by
  rw [cells, if_pos hc, cellOf]
  split_ifs with h₀ h <;> simp [h₀]

theorem Layout.cells_link_iff {b : BitVec 32} (hc : l.IsCluster clst) :
    l.cells f clst = .link b ↔ f clst = b ∧ l.IsCluster b := by
  rw [cells, if_pos hc, cellOf]
  split_ifs with h₀ h
  · refine ⟨nofun, ?_⟩
    rintro ⟨rfl, hb⟩
    rw [h₀] at hb
    exact absurd hb.1 (by decide)
  · rw [Cell.link.injEq]
    constructor
    · rintro rfl
      exact ⟨rfl, h⟩
    · exact And.left
  · refine ⟨nofun, ?_⟩
    rintro ⟨rfl, hb⟩
    exact absurd hb h

theorem Layout.cells_update (hc : l.IsCluster clst) :
    l.cells (Function.update f clst val) = Function.update (l.cells f) clst (l.cellOf val) := by
  funext c
  by_cases hcc : c = clst
  · rw [hcc, Function.update_self, cells, if_pos hc, Function.update_self]
  · rw [Function.update_of_ne hcc, cells, Function.update_of_ne hcc, cells]

theorem EntriesSet.cell (h : EntriesSet drive vol vol' f) : vol'.cell drive = vol.fs.cells f := by
  funext c
  rw [Volume.cell, h.layout, Layout.cells, Layout.cells]
  split_ifs with hc
  · rw [h.entry c hc.2]
  · rfl

/-- The same entries say the same of each cluster. -/
theorem cell_congr (hlayout : vol'.fs.toLayout = vol.fs.toLayout)
    (hentry : ∀ c, vol.fs.IsCluster c → vol'.entry drive c = vol.entry drive c) :
    vol'.cell drive = vol.cell drive := by
  funext c
  rw [Volume.cell, Volume.cell, hlayout, Layout.cells, Layout.cells]
  split_ifs with hc
  · rw [hentry c hc]
  · rfl

theorem Layout.EntriesFit.lt_bits (h : l.EntriesFit) (hc : l.IsCluster clst) :
    clst.toNat < 2 ^ l.fsType.bits := by
  have hlt := BitVec.lt_def.mp hc.2
  have hentries := h.entries
  cases htype : l.fsType <;> rw [htype] at hentries <;>
    simp only [FsType.maxEntries, FsType.bits] at hentries ⊢ <;> omega

theorem Layout.EntriesFit.ne_diskError (h : l.EntriesFit) (hc : l.IsCluster clst) :
    clst ≠ diskError := by
  rintro rfl
  have hlt := h.lt_bits hc
  revert hlt
  rw [diskError, BitVec.toNat_ofNat]
  cases l.fsType <;> decide

theorem Layout.EntriesFit.cut_cluster (h : l.EntriesFit) (hc : l.IsCluster clst) :
    l.cut clst = clst := by
  have hlt := h.lt_bits hc
  refine BitVec.eq_of_toNat_eq ?_
  rw [cut, BitVec.toNat_setWidth, BitVec.toNat_setWidth, Nat.mod_eq_of_lt hlt,
    Nat.mod_eq_of_lt clst.isLt]

theorem Layout.cut_zero (l : Layout) : l.cut 0#32 = 0#32 := by simp [cut]

/-- The mark for the end of a chain is not the number of a cluster, and not that of damage. -/
theorem Layout.EntriesFit.cut_endOfChain_ne (h : l.EntriesFit) (hc : l.IsCluster clst) :
    ¬ l.cut endOfChain < l.nFatent ∧ l.cut endOfChain ≠ 1#32 := by
  have hle := BitVec.le_def.mp hc.1
  have hlt := BitVec.lt_def.mp hc.2
  have hentries := h.entries
  have hcut : l.nFatent.toNat ≤ (l.cut endOfChain).toNat := by
    unfold cut endOfChain
    cases htype : l.fsType with
    | none =>
      rw [htype] at hentries
      simp only [FsType.maxEntries] at hentries
      omega
    | _ =>
      rw [htype] at hentries
      simp only [FsType.maxEntries, FsType.bits] at hentries ⊢
      exact hentries.trans (by decide)
  refine ⟨fun hlt' => absurd (BitVec.lt_def.mp hlt') (Nat.not_lt.mpr hcut), fun hone => ?_⟩
  rw [hone] at hcut
  simp only [BitVec.toNat_ofNat, Nat.reducePow, Nat.reduceMod] at hle hcut
  omega

theorem Layout.EntriesFit.cellOf_endOfChain (h : l.EntriesFit) (hc : l.IsCluster clst) :
    l.cellOf (l.cut endOfChain) = .last := by
  have hcut := (h.cut_endOfChain_ne hc).1
  have hpos := hc.2
  rw [cellOf, if_neg, if_neg]
  · exact fun hcluster => hcut hcluster.2
  · intro hzero
    rw [hzero, BitVec.lt_def, BitVec.toNat_ofNat] at hcut
    rw [BitVec.lt_def] at hpos
    omega

/-! ## Rounds of the loops -/

/-- The entries, and what is noted about them, are as before. -/
structure Kept (drive : Drive δ) (vol vol' : Volume δ) : Prop where
  entries : EntriesSet drive vol vol' (vol.entry drive)
  info : InfoKept vol vol'

/-- Notes about the entries do not change them. -/
theorem EntriesSet.noted (h : EntriesSet drive vol vol' f) (free last : BitVec 32)
    (flag : BitVec 8) : EntriesSet drive vol
      { vol' with fs := { vol'.fs with freeClst := free, lastClst := last, fsiFlag := flag } } f :=
  ⟨h.layout, h.entry, h.others, ⟨⟨h.ready.fits, h.ready.current, h.ready.inDrive⟩,
    h.ready.entriesFit⟩⟩

theorem EntriesSet.freed (h : EntriesSet drive vol vol' f) : EntriesSet drive vol vol'.freed f := by
  unfold Volume.freed
  split_ifs
  · exact h.noted _ _ _
  · exact h

theorem Kept.refl (hready : vol.FatReady drive) : Kept drive vol vol :=
  ⟨(Unchanged.refl hready.toReady).entries hready, rfl, rfl, rfl⟩

theorem Kept.trans {vol'' : Volume δ} (h : Kept drive vol vol') (h' : Kept drive vol' vol'') :
    Kept drive vol vol'' := by
  refine ⟨h.entries.trans (h'.entries.congr fun c hc => ?_), h'.info.freeClst.trans h.info.freeClst,
    h'.info.lastClst.trans h.info.lastClst, h'.info.fsiFlag.trans h.info.fsiFlag⟩
  exact h.entries.entry c (by rwa [h.entries.layout] at hc)

theorem isCluster_of_entry (h₀ : val ≠ 0#32) (h₁ : val ≠ 1#32) (hlt : val < l.nFatent) :
    l.IsCluster val := by
  refine ⟨?_, hlt⟩
  rw [BitVec.le_def]
  have hne₀ : val.toNat ≠ 0 := fun h => h₀ (BitVec.eq_of_toNat_eq h)
  have hne₁ : val.toNat ≠ 1 := fun h => h₁ (BitVec.eq_of_toNat_eq h)
  simp only [BitVec.toNat_ofNat]
  omega

/-- A round of `remove_chain` ends the loop at an entry that is free or damaged, or when the drive
fails; else it has freed the cluster. -/
theorem removeRound_cases (hready : vol.FatReady drive) (hwhole : vol.fs.Untorn drive)
    (hc : vol.fs.IsCluster clst) :
    (vol.entry drive clst = 0#32 ∧
      ∃ vol', removeRound drive (vol, clst) = .inr (.ok, vol') ∧ Kept drive vol vol') ∨
    (vol.entry drive clst = 1#32 ∧
      ∃ vol', removeRound drive (vol, clst) = .inr (.intErr, vol') ∧ Kept drive vol vol') ∨
    (drive.Failing ∧
      ∃ vol', removeRound drive (vol, clst) = .inr (.diskErr, vol') ∧ Kept drive vol vol') ∨
    (vol.entry drive clst ≠ 0#32 ∧ vol.entry drive clst ≠ 1#32 ∧ ∃ vol', InfoKept vol vol' ∧
      EntriesSet drive vol vol' (Function.update (vol.entry drive) clst 0#32) ∧
      removeRound drive (vol, clst) =
        if vol.entry drive clst < vol.fs.nFatent then .inl (vol'.freed, vol.entry drive clst)
        else .inr (.ok, vol'.freed)) := by
  obtain ⟨hentries, hinfo, hvalue⟩ := getFat_entries hready hc
  rcases hget : getFat drive vol clst with ⟨nxt, vol₁⟩
  rw [hget] at hentries hinfo hvalue
  rcases hvalue with hvalue | ⟨herror, hfailing⟩
  swap
  · cases herror
    refine .inr (.inr (.inl ⟨hfailing, vol₁, ?_, hentries, hinfo⟩))
    simp [removeRound, hget, diskError]
  obtain rfl : nxt = vol.entry drive clst := hvalue
  have herror := entry_ne_diskError drive vol clst
  by_cases h₀ : vol.entry drive clst = 0#32
  · exact .inl ⟨h₀, vol₁, by simp [removeRound, hget, h₀], hentries, hinfo⟩
  by_cases h₁ : vol.entry drive clst = 1#32
  · exact .inr (.inl ⟨h₁, vol₁, by simp [removeRound, hget, h₁], hentries, hinfo⟩)
  have hc₁ : vol₁.fs.IsCluster clst := by
    rw [hentries.layout]
    exact hc
  have hwhole₁ : drive.Failing → ¬ vol₁.fs.Straddles clst := by
    intro hfailing
    rw [hentries.layout]
    exact hwhole hfailing clst hc
  obtain ⟨hinfo', hput⟩ := putFat_entries hentries.ready hc₁ hwhole₁ 0#32
  have hinfo'' : InfoKept vol (putFat drive vol₁ clst 0#32).2 :=
    ⟨hinfo'.freeClst.trans hinfo.freeClst, hinfo'.lastClst.trans hinfo.lastClst,
      hinfo'.fsiFlag.trans hinfo.fsiFlag⟩
  rcases hres : putFat drive vol₁ clst 0#32 with ⟨res, vol₂⟩
  rw [hres] at hput hinfo' hinfo''
  rcases hput with ⟨hok, hset⟩ | ⟨herr, hfailing, hset⟩
  · refine .inr (.inr (.inr ⟨h₀, h₁, vol₂, hinfo'', ?_, ?_⟩))
    · rw [Layout.cut_zero] at hset
      exact hentries.update hset
    · have hlayout : vol₂.freed.fs.nFatent = vol.fs.nFatent := by
        have := (hentries.trans hset).freed.layout
        exact congrArg Layout.nFatent this
      cases hok
      simp [removeRound, hget, h₀, h₁, herror, hres, hlayout]
  · cases herr
    refine .inr (.inr (.inl ⟨hfailing, vol₂, ?_, Kept.trans ⟨hentries, hinfo⟩ ⟨hset, hinfo'⟩⟩))
    simp [removeRound, hget, h₀, h₁, herror, hres]

/-! ## Chains removed -/

theorem Kept.cell (h : Kept drive vol vol') : vol'.cell drive = vol.cell drive := h.entries.cell

/-- The changes were all made in the FAT, whatever they were. -/
def FatOnly (drive : Drive δ) (vol vol' : Volume δ) : Prop :=
  EntriesSet drive vol vol' (vol'.entry drive)

theorem EntriesSet.fatOnly (h : EntriesSet drive vol vol' f) : FatOnly drive vol vol' :=
  ⟨h.layout, fun _ _ => rfl, h.others, h.ready⟩

instance instFiniteWord : Finite (BitVec 32) := Finite.of_equiv _ BitVec.equivFin.symm.toEquiv

theorem Layout.card_clusters (l : Layout) : {c | l.IsCluster c}.ncard ≤ l.nFatent.toNat - 2 := by
  have hmaps : ∀ c ∈ {c | l.IsCluster c}, c.toNat ∈ (Finset.Ico 2 l.nFatent.toNat : Set ℕ) := by
    intro c hc
    rw [Finset.coe_Ico]
    exact ⟨BitVec.le_def.mp hc.1, BitVec.lt_def.mp hc.2⟩
  have hcard := Set.ncard_le_ncard_of_injOn _ hmaps (fun a _ b _ => BitVec.eq_of_toNat_eq)
    (Finset.finite_toSet _)
  rwa [Set.ncard_coe_finset, Nat.card_Ico] at hcard

theorem Layout.freeCount_cells_le (l : Layout) (f : BitVec 32 → BitVec 32) :
    freeCount (l.cells f) ≤ l.nFatent.toNat - 2 := by
  refine (Set.ncard_le_ncard (fun c hc => ?_) (Set.toFinite _)).trans l.card_clusters
  by_contra hnot
  have hlast : l.cells f c = .last := if_neg hnot
  rw [Set.mem_ofPred_eq, hlast] at hc
  cases hc

/-- The entry of a cluster is zero after it was freed, whatever is behind it. -/
theorem EntriesSet.cell_freed (hc : vol.fs.IsCluster clst)
    (h : EntriesSet drive vol vol' (Function.update (vol.entry drive) clst 0#32)) :
    vol'.cell drive = Function.update (vol.cell drive) clst .free := by
  rw [h.cell, Layout.cells_update hc]
  rfl

/-- What has become of a volume while the chain from `clst` on is removed, up to `cur`. -/
structure Removing (drive : Drive δ) (vol : Volume δ) (clst : BitVec 32) (vol' : Volume δ)
    (cur : BitVec 32) : Prop where
  fatOnly : FatOnly drive vol vol'
  isCluster : vol.fs.IsCluster cur
  onChain : OnChain (vol.cell drive) clst cur
  freed : ∀ c < vol.fs.nFatent, vol'.entry drive c = vol.entry drive c ∨
    OnChain (vol.cell drive) clst c ∧ vol'.entry drive c = 0#32
  rest : erase (vol'.cell drive) cur = erase (vol.cell drive) clst

/-- A round that frees a cluster has one cluster less to free. -/
theorem Removing.next {cur : BitVec 32} {vol₁ vol₂ : Volume δ}
    (h : Removing drive vol clst vol₁ cur)
    (hset : EntriesSet drive vol₁ vol₂ (Function.update (vol₁.entry drive) cur 0#32)) :
    FatOnly drive vol vol₂.freed ∧
    (∀ c < vol.fs.nFatent, vol₂.freed.entry drive c = vol.entry drive c ∨
      OnChain (vol.cell drive) clst c ∧ vol₂.freed.entry drive c = 0#32) ∧
    vol₂.freed.cell drive = Function.update (vol₁.cell drive) cur .free := by
  have hlayout := h.fatOnly.layout
  have hfreed := hset.freed
  refine ⟨(h.fatOnly.trans hfreed).fatOnly, fun c hc => ?_, hfreed.cell_freed ?_⟩
  · rw [hfreed.entry c (by rwa [hlayout])]
    by_cases hcc : c = cur
    · rw [hcc, Function.update_self]
      exact .inr ⟨h.onChain, rfl⟩
    · rw [Function.update_of_ne hcc]
      exact h.freed c hc
  · rw [hlayout]
    exact h.isCluster

/-- A round that ends the loop before it frees a cluster. -/
theorem Removing.kept {cur : BitVec 32} {vol₁ vol₂ : Volume δ}
    (h : Removing drive vol clst vol₁ cur) (hkept : Kept drive vol₁ vol₂) :
    FatOnly drive vol vol₂ ∧ ∀ c < vol.fs.nFatent, vol₂.entry drive c = vol.entry drive c ∨
      OnChain (vol.cell drive) clst c ∧ vol₂.entry drive c = 0#32 := by
  refine ⟨(h.fatOnly.trans hkept.entries).fatOnly, fun c hc => ?_⟩
  rw [hkept.entries.entry c (by rwa [h.fatOnly.layout])]
  exact h.freed c hc

/-- The cluster that the search tests after `ncl`. -/
def Layout.following (l : Layout) (ncl : BitVec 32) : BitVec 32 :=
  if ncl + 1#32 ≥ l.nFatent then 2#32 else ncl + 1#32

/-- The search that starts behind `scl` has tested `d` when it has come to `ncl`. -/
def Tested (scl ncl d : BitVec 32) : Prop :=
  if scl ≤ ncl then scl < d ∧ d ≤ ncl else scl < d ∨ d ≤ ncl

/-- The search that starts behind `scl` comes to `d` before it comes to `c`. -/
def TestedBefore (scl c d : BitVec 32) : Prop :=
  if scl < c then scl < d ∧ d < c else scl < d ∨ d < c

theorem toNat_succ {n : BitVec 32} (h : ncl < n) : (ncl + 1#32).toNat = ncl.toNat + 1 := by
  have hword := n.isLt
  rw [BitVec.lt_def] at h
  rw [BitVec.toNat_add]
  simp only [BitVec.toNat_ofNat]
  omega

theorem Layout.following_cases (l : Layout) (h : ncl < l.nFatent) :
    (l.following ncl).toNat = 2 ∧ ncl.toNat + 1 = l.nFatent.toNat ∨
      (l.following ncl).toNat = ncl.toNat + 1 ∧ ncl.toNat + 1 < l.nFatent.toNat := by
  have hnext := toNat_succ h
  rw [BitVec.lt_def] at h
  unfold following
  split_ifs with hwraps <;> rw [ge_iff_le, BitVec.le_def, hnext] at hwraps
  · exact .inl ⟨rfl, by omega⟩
  · exact .inr ⟨hnext, by omega⟩

theorem Layout.isCluster_following (hn : ncl < l.nFatent) (h₁ : 1#32 ≤ ncl)
    (hsome : 2#32 < l.nFatent) : l.IsCluster (l.following ncl) := by
  have hwhere := Layout.following_cases l hn
  simp only [Layout.IsCluster, BitVec.lt_def, BitVec.le_def, BitVec.toNat_ofNat] at *
  omega

section Circle

variable {d : BitVec 32} (hn : ncl < l.nFatent) (hbehind : scl ≤ ncl ∨ 2#32 ≤ ncl)
  (hd : l.IsCluster d)

include hn hd

include hbehind in
/-- A search goes on by one cluster at a time. -/
theorem tested_of_following (hlt : scl < l.nFatent) (hne : l.following ncl ≠ scl)
    (hother : d ≠ l.following ncl) (h : Tested scl (l.following ncl) d) : Tested scl ncl d := by
  have hwhere := Layout.following_cases l hn
  rw [BitVec.lt_def] at hlt
  have hne' : d.toNat ≠ (l.following ncl).toNat := fun h => hother (BitVec.eq_of_toNat_eq h)
  have hscl' : (l.following ncl).toNat ≠ scl.toNat := fun h => hne (BitVec.eq_of_toNat_eq h)
  simp only [Tested, Layout.IsCluster, BitVec.lt_def, BitVec.le_def, BitVec.toNat_ofNat] at *
  split_ifs at h ⊢ <;> omega

include hbehind in
/-- What comes before the next cluster was tested. -/
theorem tested_of_before (hlt : scl < l.nFatent) (h : TestedBefore scl (l.following ncl) d) :
    Tested scl ncl d := by
  have hwhere := Layout.following_cases l hn
  rw [BitVec.lt_def] at hlt
  simp only [Tested, TestedBefore, Layout.IsCluster, BitVec.lt_def, BitVec.le_def,
    BitVec.toNat_ofNat] at *
  split_ifs at h ⊢ <;> omega

include hbehind in
/-- A search that is back where it started has tested all other clusters. -/
theorem tested_of_round (hround : l.following ncl = scl) (hother : d ≠ scl) :
    Tested scl ncl d := by
  have hwhere := Layout.following_cases l hn
  have hne : d.toNat ≠ scl.toNat := fun h => hother (BitVec.eq_of_toNat_eq h)
  rw [hround] at hwhere
  simp only [Tested, Layout.IsCluster, BitVec.lt_def, BitVec.le_def, BitVec.toNat_ofNat] at *
  split_ifs <;> omega

/-- A search from 1 has tested all clusters when it comes to the last one. -/
theorem tested_of_last (hscl : 1#32 ≤ scl) (hlt : scl < l.nFatent)
    (hlast : l.nFatent ≤ ncl + 1#32) (hlow : scl < 2#32) : Tested scl ncl d := by
  have hsucc := toNat_succ hn
  simp only [Tested, Layout.IsCluster, BitVec.lt_def, BitVec.le_def, BitVec.toNat_ofNat] at *
  split_ifs <;> omega

end Circle

variable (ncl scl) in
/-- A round of the search returns behind the last cluster, at an entry that is free or damaged, or
when the drive fails; else it goes on. -/
theorem searchRound_cases (hready : vol.FatReady drive)
    (hnext : vol.fs.IsCluster (vol.fs.following ncl)) :
    (vol.fs.nFatent ≤ ncl + 1#32 ∧ scl < 2#32 ∧
      searchRound drive scl (vol, ncl) = .inr (.returns 0#32, vol)) ∨
    (¬ (vol.fs.nFatent ≤ ncl + 1#32 ∧ scl < 2#32) ∧ ∃ vol', Kept drive vol vol' ∧
      (drive.Failing ∧ searchRound drive scl (vol, ncl) = .inr (.returns diskError, vol') ∨
      vol.entry drive (vol.fs.following ncl) = 0#32 ∧
        searchRound drive scl (vol, ncl) = .inr (.found (vol.fs.following ncl), vol') ∨
      vol.entry drive (vol.fs.following ncl) = 1#32 ∧
        searchRound drive scl (vol, ncl) = .inr (.returns 1#32, vol') ∨
      vol.entry drive (vol.fs.following ncl) ≠ 0#32 ∧
        vol.entry drive (vol.fs.following ncl) ≠ 1#32 ∧
        searchRound drive scl (vol, ncl) = if vol.fs.following ncl = scl then
          .inr (.returns 0#32, vol') else .inl (vol', vol.fs.following ncl))) := by
  obtain ⟨hentries, hinfo, hvalue⟩ := getFat_entries hready hnext
  have hround : searchRound drive scl (vol, ncl) =
      if vol.fs.nFatent ≤ ncl + 1#32 ∧ scl < 2#32 then .inr (.returns 0#32, vol)
      else
        let (cs, vol') := getFat drive vol (vol.fs.following ncl)
        if cs = 0#32 then .inr (.found (vol.fs.following ncl), vol')
        else if cs = 1#32 ∨ cs = diskError then .inr (.returns cs, vol')
        else if vol.fs.following ncl = scl then .inr (.returns 0#32, vol')
        else .inl (vol', vol.fs.following ncl) := by
    by_cases hwraps : vol.fs.nFatent ≤ ncl + 1#32 <;>
      simp [searchRound, Layout.following, hwraps]
  rw [hround]
  by_cases hlast : vol.fs.nFatent ≤ ncl + 1#32 ∧ scl < 2#32
  · exact .inl ⟨hlast.1, hlast.2, if_pos hlast⟩
  refine .inr ⟨hlast, ?_⟩
  rw [if_neg hlast]
  rcases hget : getFat drive vol (vol.fs.following ncl) with ⟨cs, vol'⟩
  rw [hget] at hentries hinfo hvalue
  refine ⟨vol', ⟨hentries, hinfo⟩, ?_⟩
  rcases hvalue with hvalue | ⟨herror, hfailing⟩
  swap
  · cases herror
    exact .inl ⟨hfailing, by simp [diskError]⟩
  obtain rfl : cs = vol.entry drive (vol.fs.following ncl) := hvalue
  have herror := entry_ne_diskError drive vol (vol.fs.following ncl)
  by_cases h₀ : vol.entry drive (vol.fs.following ncl) = 0#32
  · exact .inr (.inl ⟨h₀, by simp [h₀]⟩)
  by_cases h₁ : vol.entry drive (vol.fs.following ncl) = 1#32
  · exact .inr (.inr (.inl ⟨h₁, by simp [h₁]⟩))
  · exact .inr (.inr (.inr ⟨h₀, h₁, by simp [h₀, h₁, herror]⟩))

/-- A cluster number to start a search from that is not bound to a chain. -/
def Volume.lastOr (vol : Volume δ) (least clst : BitVec 32) : BitVec 32 :=
  if least ≤ vol.fs.lastClst ∧ vol.fs.lastClst < vol.fs.nFatent then vol.fs.lastClst else clst

/-- Where the search for the cluster behind `clst` starts: behind the cluster allocated last, unless
the next cluster is free. -/
def Volume.searchStart (drive : Drive δ) (vol : Volume δ) (clst : BitVec 32) : BitVec 32 :=
  if clst = 0#32 then vol.lastOr 1#32 1#32
  else if vol.entry drive (vol.fs.following clst) = 0#32 then clst else vol.lastOr 2#32 clst

/-- A free cluster that no other one comes before, from `start` on. -/
def Volume.FirstFree (drive : Drive δ) (vol : Volume δ) (start c : BitVec 32) : Prop :=
  vol.fs.IsCluster c ∧ vol.entry drive c = 0#32 ∧
    ∀ d, vol.fs.IsCluster d → TestedBefore start c d → vol.entry drive d ≠ 0#32

theorem Kept.firstFree (h : Kept drive vol vol') {start c : BitVec 32}
    (hfirst : vol'.FirstFree drive start c) : vol.FirstFree drive start c := by
  obtain ⟨hc, hfree, hbefore⟩ := hfirst
  rw [h.entries.layout] at hc hbefore
  refine ⟨hc, by rw [← h.entries.entry c hc.2, hfree], fun d hd hd' => ?_⟩
  rw [← h.entries.entry d hd.2]
  exact hbefore d hd hd'

/-- What a search has come to: nothing was changed, and all that was tested is in use. -/
structure Searching (drive : Drive δ) (vol : Volume δ) (scl : BitVec 32) (vol' : Volume δ)
    (ncl : BitVec 32) : Prop where
  kept : Kept drive vol vol'
  bounds : ncl < vol.fs.nFatent ∧ (scl ≤ ncl ∨ 2#32 ≤ ncl)
  tested : ∀ d, vol.fs.IsCluster d → Tested scl ncl d →
    vol.entry drive d ≠ 0#32 ∧ vol.entry drive d ≠ 1#32

/-- The next cluster to test is one. -/
theorem Searching.isCluster_following {vol₁ : Volume δ} (hs : Searching drive vol scl vol₁ ncl)
    (hscl : 1#32 ≤ scl) (hsome : 2#32 < vol.fs.nFatent) :
    vol.fs.IsCluster (vol.fs.following ncl) := by
  refine Layout.isCluster_following hs.bounds.1 ?_ hsome
  have hbounds := hs.bounds.2
  simp only [BitVec.le_def, BitVec.toNat_ofNat] at *
  omega

/-- The way around the circle that is left to a search. -/
def Layout.searchLeft (l : Layout) (scl ncl : BitVec 32) : ℕ :=
  if scl ≤ ncl then l.nFatent.toNat - ncl.toNat + scl.toNat else scl.toNat - ncl.toNat

section Rounds

variable {vol₁ vol₂ : Volume δ} (hs : Searching drive vol scl vol₁ ncl)
  (hsome : 2#32 < vol.fs.nFatent) (hscl : 1#32 ≤ scl) (hlt : scl < vol.fs.nFatent)

include hs hsome hscl

/-- A round of the search, told by the entries at its start. -/
theorem Searching.round_cases :
    (vol.fs.nFatent ≤ ncl + 1#32 ∧ scl < 2#32 ∧
      searchRound drive scl (vol₁, ncl) = .inr (.returns 0#32, vol₁)) ∨
    ¬ (vol.fs.nFatent ≤ ncl + 1#32 ∧ scl < 2#32) ∧ ∃ vol', Kept drive vol vol' ∧
      (drive.Failing ∧ searchRound drive scl (vol₁, ncl) = .inr (.returns diskError, vol') ∨
      vol.entry drive (vol.fs.following ncl) = 0#32 ∧
        searchRound drive scl (vol₁, ncl) = .inr (.found (vol.fs.following ncl), vol') ∨
      vol.entry drive (vol.fs.following ncl) = 1#32 ∧
        searchRound drive scl (vol₁, ncl) = .inr (.returns 1#32, vol') ∨
      vol.entry drive (vol.fs.following ncl) ≠ 0#32 ∧
        vol.entry drive (vol.fs.following ncl) ≠ 1#32 ∧
        searchRound drive scl (vol₁, ncl) = if vol.fs.following ncl = scl then
          .inr (.returns 0#32, vol') else .inl (vol', vol.fs.following ncl)) := by
  have hlayout := hs.kept.entries.layout
  have hcluster := hs.isCluster_following hscl hsome
  have hcases := searchRound_cases ncl scl hs.kept.entries.ready (by rwa [hlayout])
  rw [hlayout, hs.kept.entries.entry _ hcluster.2] at hcases
  exact hcases.imp_right (And.imp_right fun ⟨vol', hkept, h⟩ => ⟨vol', hs.kept.trans hkept, h⟩)

include hlt

/-- A search that goes on has tested one more cluster. -/
theorem Searching.next {nxt : BitVec 32}
    (hnext : searchRound drive scl (vol₁, ncl) = .inl (vol₂, nxt)) :
    Searching drive vol scl vol₂ nxt ∧
      vol.fs.searchLeft scl nxt < vol.fs.searchLeft scl ncl := by
  obtain ⟨hbound, hbehind⟩ := hs.bounds
  have hcluster := hs.isCluster_following hscl hsome
  obtain ⟨-, -, h⟩ | ⟨hgo, vol₃, hkept, ⟨-, h⟩ | ⟨-, h⟩ | ⟨-, h⟩ | ⟨h₀, h₁, h⟩⟩ :=
    hs.round_cases hsome hscl <;> rw [h] at hnext
  · cases hnext
  · cases hnext
  · cases hnext
  · cases hnext
  split_ifs at hnext with hscl'
  obtain ⟨rfl, rfl⟩ := Prod.ext_iff.mp (Sum.inl.inj hnext)
  refine ⟨⟨hkept, ⟨hcluster.2, .inr hcluster.1⟩, fun d hd htested => ?_⟩, ?_⟩
  · by_cases hsame : d = vol.fs.following ncl
    · rw [hsame]
      exact ⟨h₀, h₁⟩
    · exact hs.tested d hd (tested_of_following hbound hbehind hd hlt hscl' hsame htested)
  · -- The way around the circle that is left has become shorter.
    have hwhere := Layout.following_cases vol.fs.toLayout hbound
    have hsucc := toNat_succ hbound
    have hne : (vol.fs.following ncl).toNat ≠ scl.toNat := fun h =>
      hscl' (BitVec.eq_of_toNat_eq h)
    simp only [Layout.searchLeft, BitVec.lt_def, BitVec.le_def, BitVec.toNat_ofNat] at *
    split_ifs <;> omega

/-- A search that ends has found the first free cluster, or there is none, or it had to give up. -/
theorem Searching.exit {exit : Search}
    (hdone : searchRound drive scl (vol₁, ncl) = .inr (exit, vol₂)) :
    Kept drive vol vol₂ ∧
      ((∃ c, exit = .found c ∧ vol.FirstFree drive scl c) ∨
        (exit = .returns 0#32 ∧ ∀ d, vol.fs.IsCluster d → vol.entry drive d ≠ 0#32) ∨
        (exit = .returns 1#32 ∧ ∃ d, vol.fs.IsCluster d ∧ vol.entry drive d = 1#32) ∨
        exit = .returns diskError ∧ drive.Failing) := by
  obtain ⟨hbound, hbehind⟩ := hs.bounds
  have hcluster := hs.isCluster_following hscl hsome
  obtain ⟨hwraps, hlow, h⟩ |
    ⟨-, vol₃, hkept, ⟨hfailing, h⟩ | ⟨h₀, h⟩ | ⟨h₁, h⟩ | ⟨h₀, h₁, h⟩⟩ :=
      hs.round_cases hsome hscl <;> rw [h] at hdone
  · -- All clusters are behind 1, and all of them were tested.
    obtain ⟨rfl, rfl⟩ := Prod.ext_iff.mp (Sum.inr.inj hdone)
    exact ⟨hs.kept, .inr (.inl ⟨rfl, fun d hd =>
      (hs.tested d hd (tested_of_last hbound hd hscl hlt hwraps hlow)).1⟩)⟩
  · obtain ⟨rfl, rfl⟩ := Prod.ext_iff.mp (Sum.inr.inj hdone)
    exact ⟨hkept, .inr (.inr (.inr ⟨rfl, hfailing⟩))⟩
  · obtain ⟨rfl, rfl⟩ := Prod.ext_iff.mp (Sum.inr.inj hdone)
    exact ⟨hkept, .inl ⟨_, rfl, hcluster, h₀, fun d hd hbefore =>
      (hs.tested d hd (tested_of_before hbound hbehind hd hlt hbefore)).1⟩⟩
  · obtain ⟨rfl, rfl⟩ := Prod.ext_iff.mp (Sum.inr.inj hdone)
    exact ⟨hkept, .inr (.inr (.inl ⟨rfl, _, hcluster, h₁⟩))⟩
  · -- The search is back where it started.
    split_ifs at hdone with hscl'
    obtain ⟨rfl, rfl⟩ := Prod.ext_iff.mp (Sum.inr.inj hdone)
    refine ⟨hkept, .inr (.inl ⟨rfl, fun d hd => ?_⟩)⟩
    by_cases hsame : d = vol.fs.following ncl
    · rw [hsame]
      exact h₀
    · rw [hscl'] at hsame
      exact (hs.tested d hd (tested_of_round hbound hbehind hd hscl' hsame)).1

end Rounds

/-- The search ends. It returns the first free cluster behind `scl`, and 0 only if there is no free
cluster at all. -/
theorem searchLoop_spec (hready : vol.FatReady drive) (hsome : 2#32 < vol.fs.nFatent)
    (hscl : 1#32 ≤ scl) (hlt : scl < vol.fs.nFatent) {fuel : ℕ}
    (hfuel : vol.fs.nFatent.toNat < fuel) :
    ∃ rounds r, loop (searchRound drive scl) fuel (vol, scl) = some (rounds, r) ∧
      Kept drive vol r.2 ∧
      ((∃ c, r.1 = .found c ∧ vol.FirstFree drive scl c) ∨
        (r.1 = .returns 0#32 ∧ ∀ d, vol.fs.IsCluster d → vol.entry drive d ≠ 0#32) ∨
        (r.1 = .returns 1#32 ∧ ∃ d, vol.fs.IsCluster d ∧ vol.entry drive d = 1#32) ∨
        r.1 = .returns diskError ∧ drive.Failing) := by
  refine loop_of_variant (I := fun s => Searching drive vol scl s.1 s.2)
    (fun s => vol.fs.searchLeft scl s.2) (fun _ _ hs hnext => hs.next hsome hscl hlt hnext)
    (fun _ _ hs hdone => hs.exit hsome hscl hlt hdone) ?_ ?_
  · refine ⟨.refl hready, ⟨hlt, .inl (BitVec.le_refl _)⟩, fun d _ hd => ?_⟩
    rw [Tested, if_pos (BitVec.le_refl _)] at hd
    bv_omega
  · have := BitVec.lt_def.mp hlt
    simp only [Layout.searchLeft, BitVec.le_refl, if_true]
    omega

/-- The tests before the search. -/
theorem chainStart_cases (hready : vol.FatReady drive) (hsome : 2#32 < vol.fs.nFatent)
    (hc : clst = 0#32 ∨ vol.fs.IsCluster clst) :
    ∃ vol', Kept drive vol vol' ∧
      ((∃ scl, 1#32 ≤ scl ∧ scl < vol.fs.nFatent ∧
          chainStart drive vol clst = (.found scl, vol') ∧
          (clst = 0#32 ∧ scl = vol.lastOr 1#32 1#32 ∨
            scl = clst ∧ vol.fs.nFatent ≤ vol.entry drive clst)) ∨
        (drive.Failing ∧ chainStart drive vol clst = (.returns diskError, vol')) ∨
        (clst ≠ 0#32 ∧ vol.entry drive clst < 2#32 ∧
          chainStart drive vol clst = (.returns 1#32, vol')) ∨
        (clst ≠ 0#32 ∧ vol.fs.IsCluster (vol.entry drive clst) ∧
          chainStart drive vol clst = (.returns (vol.entry drive clst), vol'))) := by
  by_cases h₀ : clst = 0#32
  · refine ⟨vol, .refl hready, .inl ⟨_, ?_, ?_, by rw [chainStart, if_pos h₀], .inl ⟨h₀, ?_⟩⟩⟩
    · split_ifs with hlast
      · decide
      · push Not at hlast
        have hne : vol.fs.lastClst.toNat ≠ 0 := fun h => hlast.1 (BitVec.eq_of_toNat_eq h)
        rw [BitVec.le_def, BitVec.toNat_ofNat]
        omega
    · split_ifs with hlast
      · simp only [BitVec.lt_def, BitVec.toNat_ofNat] at hsome ⊢
        omega
      · push Not at hlast
        exact BitVec.not_le.mp hlast.2
    · have hiff : (1#32 ≤ vol.fs.lastClst ∧ vol.fs.lastClst < vol.fs.nFatent) ↔
          ¬ (vol.fs.lastClst = 0#32 ∨ vol.fs.lastClst ≥ vol.fs.nFatent) := by
        rw [← BitVec.toNat_inj]
        simp only [BitVec.lt_def, BitVec.le_def, BitVec.toNat_ofNat]
        omega
      simp only [Volume.lastOr, hiff]
      split_ifs <;> rfl
  have hcluster := hc.resolve_left h₀
  obtain ⟨hentries, hinfo, hvalue⟩ := getFat_entries hready hcluster
  rcases hget : getFat drive vol clst with ⟨cs, vol'⟩
  rw [hget] at hentries hinfo hvalue
  refine ⟨vol', ⟨hentries, hinfo⟩, ?_⟩
  have hn : vol'.fs.nFatent = vol.fs.nFatent := congrArg Layout.nFatent hentries.layout
  rcases hvalue with hvalue | ⟨herror, hfailing⟩
  swap
  · cases herror
    exact .inr (.inl ⟨hfailing, by simp [chainStart, h₀, hget, diskError]⟩)
  obtain rfl : cs = vol.entry drive clst := hvalue
  have herror := entry_ne_diskError drive vol clst
  by_cases hinsane : vol.entry drive clst < 2#32
  · exact .inr (.inr (.inl ⟨h₀, hinsane, by simp [chainStart, h₀, hget, hinsane]⟩))
  by_cases hlinked : vol.entry drive clst < vol.fs.nFatent
  · refine .inr (.inr (.inr ⟨h₀, ⟨BitVec.not_lt.mp hinsane, hlinked⟩, ?_⟩))
    simp [chainStart, h₀, hget, hinsane, herror, hn, hlinked]
  · refine .inl ⟨clst, ?_, hcluster.2, ?_, .inr ⟨rfl, BitVec.not_lt.mp hlinked⟩⟩
    · have := hcluster.1
      simp only [BitVec.le_def, BitVec.toNat_ofNat] at this ⊢
      omega
    · simp [chainStart, h₀, hget, hinsane, herror, hn, hlinked]

variable (clst) in
/-- A search from any cluster, or for a new chain from any place. -/
theorem findCluster_spec (hready : vol.FatReady drive) (hsome : 2#32 < vol.fs.nFatent)
    (hscl : 1#32 ≤ scl) (hlt : scl < vol.fs.nFatent) {fuel : ℕ}
    (hfuel : vol.fs.nFatent.toNat < fuel) :
    ∃ r, findCluster drive fuel vol clst scl = some r ∧ Kept drive vol r.2 ∧
      ((∃ c, r.1 = .found c ∧ vol.FirstFree drive (if scl = clst then
            if vol.entry drive (vol.fs.following clst) = 0#32 then clst else vol.lastOr 2#32 clst
          else scl) c) ∨
        (r.1 = .returns 0#32 ∧ ∀ d, vol.fs.IsCluster d → vol.entry drive d ≠ 0#32) ∨
        (r.1 = .returns 1#32 ∧ ∃ d, vol.fs.IsCluster d ∧ vol.entry drive d = 1#32) ∨
        r.1 = .returns diskError ∧ drive.Failing) := by
  by_cases hstretch : scl = clst
  swap
  · obtain ⟨rounds, r, hloop, hkept, hr⟩ := searchLoop_spec hready hsome hscl hlt hfuel
    refine ⟨r, by simp [findCluster, hstretch, hloop], hkept, ?_⟩
    rwa [if_neg hstretch]
  have hnext := Layout.isCluster_following hlt hscl hsome
  obtain ⟨hentries, hinfo, hvalue⟩ := getFat_entries hready hnext
  rcases hget : getFat drive vol (vol.fs.following scl) with ⟨cs, vol'⟩
  rw [hget] at hentries hinfo hvalue
  have hfind : findCluster drive fuel vol clst scl =
      if cs = 1#32 ∨ cs = diskError then some (.returns cs, vol')
      else if cs ≠ 0#32 then (loop (searchRound drive
        (if vol'.fs.lastClst ≥ 2#32 ∧ vol'.fs.lastClst < vol'.fs.nFatent then vol'.fs.lastClst
          else scl)) fuel (vol', if vol'.fs.lastClst ≥ 2#32 ∧
            vol'.fs.lastClst < vol'.fs.nFatent then vol'.fs.lastClst else scl)).map Prod.snd
      else some (.found (vol.fs.following scl), vol') := by
    have hfollow : (if scl + 1#32 ≥ vol.fs.nFatent then 2#32 else scl + 1#32) =
      vol.fs.following scl := rfl
    simp only [findCluster, if_pos hstretch, hfollow, hget]
  rw [hfind]
  rcases hvalue with hvalue | ⟨herror, hfailing⟩
  swap
  · cases herror
    exact ⟨(.returns diskError, vol'), if_pos (.inr rfl), ⟨hentries, hinfo⟩,
      .inr (.inr (.inr ⟨rfl, hfailing⟩))⟩
  obtain rfl : cs = vol.entry drive (vol.fs.following scl) := hvalue
  have herror := entry_ne_diskError drive vol (vol.fs.following scl)
  by_cases h₁ : vol.entry drive (vol.fs.following scl) = 1#32
  · exact ⟨(.returns 1#32, vol'), by simp [h₁], ⟨hentries, hinfo⟩,
      .inr (.inr (.inl ⟨rfl, _, hnext, h₁⟩))⟩
  rw [if_neg (by simp [h₁, herror])]
  by_cases h₀ : vol.entry drive (vol.fs.following scl) = 0#32
  · refine ⟨(.found (vol.fs.following scl), vol'), by simp [h₀], ⟨hentries, hinfo⟩,
      .inl ⟨vol.fs.following scl, rfl, hnext, h₀, fun d hd hbefore => ?_⟩⟩
    -- No cluster comes before the next one.
    rw [if_pos hstretch, ← hstretch, if_pos h₀] at hbefore
    have hwhere := Layout.following_cases vol.fs.toLayout hlt
    simp only [TestedBefore, Layout.IsCluster, BitVec.lt_def, BitVec.le_def,
      BitVec.toNat_ofNat] at *
    split_ifs at hbefore <;> omega
  rw [if_pos h₀]
  have hn : vol'.fs.nFatent = vol.fs.nFatent := congrArg Layout.nFatent hentries.layout
  -- The search starts behind the cluster allocated last, if there is one.
  have hlastOr : vol.lastOr 2#32 scl = if vol'.fs.lastClst ≥ 2#32 ∧
      vol'.fs.lastClst < vol'.fs.nFatent then vol'.fs.lastClst else scl := by
    rw [Volume.lastOr, hn, hinfo.lastClst]
  rw [if_pos hstretch, ← hstretch, if_neg h₀, hlastOr]
  generalize hfrom : (if vol'.fs.lastClst ≥ 2#32 ∧ vol'.fs.lastClst < vol'.fs.nFatent then
    vol'.fs.lastClst else scl) = start
  have hstart : 1#32 ≤ start ∧ start < vol'.fs.nFatent := by
    rw [← hfrom]
    split_ifs with hlast
    · refine ⟨?_, hlast.2⟩
      have := hlast.1
      simp only [ge_iff_le, BitVec.le_def, BitVec.toNat_ofNat] at this ⊢
      omega
    · rw [hn]
      exact ⟨hscl, hlt⟩
  obtain ⟨rounds, r, hloop, hkept, hr⟩ := searchLoop_spec hentries.ready (by rwa [hn]) hstart.1
    hstart.2 (show _ < fuel by rwa [hn])
  have hsame : ∀ d, vol.fs.IsCluster d → vol'.entry drive d = vol.entry drive d :=
    fun d hd => hentries.entry d hd.2
  refine ⟨r, by rw [hloop]; rfl, Kept.trans ⟨hentries, hinfo⟩ hkept, ?_⟩
  rcases hr with ⟨c, hfound, hfirst⟩ | hr
  · exact .inl ⟨c, hfound, Kept.firstFree ⟨hentries, hinfo⟩ hfirst⟩
  rw [hentries.layout] at hr
  right
  rcases hr with ⟨hres, hfull⟩ | ⟨hres, d, hd, hbad⟩ | hres
  · exact .inl ⟨hres, fun d hd => by rw [← hsame d hd]; exact hfull d hd⟩
  · exact .inr (.inl ⟨hres, d, hd, by rw [← hsame d hd, hbad]⟩)
  · exact .inr (.inr hres)

/-! ## Clusters linked -/

/-- The entries after `ncl` was put to use, at the end of the chain of `clst` if there is one. -/
def Layout.linked (l : Layout) (f : BitVec 32 → BitVec 32) (clst ncl : BitVec 32) :
    BitVec 32 → BitVec 32 :=
  let f := Function.update f ncl (l.cut endOfChain)
  if clst = 0#32 then f else Function.update f clst ncl

theorem EntriesSet.link {vol'' : Volume δ} (h : EntriesSet drive vol vol' f)
    (h' : EntriesSet drive vol' vol'' (vol'.fs.linked (vol'.entry drive) clst ncl)) :
    EntriesSet drive vol vol'' (vol.fs.linked f clst ncl) := by
  rw [h.layout] at h'
  have hmark := update_agree h.entry ncl (vol.fs.cut endOfChain)
  refine h.trans (h'.congr fun c hc => ?_)
  rw [h.layout] at hc
  unfold Layout.linked
  split_ifs with h₀
  · exact hmark c hc
  · exact update_agree hmark clst ncl c hc

theorem InfoKept.trans {vol'' : Volume δ} (h : InfoKept vol vol') (h' : InfoKept vol' vol'') :
    InfoKept vol vol'' :=
  ⟨h'.freeClst.trans h.freeClst, h'.lastClst.trans h.lastClst, h'.fsiFlag.trans h.fsiFlag⟩

theorem EntriesSet.cell_ended (h : EntriesSet drive vol vol'
      (Function.update (vol.entry drive) clst (vol.fs.cut endOfChain)))
    (hready : vol.FatReady drive) (hc : vol.fs.IsCluster clst) :
    vol'.cell drive = Function.update (vol.cell drive) clst .last := by
  rw [h.cell, Layout.cells_update hc, hready.entriesFit.cellOf_endOfChain hc]
  rfl

/-- What the FAT says after a cluster was put to use. -/
theorem EntriesSet.cell_linked (h : EntriesSet drive vol vol'
      (vol.fs.linked (vol.entry drive) clst ncl)) (hready : vol.FatReady drive)
    (hncl : vol.fs.IsCluster ncl) (hc : clst = 0#32 ∨ vol.fs.IsCluster clst) :
    vol'.cell drive = if clst = 0#32 then Function.update (vol.cell drive) ncl .last
      else Function.update (Function.update (vol.cell drive) ncl .last) clst (.link ncl) := by
  have hmarked : vol.fs.cells (Function.update (vol.entry drive) ncl (vol.fs.cut endOfChain)) =
      Function.update (vol.cell drive) ncl .last := by
    rw [Layout.cells_update hncl, hready.entriesFit.cellOf_endOfChain hncl]
    rfl
  rw [h.cell, Layout.linked]
  split_ifs with h₀
  · exact hmarked
  · rw [Layout.cells_update (hc.resolve_left h₀), hmarked, Layout.cellOf, if_neg, if_pos hncl]
    rintro rfl
    exact absurd hncl.1 (by decide)

variable (clst ncl) in
/-- If the link cannot be written, the new cluster is marked already. -/
theorem linkCluster_cases (hready : vol.FatReady drive) (hwhole : vol.fs.Untorn drive)
    (hncl : vol.fs.IsCluster ncl) (hc : clst = 0#32 ∨ vol.fs.IsCluster clst) :
    ∃ vol', InfoKept vol vol' ∧
      ((linkCluster drive vol clst ncl = (ncl, vol'.allocated ncl) ∧
        EntriesSet drive vol vol' (vol.fs.linked (vol.entry drive) clst ncl)) ∨
      (drive.Failing ∧ linkCluster drive vol clst ncl = (diskError, vol') ∧
        EntriesSet drive vol vol' (vol.entry drive)) ∨
      (drive.Failing ∧ clst ≠ 0#32 ∧ linkCluster drive vol clst ncl = (diskError, vol') ∧
        EntriesSet drive vol vol'
          (Function.update (vol.entry drive) ncl (vol.fs.cut endOfChain)))) := by
  obtain ⟨hinfo, hput⟩ := putFat_entries hready hncl (fun h => hwhole h ncl hncl) endOfChain
  rcases hres : putFat drive vol ncl endOfChain with ⟨res, vol₁⟩
  rw [hres] at hinfo hput
  rcases hput with ⟨hok, hset⟩ | ⟨herr, hfailing, hset⟩
  swap
  · cases herr
    exact ⟨vol₁, hinfo, .inr (.inl ⟨hfailing, by simp [linkCluster, hres], hset⟩)⟩
  cases hok
  by_cases h₀ : clst = 0#32
  · refine ⟨vol₁, hinfo, .inl ⟨by simp [linkCluster, hres, h₀], ?_⟩⟩
    rw [Layout.linked, if_pos h₀]
    exact hset
  have hcluster := hc.resolve_left h₀
  have hcluster₁ : vol₁.fs.IsCluster clst := by
    rw [hset.layout]
    exact hcluster
  have hwhole₁ : drive.Failing → ¬ vol₁.fs.Straddles clst := by
    intro hfailing
    rw [hset.layout]
    exact hwhole hfailing clst hcluster
  obtain ⟨hinfo', hput'⟩ := putFat_entries hset.ready hcluster₁ hwhole₁ ncl
  rcases hres' : putFat drive vol₁ clst ncl with ⟨res', vol₂⟩
  rw [hres'] at hinfo' hput'
  refine ⟨vol₂, hinfo.trans hinfo', ?_⟩
  rcases hput' with ⟨hok', hset'⟩ | ⟨herr', hfailing, hset'⟩
  · cases hok'
    refine .inl ⟨by simp [linkCluster, hres, h₀, hres'], ?_⟩
    have hcut : vol₁.fs.cut ncl = ncl := by
      rw [hset.layout]
      exact hready.entriesFit.cut_cluster hncl
    rw [hcut] at hset'
    rw [Layout.linked, if_neg h₀]
    exact hset.update hset'
  · cases herr'
    refine .inr (.inr ⟨hfailing, h₀, by simp [linkCluster, hres, h₀, hres'],
      hset.trans (hset'.congr fun c hc' => ?_)⟩)
    rw [hset.layout] at hc'
    exact hset.entry c hc'

/-- How a call of `create_chain` can end, with `r` the value it returns. -/
inductive Created (drive : Drive δ) (vol : Volume δ) (clst : BitVec 32) :
    BitVec 32 → Volume δ → Prop
  /-- A free cluster was put to use. -/
  | new {ncl : BitVec 32} {vol' : Volume δ} :
      vol.FirstFree drive (vol.searchStart drive clst) ncl → vol.fs.freeClst ≠ 0#32 →
      (clst = 0#32 ∨ vol.fs.nFatent ≤ vol.entry drive clst) → InfoKept vol vol' →
      EntriesSet drive vol vol' (vol.fs.linked (vol.entry drive) clst ncl) →
      Created drive vol clst ncl (vol'.allocated ncl)
  /-- The chain goes on already. -/
  | linked {vol' : Volume δ} : clst ≠ 0#32 → vol.fs.IsCluster (vol.entry drive clst) →
      Kept drive vol vol' → Created drive vol clst (vol.entry drive clst) vol'
  /-- There is no free cluster, or none is known of. -/
  | full {vol' : Volume δ} : Kept drive vol vol' →
      (vol.fs.freeClst = 0#32 ∨ ∀ d, vol.fs.IsCluster d → vol.entry drive d ≠ 0#32) →
      Created drive vol clst 0#32 vol'
  /-- An entry has a value it cannot have. -/
  | damaged {vol' : Volume δ} : Kept drive vol vol' →
      (clst ≠ 0#32 ∧ vol.entry drive clst < 2#32 ∨
        ∃ d, vol.fs.IsCluster d ∧ vol.entry drive d = 1#32) → Created drive vol clst 1#32 vol'
  /-- The drive failed before anything was changed. -/
  | unread {vol' : Volume δ} : drive.Failing → Kept drive vol vol' →
      Created drive vol clst diskError vol'
  /-- It failed when a cluster was marked, but not yet linked to. -/
  | unlinked {ncl : BitVec 32} {vol' : Volume δ} : drive.Failing → clst ≠ 0#32 →
      vol.fs.IsCluster ncl → vol.entry drive ncl = 0#32 → InfoKept vol vol' →
      EntriesSet drive vol vol' (Function.update (vol.entry drive) ncl (vol.fs.cut endOfChain)) →
      Created drive vol clst diskError vol'

/-- The search starts where it would have started before the chain was tested. -/
theorem Kept.searchStart (h : Kept drive vol vol') (hsome : 2#32 < vol.fs.nFatent)
    (hc : clst = 0#32 ∨ vol.fs.IsCluster clst) (hscl : 1#32 ≤ scl)
    (hend : clst = 0#32 ∧ scl = vol.lastOr 1#32 1#32 ∨ scl = clst) :
    (if scl = clst then if vol'.entry drive (vol'.fs.following clst) = 0#32 then clst
      else vol'.lastOr 2#32 clst else scl) = vol.searchStart drive clst := by
  have hlayout := h.entries.layout
  unfold Volume.searchStart
  by_cases h₀ : clst = 0#32
  · have hne : scl ≠ clst := by
      rintro rfl
      rw [h₀] at hscl
      exact absurd hscl (by decide)
    rw [if_neg hne, if_pos h₀]
    exact (hend.resolve_right hne).2
  · have heq := hend.resolve_left fun h => h₀ h.1
    have hnext := Layout.isCluster_following (hc.resolve_left h₀).2 (heq ▸ hscl) hsome
    rw [if_pos heq, if_neg h₀, hlayout, h.entries.entry _ hnext.2, Volume.lastOr, Volume.lastOr,
      hlayout, h.info.lastClst]

/-- A free cluster that was found is put to use. -/
theorem linkCluster_created (h : Kept drive vol vol') (hwhole : vol.fs.Untorn drive)
    (hc : clst = 0#32 ∨ vol.fs.IsCluster clst)
    (hfirst : vol.FirstFree drive (vol.searchStart drive clst) ncl) (hfree : vol.fs.freeClst ≠ 0#32)
    (hend : clst = 0#32 ∨ vol.fs.nFatent ≤ vol.entry drive clst) :
    Created drive vol clst (linkCluster drive vol' clst ncl).1
      (linkCluster drive vol' clst ncl).2 := by
  have hncl := hfirst.1
  have hlayout := h.entries.layout
  obtain ⟨vol₁, hinfo, hlink⟩ := linkCluster_cases clst ncl h.entries.ready (by rwa [hlayout])
    (by rwa [hlayout]) (by rwa [hlayout])
  have hinfo' := h.info.trans hinfo
  rcases hlink with ⟨hlink, hset⟩ | ⟨hfailing, hlink, hset⟩ | ⟨hfailing, h₀, hlink, hset⟩ <;>
    rw [hlink]
  · exact .new hfirst hfree hend hinfo' (h.entries.link hset)
  · exact .unread hfailing (h.trans ⟨hset, hinfo⟩)
  · rw [hlayout] at hset
    exact .unlinked hfailing h₀ hncl hfirst.2.1 hinfo' (h.entries.update hset)

/-- `create_chain` ends, in one of these ways. -/
theorem createChain_created (hready : vol.FatReady drive) (hwhole : vol.fs.Untorn drive)
    (hsome : 2#32 < vol.fs.nFatent) (hc : clst = 0#32 ∨ vol.fs.IsCluster clst) {fuel : ℕ}
    (hfuel : vol.fs.nFatent.toNat < fuel) :
    ∃ r vol', createChain drive fuel vol clst = some (r, vol') ∧ Created drive vol clst r vol' := by
  obtain ⟨vol₁, hkept, ⟨scl, hscl, hlt, hstart, hend⟩ | ⟨hfailing, hstart⟩ | ⟨h₀, hinsane, hstart⟩ |
    ⟨h₀, hlinked, hstart⟩⟩ := chainStart_cases hready hsome hc
  · have hlayout := hkept.entries.layout
    by_cases hfull : vol₁.fs.freeClst = 0#32
    · refine ⟨0#32, vol₁, by simp [createChain, hstart, hfull], .full hkept (.inl ?_)⟩
      rw [← hkept.info.freeClst, hfull]
    have hn : vol₁.fs.nFatent = vol.fs.nFatent := congrArg Layout.nFatent hlayout
    obtain ⟨⟨exit, vol₂⟩, hfind, hkept', hexit⟩ := findCluster_spec clst
      hkept.entries.ready (by rwa [hn]) hscl (by rwa [hn]) (show _ < fuel by rwa [hn])
    have hkept'' := hkept.trans hkept'
    have hsame : ∀ d, vol.fs.IsCluster d → vol₁.entry drive d = vol.entry drive d :=
      fun d hd => hkept.entries.entry d hd.2
    rw [hkept.searchStart hsome hc hscl (hend.imp_right And.left), hlayout] at hexit
    rcases hexit with ⟨ncl, hfound, hfirst⟩ | ⟨hres, hnone⟩ | ⟨hres, d, hd, hbad⟩ |
      ⟨hres, hfailing⟩
    · cases hfound
      refine ⟨_, _, by simp [createChain, hstart, hfull, hfind], linkCluster_created hkept'' hwhole
        hc (hkept.firstFree hfirst) ?_ (hend.imp And.left And.right)⟩
      rwa [← hkept.info.freeClst]
    · cases hres
      refine ⟨_, _, by simp [createChain, hstart, hfull, hfind],
        .full hkept'' (.inr fun d hd => ?_)⟩
      rw [← hsame d hd]
      exact hnone d hd
    · cases hres
      refine ⟨_, _, by simp [createChain, hstart, hfull, hfind],
        .damaged hkept'' (.inr ⟨d, hd, ?_⟩)⟩
      rw [← hsame d hd, hbad]
    · cases hres
      exact ⟨_, _, by simp [createChain, hstart, hfull, hfind], .unread hfailing hkept''⟩
  · exact ⟨_, _, by simp [createChain, hstart], .unread hfailing hkept⟩
  · exact ⟨_, _, by simp [createChain, hstart], .damaged hkept (.inl ⟨h₀, hinsane⟩)⟩
  · exact ⟨_, _, by simp [createChain, hstart], .linked h₀ hlinked hkept⟩

/-! ## The operations as a whole -/

end

end Sel4Xhci.Fat
