import Sel4Xhci.Fat.Chain
import Sel4Xhci.Semantics.Machine

/-!
# The chains of the files of a volume

The functions for files and directories create chains, stretch them, cut them and remove them, in
any order, and move the window or change it in between. The start cluster of a chain is kept in a
directory entry, or in a file object until it is written there.

Whatever the drive reports as failed, and however often, the chains of different files never share a
cluster, unless a FAT12 entry was torn by a failure between its two sectors. A failure may leave a
cluster in use that no file owns, and the count of free clusters may then be too high, but it is
never too low if it was not at the start: a volume that is said to be full is full.

## Main definitions

* `Act`, `volume` — what is done to the chains of a volume, as a machine
* `Consistent` — no cluster belongs to two files, and the free clusters are not undercounted if
  they were not before

## Main results

* `removeLoop_consistent`, `Created.consistent` — chains are removed and created consistently
* `exec_consistent` — so every run leaves the volume consistent
* `files_disjoint`, `full_of_returns_zero` — what this means for the files
-/

set_option autoImplicit false

namespace Sel4Xhci.Fat

open Semantics Chains Loop Umass

/-- What is done to the chains of a volume, and to its window in between. -/
inductive Act
  | create
  | stretch (clst : BitVec 32)
  | remove (head : BitVec 32)
  | truncate (clst : BitVec 32)
  | move (sect : Lba)
  | sync
  | edit (win : Sector)

/-- A volume, and the start clusters of the chains that are kept. -/
structure Files (δ : Type) where
  vol : Volume δ
  heads : Finset (BitVec 32)

variable {δ : Type} (drive : Drive δ)

/-- There are no more free clusters than are counted, if the count can be right. A count above the
number of clusters stands for one that is not known. -/
def Volume.Counted (vol : Volume δ) : Prop :=
  vol.fs.freeClst.toNat ≤ vol.fs.nFatent.toNat - 2 →
    freeCount (vol.cell drive) ≤ vol.fs.freeClst.toNat

/-- No cluster belongs to two files, and the count of the free ones is right if it can be relied
on. It comes from the drive, and nobody checks it there. -/
structure Consistent (reliable : Prop) (l : Layout) (heads : Set (BitVec 32)) (vol : Volume δ) :
    Prop where
  layout : vol.fs.toLayout = l
  ready : vol.FatReady drive
  sound : Sound (vol.cell drive) heads
  counted : reliable → vol.Counted drive

/-- Fuel for a loop over all clusters. -/
def Volume.fuel (vol : Volume δ) : ℕ := vol.fs.nFatent.toNat + 1

/-- `f_truncate`, at a cluster of the file: the chain is cut behind it. -/
def truncateAt (vol : Volume δ) (clst : BitVec 32) : Option (FResult × Volume δ) :=
  let (ncl, vol) := getFat drive vol clst
  if ncl = diskError then some (.diskErr, vol)
  else if ncl = 1#32 then some (.intErr, vol)
  else if ncl < vol.fs.nFatent then removeChain drive vol.fuel vol ncl clst
  else some (.ok, vol)

/-- The chains of a volume under its functions. The window is edited in sectors of the drive
outside of the FAT, or a FAT entry at a time by `put_fat`. -/
def volume : Machine (Files δ) Act where
  start s := s.vol.FatReady drive ∧ Sound (s.vol.cell drive) s.heads ∧ s.vol.fs.Untorn drive ∧
    2#32 < s.vol.fs.nFatent
  step s
    | .create => (createChain drive s.vol.fuel s.vol 0#32).map fun (clst, vol) =>
        ⟨vol, if vol.fs.IsCluster clst then insert clst s.heads else s.heads⟩
    | .stretch clst =>
        if s.vol.fs.IsCluster clst then
          (createChain drive s.vol.fuel s.vol clst).map fun (_, vol) => { s with vol := vol }
        else none
    | .remove head =>
        if head ∈ s.heads then
          (removeChain drive s.vol.fuel s.vol head 0#32).map fun (_, vol) =>
            ⟨vol, s.heads.erase head⟩
        else none
    | .truncate clst =>
        if s.vol.fs.IsCluster clst then
          (truncateAt drive s.vol clst).map fun (_, vol) => { s with vol := vol }
        else none
    | .move sect =>
        if sect.toNat < drive.size then some { s with vol := (moveWindow drive s.vol sect).2 }
        else none
    | .sync => some { s with vol := (syncWindow drive s.vol).2 }
    | .edit win =>
        if s.vol.fs.winsect.toNat < drive.size ∧ ¬ s.vol.fs.InFat s.vol.fs.winsect then
          some { s with vol := s.vol.edit fun _ => win }
        else none

section

variable {drive} {vol vol' : Volume δ} {l : Layout} {heads : Set (BitVec 32)}
variable {clst ncl cur : BitVec 32} {reliable : Prop}

theorem Consistent.kept (h : Consistent drive reliable l heads vol) (hkept : Kept drive vol vol') :
    Consistent drive reliable l heads vol' := by
  refine ⟨hkept.entries.layout.trans h.layout, hkept.entries.ready, ?_, ?_⟩
  · rw [hkept.cell]
    exact h.sound
  · rw [Volume.Counted, hkept.cell, hkept.info.freeClst, hkept.entries.layout]
    exact h.counted

/-! ## Clusters freed -/

theorem toNat_sub_two {n : BitVec 32} (h : 2 ≤ n.toNat) : (n - 2#32).toNat = n.toNat - 2 := by
  rw [BitVec.toNat_sub_of_le (by rwa [BitVec.le_def])]
  rfl

/-- A cluster is counted when it is freed, as long as there may be more. -/
theorem freeClst_freed (h : 2 ≤ vol.fs.nFatent.toNat) :
    vol.freed.fs.freeClst.toNat = if vol.fs.freeClst.toNat < vol.fs.nFatent.toNat - 2 then
      vol.fs.freeClst.toNat + 1 else vol.fs.freeClst.toNat := by
  unfold Volume.freed
  by_cases hlt : vol.fs.freeClst < vol.fs.nFatent - 2#32
  · have hlt' := BitVec.lt_def.mp hlt
    rw [toNat_sub_two h] at hlt'
    rw [if_pos hlt, if_pos hlt']
    exact toNat_succ hlt
  · have hlt' := mt BitVec.lt_def.mpr hlt
    rw [toNat_sub_two h] at hlt'
    rw [if_neg hlt, if_neg hlt']

/-- A cluster that nobody owns is freed and counted. -/
theorem Consistent.released (h : Consistent drive reliable l heads vol)
    (hun : Unowned (vol.cell drive) heads cur) (hc : l.IsCluster cur)
    (hused : vol.cell drive cur ≠ .free) (hinfo : InfoKept vol vol')
    (hset : EntriesSet drive vol vol' (Function.update (vol.entry drive) cur 0#32)) :
    Consistent drive reliable l heads vol'.freed ∧
      ∀ b, vol.cell drive cur = .link b → Unowned (vol'.freed.cell drive) heads b := by
  have hcell := hset.freed.cell_freed (by rwa [h.layout])
  have hlayout := hset.freed.layout.trans h.layout
  obtain ⟨hsound, hrest⟩ := h.sound.release hun
  rw [hcell]
  refine ⟨⟨hlayout, hset.freed.ready, by rwa [hcell], fun hrel hle => ?_⟩, hrest⟩
  -- One cluster more is free than before, but no more than there are.
  have hmore := freeCount_release hused
  have hmax : freeCount (vol'.freed.cell drive) ≤ vol'.freed.fs.nFatent.toNat - 2 :=
    Layout.freeCount_cells_le _ _
  rw [hcell, hmore, hlayout] at hmax
  have hn : vol'.fs.nFatent = l.nFatent := congrArg Layout.nFatent (hset.layout.trans h.layout)
  have hclusters := BitVec.lt_def.mp hc.2
  have hcounted := h.counted hrel
  rw [Volume.Counted, h.layout] at hcounted
  rw [freeClst_freed (by rw [hn]; omega), hlayout, hn, hinfo.freeClst] at hle
  rw [freeClst_freed (by rw [hn]; omega), hn, hinfo.freeClst, hcell, hmore]
  split_ifs at hle ⊢ <;> omega

/-- The loop of `remove_chain`, from a cluster that nobody owns. -/
theorem removeLoop_consistent (h : Consistent drive reliable l heads vol) (hwhole : l.Untorn drive)
    (hun : Unowned (vol.cell drive) heads clst) (hc : l.IsCluster clst) {fuel rounds : ℕ}
    {r : FResult × Volume δ}
    (hloop : loop (removeRound drive) fuel (vol, clst) = some (rounds, r)) :
    Consistent drive reliable l heads r.2 := by
  refine loop_invariant (I := fun s : Volume δ × BitVec 32 =>
    Consistent drive reliable l heads s.1 ∧ Unowned (s.1.cell drive) heads s.2 ∧ l.IsCluster s.2)
    (Q := fun r => Consistent drive reliable l heads r.2) ?_ ?_ ⟨h, hun, hc⟩ hloop
  · rintro ⟨vol₁, cur⟩ ⟨vol₂, nxt⟩ ⟨h₁, hun₁, hc₁⟩ hround
    have hc₁' : vol₁.fs.IsCluster cur := by rwa [h₁.layout]
    obtain ⟨-, _, hr, -⟩ | ⟨-, _, hr, -⟩ | ⟨-, _, hr, -⟩ | ⟨hne₀, hne₁, vol₃, hinfo, hset, hr⟩ :=
      removeRound_cases h₁.ready (by rwa [h₁.layout]) hc₁' <;> rw [hr] at hround
    · cases hround
    · cases hround
    · cases hround
    split_ifs at hround with hlt
    obtain ⟨rfl, rfl⟩ := Prod.ext_iff.mp (Sum.inl.inj hround)
    have hnxt : vol₁.fs.IsCluster (vol₁.entry drive cur) := isCluster_of_entry hne₀ hne₁ hlt
    have hlink : vol₁.cell drive cur = .link (vol₁.entry drive cur) :=
      (Layout.cells_link_iff hc₁').mpr ⟨rfl, hnxt⟩
    obtain ⟨hkeep, hrest⟩ := h₁.released hun₁ hc₁ (by rw [hlink]; nofun) hinfo hset
    exact ⟨hkeep, hrest _ hlink, by rwa [← h₁.layout]⟩
  · rintro ⟨vol₁, cur⟩ ⟨res, vol₂⟩ ⟨h₁, hun₁, hc₁⟩ hround
    have hc₁' : vol₁.fs.IsCluster cur := by rwa [h₁.layout]
    obtain ⟨-, _, hr, hkept⟩ | ⟨-, _, hr, hkept⟩ | ⟨-, _, hr, hkept⟩ |
      ⟨hne₀, hne₁, vol₃, hinfo, hset, hr⟩ :=
      removeRound_cases h₁.ready (by rwa [h₁.layout]) hc₁' <;> rw [hr] at hround
    · obtain ⟨-, rfl⟩ := Prod.ext_iff.mp (Sum.inr.inj hround)
      exact h₁.kept hkept
    · obtain ⟨-, rfl⟩ := Prod.ext_iff.mp (Sum.inr.inj hround)
      exact h₁.kept hkept
    · obtain ⟨-, rfl⟩ := Prod.ext_iff.mp (Sum.inr.inj hround)
      exact h₁.kept hkept
    · split_ifs at hround with hlt
      obtain ⟨-, rfl⟩ := Prod.ext_iff.mp (Sum.inr.inj hround)
      exact (h₁.released hun₁ hc₁ (mt (Layout.cells_free_iff hc₁').mp hne₀) hinfo hset).1

/-- The end of a chain is put behind a cluster that links to another one. -/
theorem Consistent.cut (h : Consistent drive reliable l heads vol) (hc : l.IsCluster cur)
    (hlink : vol.cell drive cur = .link clst) (hinfo : InfoKept vol vol')
    (hset : EntriesSet drive vol vol'
      (Function.update (vol.entry drive) cur (vol.fs.cut endOfChain))) :
    Consistent drive reliable l heads vol' ∧ Unowned (vol'.cell drive) heads clst := by
  have hcell := hset.cell_ended h.ready (by rwa [h.layout])
  obtain ⟨hsound, hrest⟩ := h.sound.cut (a := cur)
  refine ⟨⟨hset.layout.trans h.layout, hset.ready, by rwa [hcell], ?_⟩, ?_⟩
  · rw [Volume.Counted, hcell, freeCount_relink (by rw [hlink]; nofun) (by nofun), hinfo.freeClst,
      hset.layout]
    exact h.counted
  · rw [hcell]
    exact hrest clst hlink

/-- A chain that nobody owns is removed, or was cut off behind `pclst` to be removed. -/
theorem removeChain_consistent (h : Consistent drive reliable l heads vol) (hwhole : l.Untorn drive)
    {pclst : BitVec 32} (howner : pclst = 0#32 ∧ Unowned (vol.cell drive) heads clst ∨
      l.IsCluster pclst ∧ vol.cell drive pclst = .link clst) {fuel : ℕ} {r : FResult × Volume δ}
    (hremove : removeChain drive fuel vol clst pclst = some r) :
    Consistent drive reliable l heads r.2 := by
  unfold removeChain at hremove
  by_cases hrange : clst < 2#32 ∨ clst ≥ vol.fs.nFatent
  · rw [if_pos hrange] at hremove
    obtain rfl := Option.some.inj hremove
    exact h
  rw [if_neg hrange] at hremove
  have hc : l.IsCluster clst := by
    rw [← h.layout]
    rw [not_or] at hrange
    exact ⟨BitVec.not_lt.mp hrange.1, BitVec.not_le.mp hrange.2⟩
  rcases howner with ⟨h₀, hun⟩ | ⟨hp, hlink⟩
  · rw [if_neg (not_not.mpr h₀)] at hremove
    obtain ⟨⟨rounds, r'⟩, hloop, rfl⟩ := Option.map_eq_some_iff.mp hremove
    exact removeLoop_consistent h hwhole hun hc hloop
  · have hp' : vol.fs.IsCluster pclst := by rwa [h.layout]
    have hne : pclst ≠ 0#32 := by
      rintro rfl
      exact absurd hp.1 (by decide)
    rw [if_pos hne] at hremove
    obtain ⟨hinfo, hput⟩ := putFat_entries h.ready hp'
      (fun hfailing => by rw [h.layout]; exact hwhole hfailing pclst hp) endOfChain
    rcases hres : putFat drive vol pclst endOfChain with ⟨res, vol₁⟩
    rw [hres] at hinfo hput hremove
    rcases hput with ⟨hok, hset⟩ | ⟨herr, -, hset⟩
    · cases hok
      obtain ⟨⟨rounds, r'⟩, hloop, rfl⟩ := Option.map_eq_some_iff.mp hremove
      obtain ⟨hkeep, hun⟩ := h.cut hp hlink hinfo hset
      exact removeLoop_consistent hkeep hwhole hun hc hloop
    · cases herr
      obtain rfl := Option.some.inj hremove
      exact h.kept ⟨hset, hinfo⟩

/-! ## Clusters put to use -/

/-- A cluster is taken off the count when it is allocated, if the count can be right. -/
theorem freeClst_allocated (ncl : BitVec 32) (hsome : 2 ≤ vol.fs.nFatent.toNat)
    (h₀ : vol.fs.freeClst ≠ 0#32) :
    (vol.allocated ncl).fs.freeClst.toNat =
      if vol.fs.freeClst.toNat ≤ vol.fs.nFatent.toNat - 2 then vol.fs.freeClst.toNat - 1
      else vol.fs.freeClst.toNat := by
  have hne : vol.fs.freeClst.toNat ≠ 0 := fun h => h₀ (BitVec.eq_of_toNat_eq h)
  have hiff := BitVec.le_def (x := vol.fs.freeClst) (y := vol.fs.nFatent - 2#32)
  rw [toNat_sub_two hsome] at hiff
  simp only [Volume.allocated, hiff]
  split_ifs
  · rw [BitVec.toNat_sub_of_le (by rw [BitVec.le_def, BitVec.toNat_ofNat]; omega)]
    rfl
  · rfl

/-- One free cluster less is there, and one less is counted. -/
theorem Consistent.allocated (h : Consistent drive reliable l heads vol)
    (hsome : 2 ≤ l.nFatent.toNat) (h₀ : vol.fs.freeClst ≠ 0#32) (hinfo : InfoKept vol vol')
    {f : BitVec 32 → BitVec 32} (hset : EntriesSet drive vol vol' f) {heads' : Set (BitVec 32)}
    (hsound : Sound (vol'.cell drive) heads')
    (hcount : freeCount (vol'.cell drive) + 1 = freeCount (vol.cell drive)) :
    Consistent drive reliable l heads' (vol'.allocated ncl) := by
  have hset' : EntriesSet drive vol (vol'.allocated ncl) f := hset.noted _ _ _
  have hn : vol'.fs.nFatent = l.nFatent := congrArg Layout.nFatent (hset.layout.trans h.layout)
  have hcell : (vol'.allocated ncl).cell drive = vol'.cell drive := by rw [hset.cell, hset'.cell]
  have hallocated := freeClst_allocated ncl (show 2 ≤ vol'.fs.nFatent.toNat by rwa [hn])
    (by rwa [hinfo.freeClst])
  refine ⟨hset'.layout.trans h.layout, hset'.ready, by rwa [hcell], fun hrel hle => ?_⟩
  have hcounted := h.counted hrel
  rw [Volume.Counted, h.layout] at hcounted
  rw [hn, hinfo.freeClst] at hallocated
  rw [hallocated, hset'.layout, h.layout] at hle
  rw [hallocated, hcell]
  split_ifs at hle ⊢ <;> omega

/-- Whatever `create_chain` comes to, a new chain has one owner, and so has a stretched one. -/
theorem Created.consistent {r : BitVec 32} (h : Consistent drive reliable l heads vol)
    (hcreated : Created drive vol clst r vol') (hsome : 2 ≤ l.nFatent.toNat)
    (hc : clst = 0#32 ∨ l.IsCluster clst) :
    (clst = 0#32 →
        Consistent drive reliable l (if l.IsCluster r then insert r heads else heads) vol') ∧
      (clst ≠ 0#32 → Consistent drive reliable l heads vol') := by
  have hzero : ¬ l.IsCluster 0#32 := fun h => absurd h.1 (by decide)
  have hone : ¬ l.IsCluster 1#32 := fun h => absurd h.1 (by decide)
  have herror : ¬ l.IsCluster diskError := by
    rw [← h.layout]
    exact fun herr => h.ready.entriesFit.ne_diskError herr rfl
  cases hcreated with
  | @new _ vol₁ hfirst h₀ hend hinfo hset =>
    obtain ⟨hncl, hfree, -⟩ := hfirst
    have hncl' : l.IsCluster r := by rwa [← h.layout]
    have hfree' : vol.cell drive r = .free := (Layout.cells_free_iff hncl).mpr hfree
    obtain ⟨hsound, hun⟩ := h.sound.claim hfree'
    have hcount := freeCount_claim hfree' (x := .last) (by simp)
    have hcell := hset.cell_linked h.ready hncl (by rwa [h.layout])
    by_cases hnew : clst = 0#32
    · rw [if_pos hnew] at hcell
      refine ⟨fun _ => ?_, fun hne => absurd hnew hne⟩
      rw [if_pos hncl']
      refine h.allocated hsome h₀ hinfo hset ?_ (by rw [hcell, hcount])
      rw [hcell]
      exact hsound.adopt hun (by simp)
    · rw [if_neg hnew] at hcell
      have hclst : vol.fs.IsCluster clst := by
        rw [h.layout]
        exact hc.resolve_left hnew
      -- The chain that is stretched is in use, so it does not start with the new cluster.
      have hused : Function.update (vol.cell drive) r .last clst ≠ .free := by
        refine used_update (by simp) fun hcl => ?_
        have hentry := (Layout.cells_free_iff hclst).mp hcl
        have hle := hend.resolve_left hnew
        have hlt := hclst.2
        rw [hentry, BitVec.le_def, BitVec.toNat_ofNat] at hle
        rw [BitVec.lt_def] at hlt
        omega
      refine ⟨fun hz => absurd hz hnew, fun _ => h.allocated hsome h₀ hinfo hset ?_ ?_⟩
      · rw [hcell]
        exact hsound.attach (by simp) hun
      · rw [hcell, freeCount_relink hused (x := .link r) (by simp), hcount]
  | linked hne _ hkept => exact ⟨fun h₀ => absurd h₀ hne, fun _ => h.kept hkept⟩
  | full hkept _ =>
    rw [if_neg hzero]
    exact ⟨fun _ => h.kept hkept, fun _ => h.kept hkept⟩
  | damaged hkept _ =>
    rw [if_neg hone]
    exact ⟨fun _ => h.kept hkept, fun _ => h.kept hkept⟩
  | unread _ hkept =>
    rw [if_neg herror]
    exact ⟨fun _ => h.kept hkept, fun _ => h.kept hkept⟩
  | @unlinked ncl _ _ hne hncl hfree hinfo hset =>
    have hfree' : vol.cell drive ncl = .free := (Layout.cells_free_iff hncl).mpr hfree
    have hcell := hset.cell_ended h.ready hncl
    have hcount := freeCount_claim hfree' (x := .last) (by simp)
    refine ⟨fun hz => absurd hz hne, fun _ => ⟨hset.layout.trans h.layout, hset.ready, ?_,
      fun hrel => ?_⟩⟩
    · rw [hcell]
      exact (h.sound.claim hfree').1
    · have hcounted := h.counted hrel
      rw [Volume.Counted] at hcounted ⊢
      rw [hcell, hinfo.freeClst, hset.layout]
      omega

/-! ## The window -/

theorem Unchanged.kept (h : Unchanged drive vol vol') (hready : vol.FatReady drive) :
    Kept drive vol vol' :=
  ⟨h.entries hready, h.freeClst, h.lastClst, h.fsiFlag⟩

/-- An edit of a sector that does not belong to the FAT. -/
theorem Consistent.edit (h : Consistent drive reliable l heads vol)
    (hin : vol.fs.winsect.toNat < drive.size) (hfat : ¬ vol.fs.InFat vol.fs.winsect)
    (win : Sector) : Consistent drive reliable l heads (vol.edit fun _ => win) := by
  have hcell : (vol.edit fun _ => win).cell drive = vol.cell drive := by
    funext c
    unfold Volume.cell Layout.cells
    change (if vol.fs.IsCluster c then _ else _) = _
    split_ifs with hc
    · congr 1
      refine entry_congr h.ready.entriesFit hc.2 fun k hk => ?_
      unfold Layout.table
      rw [Volume.edit, content_edit, Function.update_of_ne]
      intro hsect
      rw [← hsect] at hfat
      exact hfat (Layout.inFat_fatSect hk)
    · rfl
  refine ⟨h.layout, ⟨h.ready.toReady.edit hin win, h.ready.entriesFit⟩, ?_, ?_⟩
  · rw [hcell]
    exact h.sound
  · rw [Volume.Counted, hcell]
    exact h.counted

/-! ## Whole runs -/

section Runs

variable {s t : Files δ} {as : List Act}

theorem truncateAt_consistent (h : Consistent drive reliable l heads vol) (hwhole : l.Untorn drive)
    (hc : l.IsCluster clst) {r : FResult × Volume δ} (hcut : truncateAt drive vol clst = some r) :
    Consistent drive reliable l heads r.2 := by
  have hc' : vol.fs.IsCluster clst := by rwa [h.layout]
  obtain ⟨hentries, hinfo, hvalue⟩ := getFat_entries h.ready hc'
  unfold truncateAt at hcut
  rcases hget : getFat drive vol clst with ⟨ncl, vol₁⟩
  rw [hget] at hentries hinfo hvalue hcut
  have hkeep := h.kept ⟨hentries, hinfo⟩
  simp only at hcut hentries hkeep
  split_ifs at hcut with herror h₁ hlt
  · obtain rfl := Option.some.inj hcut
    exact hkeep
  · obtain rfl := Option.some.inj hcut
    exact hkeep
  · by_cases h₀ : ncl = 0#32
    · -- The entry is free; `remove_chain` finds the number out of range.
      rw [removeChain, if_pos (.inl (by rw [h₀]; decide))] at hcut
      obtain rfl := Option.some.inj hcut
      exact hkeep
    · obtain rfl : ncl = vol.entry drive clst := hvalue.resolve_right fun h => herror h.1
      have hnxt : vol₁.fs.IsCluster (vol.entry drive clst) := isCluster_of_entry h₀ h₁ hlt
      refine removeChain_consistent hkeep hwhole (.inr ⟨hc, ?_⟩) hcut
      rw [hentries.cell]
      rw [hentries.layout] at hnxt
      exact (Layout.cells_link_iff hc').mpr ⟨rfl, hnxt⟩
  · obtain rfl := Option.some.inj hcut
    exact hkeep

theorem step_consistent (hwhole : l.Untorn drive) (hsome : 2#32 < l.nFatent) (a : Act)
    (h : Consistent drive reliable l s.heads s.vol) (hstep : (volume drive).step s a = some t) :
    Consistent drive reliable l t.heads t.vol := by
  have htwo : 2 ≤ l.nFatent.toNat := by
    have := BitVec.lt_def.mp hsome
    simp only [BitVec.toNat_ofNat] at this
    omega
  have hcreate : ∀ clst : BitVec 32, clst = 0#32 ∨ l.IsCluster clst →
      ∃ r vol', createChain drive s.vol.fuel s.vol clst = some (r, vol') ∧
        Created drive s.vol clst r vol' := by
    intro clst hc
    refine createChain_created h.ready (by rwa [h.layout]) (by rwa [h.layout]) ?_
      (Nat.lt_succ_self _)
    rwa [h.layout]
  cases a with
  | create =>
    obtain ⟨r, vol', hcall, hcreated⟩ := hcreate 0#32 (.inl rfl)
    change (createChain drive s.vol.fuel s.vol 0#32).map _ = some t at hstep
    rw [hcall] at hstep
    obtain rfl := Option.some.inj hstep
    have hkeep := (hcreated.consistent h htwo (.inl rfl)).1 rfl
    have hlayout := hkeep.layout
    -- A chain of one cluster is held from now on, if there was a cluster for it.
    change Consistent drive reliable l
      ↑(if vol'.fs.IsCluster r then insert r s.heads else s.heads) vol'
    rw [hlayout]
    split_ifs at hkeep ⊢
    · rwa [Finset.coe_insert]
    · exact hkeep
  | stretch clst =>
    change (if s.vol.fs.IsCluster clst then _ else none) = some t at hstep
    split_ifs at hstep with hc
    rw [h.layout] at hc
    obtain ⟨r, vol', hcall, hcreated⟩ := hcreate clst (.inr hc)
    rw [hcall] at hstep
    obtain rfl := Option.some.inj hstep
    refine (hcreated.consistent h htwo (.inr hc)).2 ?_
    rintro rfl
    exact absurd hc.1 (by decide)
  | remove head =>
    change (if head ∈ s.heads then _ else none) = some t at hstep
    split_ifs at hstep with hh
    obtain ⟨r, hcall, rfl⟩ := Option.map_eq_some_iff.mp hstep
    -- The chain is given up first, so that nothing points to what is freed.
    obtain ⟨hsound, hun⟩ := h.sound.disown (h := head) (Finset.mem_coe.mpr hh)
    change Consistent drive reliable l ↑(s.heads.erase head) r.2
    rw [Finset.coe_erase]
    exact removeChain_consistent ⟨h.layout, h.ready, hsound, h.counted⟩ hwhole
      (.inl ⟨rfl, hun⟩) hcall
  | truncate clst =>
    change (if s.vol.fs.IsCluster clst then _ else none) = some t at hstep
    split_ifs at hstep with hc
    obtain ⟨r, hcall, rfl⟩ := Option.map_eq_some_iff.mp hstep
    exact truncateAt_consistent h hwhole (by rwa [← h.layout]) hcall
  | move sect =>
    change (if sect.toNat < drive.size then _ else none) = some t at hstep
    split_ifs at hstep with hin
    obtain rfl := Option.some.inj hstep
    exact h.kept ((moveWindow_unchanged h.ready.toReady hin).kept h.ready)
  | sync =>
    obtain rfl := Option.some.inj hstep
    exact h.kept ((syncWindow_unchanged h.ready.toReady).kept h.ready)
  | edit win =>
    change (if s.vol.fs.winsect.toNat < drive.size ∧ _ then _ else none) = some t at hstep
    split_ifs at hstep with hin
    obtain rfl := Option.some.inj hstep
    exact h.edit hin.1 hin.2 win

/-- What is done to the chains of a volume leaves it consistent, whatever the drive reports as
failed on the way. The count can be relied on if it could at the start. -/
theorem exec_consistent (hstart : (volume drive).start s)
    (hrun : (volume drive).exec s as = some t) :
    Consistent drive (s.vol.Counted drive) s.vol.fs.toLayout t.heads t.vol := by
  obtain ⟨hready, hsound, huntorn, hsome⟩ := hstart
  exact Machine.exec_induction
    (P := fun t => Consistent drive (s.vol.Counted drive) s.vol.fs.toLayout t.heads t.vol)
    (fun _ a _ h hstep => step_consistent huntorn hsome a h hstep) ⟨rfl, hready, hsound, id⟩ hrun

/-- The chains of different files never share a cluster, and each of them comes to an end. -/
theorem files_disjoint (hstart : (volume drive).start s)
    (hrun : (volume drive).exec s as = some t) :
    (∀ g ∈ t.heads, ∀ h ∈ t.heads, ∀ c, OnChain (t.vol.cell drive) g c →
      OnChain (t.vol.cell drive) h c → g = h) ∧
    ∀ h ∈ t.heads, ∃ c, OnChain (t.vol.cell drive) h c ∧ t.vol.cell drive c = .last := by
  have hsound := (exec_consistent hstart hrun).sound
  exact ⟨fun g hg h hh c => hsound.head_unique (Finset.mem_coe.mpr hg) (Finset.mem_coe.mpr hh),
    fun h hh => hsound.exists_last (Finset.mem_coe.mpr hh)⟩

/-- Nothing is kept on a volume that is blank. -/
theorem sound_blank {vol : Volume δ} (hfree : ∀ c, vol.fs.IsCluster c → vol.entry drive c = 0#32) :
    Sound (vol.cell drive) ∅ := by
  have hlink : ∀ a c, vol.cell drive a ≠ .link c := by
    intro a c ha
    by_cases hc : vol.fs.IsCluster a
    · rw [Volume.cell, (Layout.cells_free_iff hc).mpr (hfree a hc)] at ha
      cases ha
    · unfold Volume.cell Layout.cells at ha
      rw [if_neg hc] at ha
      cases ha
  exact ⟨fun h => absurd h (hlink _ _), fun h => absurd h (hlink _ _),
    fun h => absurd h (Set.notMem_empty _), fun h => absurd h (Set.notMem_empty _)⟩

/-- Two files, one of which is stretched, cut and removed. -/
theorem files_disjoint_blank : ∃ t, (volume (usbDrive _ _)).exec ⟨blankVolume, ∅⟩
      [.create, .create, .stretch 2#32, .move 9#32, .truncate 2#32, .remove 3#32] = some t ∧
    (∀ g ∈ t.heads, ∀ h ∈ t.heads, ∀ c, OnChain (t.vol.cell (usbDrive _ _)) g c →
      OnChain (t.vol.cell (usbDrive _ _)) h c → g = h) ∧
    ∀ h ∈ t.heads, ∃ c, OnChain (t.vol.cell (usbDrive _ _)) h c ∧
      t.vol.cell (usbDrive _ _) c = .last := by
  obtain ⟨t, hrun⟩ : ∃ t, (volume (usbDrive _ _)).exec ⟨blankVolume, ∅⟩
      [.create, .create, .stretch 2#32, .move 9#32, .truncate 2#32, .remove 3#32] = some t :=
    Option.isSome_iff_exists.mp (by decide)
  refine ⟨t, hrun, files_disjoint ⟨blankVolume_fatReady, ?_,
    fun h => absurd h usbDrive_not_failing, by decide⟩ hrun⟩
  rw [Finset.coe_empty]
  exact sound_blank fun c _ => entry_blank _ rfl c

/-- When `create_chain` says that the volume is full, no cluster is free, if the count of them was
not too low at the start. -/
theorem full_of_returns_zero (hstart : (volume drive).start s) (hcounts : s.vol.Counted drive)
    (hrun : (volume drive).exec s as = some t) (hc : clst = 0#32 ∨ t.vol.fs.IsCluster clst)
    (hfull : createChain drive t.vol.fuel t.vol clst = some (0#32, vol')) :
    ∀ d, t.vol.fs.IsCluster d → t.vol.entry drive d ≠ 0#32 := by
  have h := exec_consistent hstart hrun
  have hlayout := h.layout
  obtain ⟨r, vol₁, hcall, hcreated⟩ := createChain_created h.ready
    (by rw [hlayout]; exact hstart.2.2.1) (by rw [hlayout]; exact hstart.2.2.2) hc
    (Nat.lt_succ_self _)
  obtain ⟨hr, rfl⟩ : r = 0#32 ∧ vol₁ = vol' := by simpa using hcall.symm.trans hfull
  have hzero : ∀ {c}, t.vol.fs.IsCluster c → c ≠ 0#32 := by
    rintro c hcluster rfl
    exact absurd hcluster.1 (by decide)
  cases hcreated with
  | new hfirst => exact absurd hr (hzero hfirst.1)
  | linked _ hlinked => exact absurd hr (hzero hlinked)
  | full _ hnone =>
    rcases hnone with h₀ | hnone
    swap
    · exact hnone
    -- The count is zero, so no more than zero clusters are free.
    intro d hd hfree
    have hcounted := h.counted hcounts (by rw [h₀]; exact Nat.zero_le _)
    rw [h₀] at hcounted
    have hnot : d ∉ ({c | t.vol.cell drive c = .free} : Set (BitVec 32)) := by
      have hempty := (Set.ncard_eq_zero (Set.toFinite _)).mp (Nat.le_zero.mp hcounted)
      rw [hempty]
      exact Set.notMem_empty d
    exact hnot ((Layout.cells_free_iff hd).mpr hfree)
  | damaged => cases hr
  | unread => cases hr
  | unlinked => cases hr

/-- A volume with a single cluster. -/
def tinyVolume : Volume (UsbDrive (Fifo.bounded BlkReq 0) (Fifo.bounded Answer 0)) :=
  { blankVolume with fs := { blankVolume.fs with nFatent := 3#32, freeClst := 1#32 } }

/-- The cluster is in use, and there is no other one. -/
theorem full_of_returns_zero_tiny : ∃ t vol',
    (volume (usbDrive _ _)).exec ⟨tinyVolume, ∅⟩ [.create] = some t ∧
    createChain (usbDrive _ _) t.vol.fuel t.vol 0#32 = some (0#32, vol') ∧
    ∀ d, t.vol.fs.IsCluster d → t.vol.entry (usbDrive _ _) d ≠ 0#32 := by
  obtain ⟨t, hrun⟩ : ∃ t, (volume (usbDrive _ _)).exec ⟨tinyVolume, ∅⟩ [.create] = some t :=
    Option.isSome_iff_exists.mp (by decide)
  have hstart : (volume (usbDrive _ _)).start ⟨tinyVolume, ∅⟩ := by
    refine ⟨⟨⟨⟨.inr rfl, by decide⟩, fun hne => absurd rfl hne, nofun⟩, by decide, by decide⟩, ?_,
      fun h => absurd h usbDrive_not_failing, by decide⟩
    rw [Finset.coe_empty]
    exact sound_blank fun c _ => entry_blank _ rfl c
  have hcounts : tinyVolume.Counted (usbDrive _ _) := fun _ => Layout.freeCount_cells_le _ _
  obtain ⟨vol', hfull⟩ : ∃ vol', createChain (usbDrive _ _) t.vol.fuel t.vol 0#32 =
      some (0#32, vol') := by
    obtain rfl := Option.some.inj hrun
    exact ⟨_, rfl⟩
  exact ⟨t, vol', hrun, hfull, full_of_returns_zero hstart hcounts hrun (.inl rfl) hfull⟩

end Runs

end

end Sel4Xhci.Fat
