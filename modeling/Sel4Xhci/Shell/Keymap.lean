import Sel4Xhci.Semantics.Marked
import Sel4Xhci.Semantics.CString

/-!
# Keysyms of a key

A keymap is a flat table of groups: the marker of a key, and its keysyms. `handle_keypress`
looks for the marker in two tables at once and takes the entry that is as far ahead of it as
the modifier byte says.

## Main definitions

* `keysymOf` — the code
* `Keytable` — a table of groups
* `StaysInGroup` — what the code ought to find
* `Inside`, `Silent` — the lookups that find it
* `Keytables.SameShape` — tables with the same groups, whatever their keysyms are

## Main results

* `keysymOf_eq` — where a lookup starts
* `lookup_stays` — which lookups stay in the group of the key. Others may end at an equal keysym
  elsewhere, but not in all tables of the same shape.
-/

set_option autoImplicit false

namespace Sel4Xhci.Shell

open Semantics Semantics.CString Semantics.Marked

/-- `keysym_t`. -/
abbrev Keysym := BitVec 16

/-- `LAYOUT`. -/
inductive Layout
  | uk
  | us
  deriving DecidableEq, Repr

/-- `KC`: the marker of a key. -/
def KC (code : Byte) : Keysym := code.setWidth 16 ||| 0xe000#16

/-- `KS_space`. -/
abbrev KS_space : Keysym := 0x20#16

/-- `KS_z`. -/
abbrev KS_z : Keysym := 0x7a#16

/-- The keysym is entered in the line. -/
def Printable (keypress : Keysym) : Prop := KS_space ≤ keypress ∧ keypress ≤ KS_z

instance (keypress : Keysym) : Decidable (Printable keypress) :=
  inferInstanceAs (Decidable (_ ∧ _))

/-! ## The lookup -/

/-- How far ahead of the marker the keysym is taken from: `lowercaseAdd + shiftOrControl`. -/
def ahead (shiftOrControl : Byte) : ℕ :=
  (if shiftOrControl = 0#8 then 1 else 0) + shiftOrControl.toNat

section Lookup

variable (uk us : ℕ → Keysym) (layout : Layout) (keyPressed : Byte) (offset : ℕ)

/-- The `switch` at index `i`: the case of the UK table goes on to that of the US table. -/
def searchRound (i : ℕ) : Option Keysym :=
  match layout with
  | .uk =>
    if uk i = KC keyPressed then some (uk (i + offset))
    else if us i = KC keyPressed then some (us (i + offset))
    else none
  | .us => if us i = KC keyPressed then some (us (i + offset)) else none

/-- The search from index `i` on, with so many rounds to go: `index` and `keypress`. -/
def searchLoop : ℕ → ℕ → ℕ → Keysym → ℕ × Keysym
  | 0, _, index, keypress => (index, keypress)
  | rounds + 1, i, index, keypress =>
    let (index, keypress) :=
      match searchRound uk us layout keyPressed offset i with
      | some keysym => (i, keysym)
      | none => (index, keypress)
    if 0 < index then (index, keypress) else searchLoop rounds (i + 1) index keypress

/-- The number of entries that are searched. -/
abbrev SEARCHED : ℕ := 304

/-- `keypress` for a key and the modifier byte of the report. -/
def keysymOf (shiftOrControl : Byte) : Keysym :=
  -- `keypress` is not initialised, and not used unless it is set.
  let (index, keypress) :=
    searchLoop uk us layout keyPressed (ahead shiftOrControl) SEARCHED 0 0 0#16
  if index = 0 then us (index + ahead shiftOrControl) else keypress

/-! ## Where a lookup starts -/

/-- The table whose marker is found at an index. -/
def markedAt (i : ℕ) : Option Layout :=
  if layout = .uk ∧ uk i = KC keyPressed then some .uk
  else if us i = KC keyPressed then some .us
  else none

/-- One of the two tables. -/
def tableOf : Layout → ℕ → Keysym
  | .uk => uk
  | .us => us

/-- A lookup starts at the first marker of the key. Index 0 is not looked at, but it is where a
lookup starts that finds no marker. -/
inductive StartsAt : Layout → ℕ → Prop
  | found {table : Layout} {i : ℕ} (hpos : 0 < i) (hi : i < SEARCHED)
      (hmarked : markedAt uk us layout keyPressed i = some table)
      (hfirst : ∀ j, 0 < j → j < i → markedAt uk us layout keyPressed j = none) : StartsAt table i
  | notFound (hnone : ∀ j, 0 < j → j < SEARCHED → markedAt uk us layout keyPressed j = none) :
      StartsAt .us 0

end Lookup

section Search

variable (uk us : ℕ → Keysym) (layout : Layout) (keyPressed : Byte)

theorem searchRound_eq (offset i : ℕ) : searchRound uk us layout keyPressed offset i =
    (markedAt uk us layout keyPressed i).map fun table => tableOf uk us table (i + offset) := by
  cases layout with
  | uk =>
    simp only [searchRound, markedAt, true_and]
    split_ifs <;> rfl
  | us =>
    simp only [searchRound, markedAt, reduceCtorEq, false_and, if_false]
    split_ifs <;> rfl

/-- The search ends at the first marker behind index 0, or has found none there. -/
theorem searchLoop_spec (offset rounds i : ℕ) (keypress : Keysym) :
    (∃ j table, i ≤ j ∧ j < i + rounds ∧ 0 < j ∧
      markedAt uk us layout keyPressed j = some table ∧
      (∀ k, i ≤ k → 0 < k → k < j → markedAt uk us layout keyPressed k = none) ∧
      searchLoop uk us layout keyPressed offset rounds i 0 keypress =
        (j, tableOf uk us table (j + offset))) ∨
    (∀ k, i ≤ k → 0 < k → k < i + rounds → markedAt uk us layout keyPressed k = none) ∧
      (searchLoop uk us layout keyPressed offset rounds i 0 keypress).1 = 0 := by
  -- The induction keeps `index` at 0: the loop ends when it is set.
  induction rounds generalizing i keypress with
  | zero => exact .inr ⟨fun k hik _ hki => by omega, rfl⟩
  | succ rounds ih =>
    by_cases hstop : 0 < i ∧ markedAt uk us layout keyPressed i ≠ none
    · obtain ⟨hpos, hsome⟩ := hstop
      obtain ⟨table, hmarked⟩ := Option.ne_none_iff_exists'.mp hsome
      refine .inl ⟨i, table, le_rfl, by omega, hpos, hmarked, fun k hik _ hki => by omega, ?_⟩
      simp [searchLoop, searchRound_eq, hmarked, hpos]
    · -- Nothing is found here, or at index 0; the search goes on.
      have hpass : 0 < i → markedAt uk us layout keyPressed i = none := fun hpos => by
        by_contra hsome
        exact hstop ⟨hpos, hsome⟩
      obtain ⟨keypress', hround⟩ : ∃ keypress',
          searchLoop uk us layout keyPressed offset (rounds + 1) i 0 keypress =
            searchLoop uk us layout keyPressed offset rounds (i + 1) 0 keypress' := by
        cases hmarked : markedAt uk us layout keyPressed i with
        | none => exact ⟨keypress, by simp [searchLoop, searchRound_eq, hmarked]⟩
        | some table =>
          obtain rfl : i = 0 := by
            by_contra hne
            rw [hpass (Nat.pos_of_ne_zero hne)] at hmarked
            cases hmarked
          exact ⟨tableOf uk us table (0 + offset), by simp [searchLoop, searchRound_eq, hmarked]⟩
      have hthis : ∀ k, i ≤ k → 0 < k → ¬ i + 1 ≤ k →
          markedAt uk us layout keyPressed k = none := by
        intro k hik hk hki
        obtain rfl : k = i := by omega
        exact hpass hk
      rw [hround]
      rcases ih (i + 1) keypress' with
        ⟨j, table, hij, hj, hpos, htable, hfirst, hrun⟩ | ⟨hnone, hrun⟩
      · refine .inl ⟨j, table, by omega, by omega, hpos, htable, fun k hik hk hkj => ?_, hrun⟩
        by_cases hki : i + 1 ≤ k
        · exact hfirst k hki hk hkj
        · exact hthis k hik hk hki
      · refine .inr ⟨fun k hik hk hlt => ?_, hrun⟩
        by_cases hki : i + 1 ≤ k
        · exact hnone k hki hk (by omega)
        · exact hthis k hik hk hki

/-- The keysym is the entry that is so far ahead of where the lookup starts. -/
theorem keysymOf_eq (shiftOrControl : Byte) :
    ∃ table i, StartsAt uk us layout keyPressed table i ∧
      keysymOf uk us layout keyPressed shiftOrControl =
        tableOf uk us table (i + ahead shiftOrControl) := by
  have hspec := searchLoop_spec uk us layout keyPressed (ahead shiftOrControl) SEARCHED 0 0#16
  simp only [Nat.zero_add] at hspec
  unfold keysymOf
  rcases hspec with ⟨j, table, -, hj, hpos, hmarked, hfirst, hrun⟩ | ⟨hnone, hrun⟩
  · refine ⟨table, j, .found hpos hj hmarked fun k hk hkj => hfirst k (by omega) hk hkj, ?_⟩
    rw [hrun]
    exact if_neg hpos.ne'
  · refine ⟨.us, 0, .notFound fun k hk hlt => hnone k (by omega) hk hlt, ?_⟩
    dsimp only
    rw [if_pos hrun, hrun]
    rfl

variable {uk us layout keyPressed}

/-- A lookup starts at one place. -/
theorem StartsAt.unique {table table' : Layout} {i i' : ℕ}
    (h : StartsAt uk us layout keyPressed table i)
    (h' : StartsAt uk us layout keyPressed table' i') : table = table' ∧ i = i' := by
  cases h with
  | found hpos hi hmarked hfirst =>
    cases h' with
    | found hpos' hi' hmarked' hfirst' =>
      rcases lt_trichotomy i i' with hlt | rfl | hlt
      · rw [hfirst' i hpos hlt] at hmarked
        cases hmarked
      · exact ⟨Option.some.inj (hmarked.symm.trans hmarked'), rfl⟩
      · rw [hfirst i' hpos' hlt] at hmarked'
        cases hmarked'
    | notFound hnone =>
      rw [hnone i hpos hi] at hmarked
      cases hmarked
  | notFound hnone =>
    cases h' with
    | found hpos' hi' hmarked' _ =>
      rw [hnone i' hpos' hi'] at hmarked'
      cases hmarked'
    | notFound _ => exact ⟨rfl, rfl⟩

end Search

/-! ## Tables of groups -/

/-- A table of groups, as long as it is searched at least, and the memory behind it. -/
structure Keytable where
  groups : List (Group KC)
  beyond : ℕ → Keysym
  long : SEARCHED ≤ (entries groups).length

/-- What is found at an index of a table. -/
def Keytable.entry (t : Keytable) (i : ℕ) : Keysym := (entries t.groups)[i]?.getD (t.beyond i)

/-- The key has a group. -/
def Keytable.Has (t : Keytable) (code : Byte) : Prop := ∃ g ∈ t.groups, g.key = code

instance (t : Keytable) (code : Byte) : Decidable (t.Has code) :=
  inferInstanceAs (Decidable (∃ g ∈ t.groups, g.key = code))

/-- The two tables. -/
structure Keytables where
  uk : Keytable
  us : Keytable

/-- One of them. -/
def Keytables.table (t : Keytables) : Layout → Keytable
  | .uk => t.uk
  | .us => t.us

section Tables

variable (t : Keytables) (layout : Layout) (code : Byte)

/-- The table that a key is to be looked up in: that of the layout, and the US table for a key
that the UK table lacks. -/
def ownLayout : Layout := if layout = .uk ∧ t.uk.Has code then .uk else .us

/-- The groups of the key in this table. -/
def ownGroups : List (Group KC) := (t.table (ownLayout t layout code)).groups.filter (·.key = code)

/-- What ought to be found for a key: a keysym of its own group, and no character if it has
none. -/
structure StaysInGroup (keypress : Keysym) : Prop where
  own : ownGroups t layout code ≠ [] → ∃ g ∈ ownGroups t layout code, keypress ∈ g.values
  silent : ownGroups t layout code = [] → ¬ Printable keypress

/-- Where the lookup of a key starts. -/
abbrev LookupStarts (table : Layout) (i : ℕ) : Prop :=
  StartsAt t.uk.entry t.us.entry layout code table i

/-- The lookup starts at a group of the key in the table it is to be looked up in, and goes no
further ahead than the group has keysyms. -/
def Inside (offset : ℕ) : Prop :=
  ∃ before g after, (t.table (ownLayout t layout code)).groups = before ++ g :: after ∧
    g.key = code ∧ LookupStarts t layout code (ownLayout t layout code) (entries before).length ∧
    offset ≤ g.values.length

/-- The key has no group, and the entry that is so far ahead in the US table is not a
character. -/
def Silent (offset : ℕ) : Prop :=
  ownGroups t layout code = [] ∧ ¬ Printable (t.us.entry offset)

end Tables

section Groups

variable {t : Keytables} {layout : Layout} {code : Byte}

theorem KC_injective : Function.Injective KC := by
  intro c c' h
  have hlow : ∀ c : Byte, (KC c).setWidth 8 = c := fun c => by simp [KC, BitVec.setWidth_or]
  rw [← hlow c, h, hlow]

/-- What is searched lies in the table. -/
theorem Keytable.entry_eq_KC_iff {t : Keytable} {i : ℕ} (hi : i < SEARCHED) :
    t.entry i = KC code ↔ (entries t.groups)[i]? = some (KC code) := by
  rw [Keytable.entry, List.getElem?_eq_getElem (hi.trans_le t.long)]
  exact Option.some_inj.symm

/-- A marker within the part that is searched belongs to a group. -/
theorem Keytable.has_of_entry {t : Keytable} {i : ℕ} (hi : i < SEARCHED) (h : t.entry i = KC code) :
    t.Has code := by
  obtain ⟨before, g, after, hgroups, hkey, -⟩ :=
    (entry_eq_mark_iff KC_injective).mp ((Keytable.entry_eq_KC_iff hi).mp h)
  exact ⟨g, by rw [hgroups]; simp, hkey⟩

theorem ownGroups_eq_nil_iff :
    ownGroups t layout code = [] ↔ ¬ (t.table (ownLayout t layout code)).Has code := by
  simp [ownGroups, Keytable.Has, List.filter_eq_nil_iff]

/-- The lookup of a key without groups starts at the head of the US table. -/
theorem startsAt_of_ownGroups_eq_nil (h : ownGroups t layout code = []) :
    LookupStarts t layout code .us 0 := by
  rw [ownGroups_eq_nil_iff] at h
  have hsilent : ¬ (layout = .uk ∧ t.uk.Has code) ∧ ¬ t.us.Has code := by
    unfold ownLayout at h
    split_ifs at h with hown
    · exact absurd hown.2 h
    · exact ⟨hown, h⟩
  refine .notFound fun j _ hj => ?_
  unfold markedAt
  rw [if_neg fun hmarked => hsilent.1 ⟨hmarked.1, Keytable.has_of_entry hj hmarked.2⟩,
    if_neg fun hmarked => hsilent.2 (Keytable.has_of_entry hj hmarked)]

theorem tableOf_entry (table : Layout) (i : ℕ) :
    tableOf t.uk.entry t.us.entry table i = (t.table table).entry i := by
  cases table <;> rfl

theorem ahead_pos (shiftOrControl : Byte) : 0 < ahead shiftOrControl := by
  unfold ahead
  split_ifs with h
  · omega
  · have hne : shiftOrControl.toNat ≠ 0 := fun hzero => h (BitVec.eq_of_toNat_eq hzero)
    omega

theorem ahead_lt (shiftOrControl : Byte) : ahead shiftOrControl < SEARCHED := by
  have hlt := shiftOrControl.isLt
  unfold ahead SEARCHED
  split_ifs <;> omega

/-- A lookup that stays inside ends at a keysym of the group. -/
theorem Inside.entry_mem {offset : ℕ} (hpos : 0 < offset) (h : Inside t layout code offset) :
    ∃ i, LookupStarts t layout code (ownLayout t layout code) i ∧
      ∃ g ∈ ownGroups t layout code,
        (t.table (ownLayout t layout code)).entry (i + offset) ∈ g.values := by
  obtain ⟨before, g, after, hgroups, hkey, hstart, hoffset⟩ := h
  obtain ⟨v, hv, hentry⟩ := entry_inside before after hpos hoffset
  refine ⟨_, hstart, g, ?_, ?_⟩
  · rw [ownGroups, hgroups]
    simp [hkey]
  · rw [Keytable.entry, hgroups, hentry]
    exact hv

end Groups

theorem ne_KC_of_msb {keysym : Keysym} (h : keysym.msb = false) (code : Byte) :
    keysym ≠ KC code := by
  rintro rfl
  rw [KC, BitVec.msb_or, Bool.or_eq_false_iff] at h
  exact absurd h.2 (by decide)

/-! ## Tables of the same shape -/

/-- The tables have the same groups, with as many keysyms. -/
def Keytables.SameShape (t t' : Keytables) : Prop :=
  ∀ table, Marked.SameShape (t.table table).groups (t'.table table).groups

theorem Keytables.SameShape.symm {t t' : Keytables} (h : t.SameShape t') : t'.SameShape t :=
  fun table => (h table).symm

section Shape

variable {t t' : Keytables} {layout : Layout} {code : Byte}

theorem Keytables.SameShape.has_iff (h : t.SameShape t') (table : Layout) :
    (t.table table).Has code ↔ (t'.table table).Has code := by
  have hmp : ∀ {t t' : Keytables}, t.SameShape t' → (t.table table).Has code →
      (t'.table table).Has code := by
    rintro t t' h ⟨g, hg, hkey⟩
    obtain ⟨before, after, hgroups⟩ := List.append_of_mem hg
    obtain ⟨before', g', after', hgroups', -, hkey', -⟩ := (h table).split hgroups
    exact ⟨g', by rw [hgroups']; simp, hkey'.symm.trans hkey⟩
  exact ⟨hmp h, hmp h.symm⟩

theorem Keytables.SameShape.ownLayout_eq (h : t.SameShape t') :
    ownLayout t layout code = ownLayout t' layout code := by
  have huk : t.uk.Has code ↔ t'.uk.Has code := h.has_iff .uk
  simp only [ownLayout, huk]

theorem Keytables.SameShape.markedAt_eq (h : t.SameShape t') {i : ℕ} (hi : i < SEARCHED) :
    markedAt t.uk.entry t.us.entry layout code i =
      markedAt t'.uk.entry t'.us.entry layout code i := by
  have hentry : ∀ table, (t.table table).entry i = KC code ↔ (t'.table table).entry i = KC code :=
    fun table => by
      rw [Keytable.entry_eq_KC_iff hi, Keytable.entry_eq_KC_iff hi,
        (h table).mark_iff KC_injective]
  have huk : t.uk.entry i = KC code ↔ t'.uk.entry i = KC code := hentry .uk
  have hus : t.us.entry i = KC code ↔ t'.us.entry i = KC code := hentry .us
  simp only [markedAt, huk, hus]

/-- The shape says where a lookup starts. -/
theorem Keytables.SameShape.lookupStarts (h : t.SameShape t') {table : Layout} {i : ℕ}
    (hstart : LookupStarts t layout code table i) : LookupStarts t' layout code table i := by
  cases hstart with
  | found hpos hi hmarked hfirst =>
    refine .found hpos hi (by rwa [← h.markedAt_eq hi]) fun j hj hji => ?_
    rw [← h.markedAt_eq (hji.trans hi)]
    exact hfirst j hj hji
  | notFound hnone =>
    refine .notFound fun j hj hlt => ?_
    rw [← h.markedAt_eq hlt]
    exact hnone j hj hlt

/-- The shape says which lookups are inside. -/
theorem Keytables.SameShape.inside {offset : ℕ} (h : t.SameShape t')
    (hin : Inside t layout code offset) : Inside t' layout code offset := by
  obtain ⟨before, g, after, hgroups, hkey, hstart, hoffset⟩ := hin
  obtain ⟨before', g', after', hgroups', hbefore, hkey', hlength⟩ := (h _).split hgroups
  rw [h.ownLayout_eq] at hgroups' hstart
  refine ⟨before', g', after', hgroups', hkey'.symm.trans hkey, ?_, hoffset.trans_eq hlength⟩
  rw [← hbefore.length]
  exact h.lookupStarts hstart

end Shape

/-! ## Dyed tables -/

section Dyed

variable (t : Keytables) (layout own : Layout) (code : Byte)

/-- One keysym for the groups of the key in its own table, and another one everywhere else. -/
def dye (table : Layout) (key : Byte) : Keysym := if table = own ∧ key = code then 0#16 else 1#16

theorem dye_ne_KC (table : Layout) (key key' : Byte) : dye own code table key ≠ KC key' := by
  refine ne_KC_of_msb ?_ key'
  unfold dye
  split_ifs <;> rfl

theorem dyed_long (table : Layout) : SEARCHED ≤ (entries ((t.table table).groups.map
    (Group.filled (dye own code table) (dye_ne_KC own code table)))).length :=
  (t.table table).long.trans_eq (sameShape_filled _ _ _).length

/-- The table with these keysyms. -/
def dyedTable (table : Layout) : Keytable where
  groups := (t.table table).groups.map
    (Group.filled (dye own code table) (dye_ne_KC own code table))
  beyond := fun _ => 1#16
  long := dyed_long t own code table

/-- Both tables with these keysyms. -/
def dyed : Keytables := ⟨dyedTable t own code .uk, dyedTable t own code .us⟩

theorem dyed_table (table : Layout) :
    (dyed t own code).table table = dyedTable t own code table := by
  cases table <;> rfl

theorem sameShape_dyed : t.SameShape (dyed t own code) := by
  intro table
  rw [dyed_table]
  exact sameShape_filled _ _ _

variable {t layout own code}

/-- The keysym of the key is found only within a group of the key in its own table. -/
theorem within_of_dyed {table : Layout} {n : ℕ} (h : (dyedTable t own code table).entry n = 0#16) :
    table = own ∧ ∃ before g after, (t.table table).groups = before ++ g :: after ∧ g.key = code ∧
      (entries before).length < n ∧ n ≤ (entries before).length + g.values.length := by
  cases hentry : (entries (dyedTable t own code table).groups)[n]? with
  | none =>
    rw [Keytable.entry, hentry] at h
    exact absurd h (by decide : (1#16 : Keysym) ≠ 0#16)
  | some v =>
    obtain rfl : v = 0#16 := by
      rw [Keytable.entry, hentry] at h
      exact h
    obtain ⟨before', g', after', hgroups', ⟨hmark, -⟩ | ⟨hmem, hlow, hhigh⟩⟩ := entry_cases hentry
    · exact absurd hmark (ne_KC_of_msb rfl _)
    · obtain ⟨before, tail, hgroups, rfl, htail⟩ := List.map_eq_append_iff.mp hgroups'
      obtain ⟨g, after, rfl, rfl, -⟩ := List.map_eq_cons_iff.mp htail
      have hdye : dye own code table g.key = 0#16 := (List.eq_of_mem_replicate hmem).symm
      obtain ⟨htable, hkey⟩ : table = own ∧ g.key = code := by
        by_contra hother
        rw [dye, if_neg hother] at hdye
        exact absurd hdye (by decide)
      have hbefore :=
        (sameShape_filled (dye own code table) (dye_ne_KC own code table) before).length
      have hlength : (g.filled (dye own code table) (dye_ne_KC own code table)).values.length =
          g.values.length := List.length_replicate
      exact ⟨htable, before, g, after, hgroups, hkey, by omega, by omega⟩

theorem entry_of_markedAt {table : Layout} {i : ℕ}
    (h : markedAt t.uk.entry t.us.entry layout code i = some table) :
    (t.table table).entry i = KC code := by
  unfold markedAt at h
  split_ifs at h with huk hus <;> obtain rfl := Option.some.inj h
  · exact huk.2
  · exact hus

/-- A lookup that starts in the own table of a key with one group there starts at this group,
unless it goes beyond all that is searched. -/
theorem starts_of_one_group {i : ℕ} {before after : List (Group KC)} {g : Group KC}
    (hone : (ownGroups t layout code).length = 1)
    (hgroups : (t.table (ownLayout t layout code)).groups = before ++ g :: after)
    (hkey : g.key = code) (hlow : (entries before).length < i + SEARCHED)
    (hstart : LookupStarts t layout code (ownLayout t layout code) i) :
    i = (entries before).length := by
  have hentry : (entries (t.table (ownLayout t layout code)).groups)[(entries before).length]? =
      some (KC code) := (entry_eq_mark_iff KC_injective).mpr ⟨before, g, after, hgroups, hkey, rfl⟩
  rw [ownGroups] at hone
  generalize ownLayout t layout code = own at *
  rw [← hkey] at hone
  cases hstart with
  | found _ hi hmarked _ =>
    obtain ⟨before', g', after', hgroups', hkey', rfl⟩ := (entry_eq_mark_iff KC_injective).mp
      ((Keytable.entry_eq_KC_iff hi).mp (entry_of_markedAt hmarked))
    rw [split_unique hone hgroups hgroups' (hkey'.trans hkey.symm)]
  | notFound hnone =>
    -- The US table has a marker of the key, and not at one of the indices that are looked at.
    rw [Nat.zero_add] at hlow
    by_contra hne
    have hus : t.us.entry (entries before).length = KC code :=
      (Keytable.entry_eq_KC_iff hlow).mpr hentry
    have hmarked := hnone _ (Nat.pos_of_ne_zero (Ne.symm hne)) hlow
    rw [markedAt, if_pos hus] at hmarked
    split_ifs at hmarked

end Dyed

/-! ## What a lookup finds -/

section Stays

variable (t : Keytables) (layout : Layout) (keyPressed shiftOrControl : Byte)

/-- The keysym that is found is one of the own group, or no character for a key without one. -/
def LookupStays : Prop :=
  StaysInGroup t layout keyPressed
    (keysymOf t.uk.entry t.us.entry layout keyPressed shiftOrControl)

variable {t layout keyPressed shiftOrControl}

theorem LookupStays.of_inside (h : Inside t layout keyPressed (ahead shiftOrControl)) :
    LookupStays t layout keyPressed shiftOrControl := by
  obtain ⟨table, i, hstart, hkeysym⟩ :=
    keysymOf_eq t.uk.entry t.us.entry layout keyPressed shiftOrControl
  obtain ⟨i', hstart', g, hg, hmem⟩ := h.entry_mem (ahead_pos _)
  obtain ⟨rfl, rfl⟩ := hstart.unique hstart'
  rw [LookupStays, hkeysym, tableOf_entry]
  refine ⟨fun _ => ⟨g, hg, hmem⟩, fun hnil => ?_⟩
  rw [hnil] at hg
  cases hg

/-- Without a group of its own, the key has to be silent. -/
theorem lookupStays_iff_silent (hnone : ownGroups t layout keyPressed = []) :
    LookupStays t layout keyPressed shiftOrControl ↔
      Silent t layout keyPressed (ahead shiftOrControl) := by
  obtain ⟨table, i, hstart, hkeysym⟩ :=
    keysymOf_eq t.uk.entry t.us.entry layout keyPressed shiftOrControl
  obtain ⟨rfl, rfl⟩ := hstart.unique (startsAt_of_ownGroups_eq_nil hnone)
  rw [LookupStays, hkeysym, tableOf_entry, Nat.zero_add]
  constructor
  · exact fun h => ⟨hnone, h.silent hnone⟩
  · exact fun h => ⟨fun hne => absurd hnone hne, fun _ => h.2⟩

/-- What is found in the dyed tables tells whether the lookup is inside. -/
theorem inside_of_dyed (hone : (ownGroups t layout keyPressed).length = 1)
    (h : LookupStays (dyed t (ownLayout t layout keyPressed) keyPressed) layout keyPressed
      shiftOrControl) :
    Inside t layout keyPressed (ahead shiftOrControl) := by
  have hshape := sameShape_dyed t (ownLayout t layout keyPressed) keyPressed
  obtain ⟨table, i, hstart, hkeysym⟩ := keysymOf_eq
    (dyed t (ownLayout t layout keyPressed) keyPressed).uk.entry
    (dyed t (ownLayout t layout keyPressed) keyPressed).us.entry layout keyPressed shiftOrControl
  rw [LookupStays, hkeysym, tableOf_entry] at h
  have hne : ownGroups (dyed t (ownLayout t layout keyPressed) keyPressed) layout keyPressed ≠ [] :=
    fun hnil => by
      rw [ownGroups_eq_nil_iff, ← hshape.ownLayout_eq, ← hshape.has_iff,
        ← ownGroups_eq_nil_iff] at hnil
      rw [hnil] at hone
      cases hone
  -- What is found is in a group of the key, and hence the keysym of its groups.
  obtain ⟨g', hg', hmem⟩ := h.own hne
  rw [ownGroups, ← hshape.ownLayout_eq, dyed_table] at hg'
  obtain ⟨hg', hkey'⟩ := List.mem_filter.mp hg'
  obtain ⟨g₀, -, rfl⟩ := List.mem_map.mp hg'
  have hvalue := List.eq_of_mem_replicate hmem
  rw [dye, if_pos ⟨rfl, of_decide_eq_true hkey'⟩, dyed_table] at hvalue
  obtain ⟨rfl, before, g, after, hgroups, hkey, hlow, hhigh⟩ := within_of_dyed hvalue
  have hahead := ahead_lt shiftOrControl
  obtain rfl := starts_of_one_group hone hgroups hkey (by omega) (hshape.symm.lookupStarts hstart)
  exact ⟨before, g, after, hgroups, hkey, hshape.symm.lookupStarts hstart, by omega⟩

end Stays

/-- A lookup stays in the group of the key if it starts at this group and goes no further than
to its end. For a key without groups it stays exactly if the entry it ends at is not a character.
For a key with one group, a lookup that does not end inside of this group does not stay there in
all tables of the same shape. -/
theorem lookup_stays (t : Keytables) (layout : Layout) (keyPressed shiftOrControl : Byte) :
    (Inside t layout keyPressed (ahead shiftOrControl) ∨
        Silent t layout keyPressed (ahead shiftOrControl) →
      LookupStays t layout keyPressed shiftOrControl) ∧
    (ownGroups t layout keyPressed = [] →
      (LookupStays t layout keyPressed shiftOrControl ↔
        Silent t layout keyPressed (ahead shiftOrControl))) ∧
    ((ownGroups t layout keyPressed).length = 1 →
      ((∀ t', t.SameShape t' → LookupStays t' layout keyPressed shiftOrControl) ↔
        Inside t layout keyPressed (ahead shiftOrControl))) := by
  refine ⟨?_, lookupStays_iff_silent, fun hone => ⟨fun h => ?_, fun h t' ht => ?_⟩⟩
  · rintro (h | h)
    · exact .of_inside h
    · exact (lookupStays_iff_silent h.1).mpr h
  · exact inside_of_dyed hone (h _ (sameShape_dyed t _ _))
  · exact .of_inside (ht.inside h)

/-- A group of two keysyms in the lower half. -/
def letterGroup (code : Byte) (lower upper : Keysym) (hlower : lower.msb = false)
    (hupper : upper.msb = false) : Group KC where
  key := code
  values := [lower, upper]
  unmarked := by
    intro keysym hkeysym
    simp only [List.mem_cons, List.not_mem_nil, or_false] at hkeysym
    rcases hkeysym with rfl | rfl
    · exact ne_KC_of_msb hlower
    · exact ne_KC_of_msb hupper

/-- A group that holds one keysym many times. -/
def longGroup (code : Byte) (n : ℕ) (keysym : Keysym) (h : keysym.msb = false) : Group KC where
  key := code
  values := List.replicate n keysym
  unmarked := by
    intro _ hmem
    rw [List.eq_of_mem_replicate hmem]
    exact ne_KC_of_msb h

/-- A table with the groups of a, b and c, the last one long. -/
def letters : Keytable where
  groups := [letterGroup 4#8 0x61#16 0x41#16 rfl rfl, letterGroup 5#8 0x62#16 0x42#16 rfl rfl,
    longGroup 6#8 SEARCHED 0x63#16 rfl]
  beyond := fun _ => 0#16
  long := by
    simp only [entries_cons, letterGroup, longGroup, List.length_cons, List.length_append,
      List.length_replicate]
    omega

/-- The key of b without modifiers gives a keysym of b. -/
theorem lookup_stays_letter : LookupStays ⟨letters, letters⟩ .us 5#8 0#8 := by
  have hstart : LookupStarts ⟨letters, letters⟩ .us 5#8 .us 3 := by
    refine .found (by decide) (by decide) (by decide +kernel) fun j hpos hj => ?_
    obtain rfl | rfl : j = 1 ∨ j = 2 := by omega
    · decide +kernel
    · decide +kernel
  exact (lookup_stays ⟨letters, letters⟩ .us 5#8 0#8).1
    (.inl ⟨[letterGroup 4#8 0x61#16 0x41#16 rfl rfl], _, _, rfl, rfl, hstart, by decide⟩)

/-- The right Shift key and b give the keysym of c. -/
theorem right_shift_leaves_group :
    let t : Keytables := ⟨letters, letters⟩
    keysymOf t.uk.entry t.us.entry .us 5#8 0x20#8 = 0x63#16 ∧
      ¬ StaysInGroup t .us 5#8 (keysymOf t.uk.entry t.us.entry .us 5#8 0x20#8) := by
  intro t
  have hkeysym : keysymOf t.uk.entry t.us.entry .us 5#8 0x20#8 = 0x63#16 := by decide +kernel
  have hown : ownGroups t .us 5#8 = [letterGroup 5#8 0x62#16 0x42#16 rfl rfl] := rfl
  refine ⟨hkeysym, fun h => ?_⟩
  rw [hkeysym] at h
  have hmem := h.own
  rw [hown] at hmem
  obtain ⟨g, hg, hvalue⟩ := hmem (List.cons_ne_nil _ _)
  rw [List.mem_singleton.mp hg] at hvalue
  exact absurd hvalue (by decide : 0x63#16 ∉ [0x62#16, 0x42#16])

end Sel4Xhci.Shell
