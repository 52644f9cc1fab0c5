import Mathlib.Data.List.Basic
import Mathlib.Logic.Function.Basic

/-!
# Lists of marked groups

A flat list may hold groups of values: each group starts with the marker of its key, and
nothing else in the list is a marker. The marker is what a search can find.

## Main definitions

* `Group` — a key, and values that are no markers
* `entries` — the flat list
* `SameShape` — the keys and the lengths of the groups are the same, whatever the values are
* `Group.filled` — a group of the same shape with one value throughout

## Main results

* `entry_cases` — an entry is the marker of a group, or one of its values
* `entry_eq_mark_iff` — a marker stands at the head of a group of its key, and nowhere else
* `entry_inside` — what follows the marker are the values of the group
* `SameShape.mark_iff` — the shape says where the markers are
-/

set_option autoImplicit false

namespace Sel4Xhci.Semantics.Marked

variable {κ α : Type*} {mark : κ → α}

/-- A key, and values that are no markers. -/
structure Group (mark : κ → α) where
  key : κ
  values : List α
  unmarked : ∀ v ∈ values, ∀ key, v ≠ mark key

/-- The marker of a group, and its values. -/
def Group.entries (g : Group mark) : List α := mark g.key :: g.values

/-- The groups of a table, one behind the other. -/
def entries (gs : List (Group mark)) : List α := gs.flatMap Group.entries

theorem entries_append (gs gs' : List (Group mark)) :
    entries (gs ++ gs') = entries gs ++ entries gs' := List.flatMap_append

theorem entries_cons (g : Group mark) (gs : List (Group mark)) :
    entries (g :: gs) = mark g.key :: (g.values ++ entries gs) := List.flatMap_cons

/-- The entries from a group on. -/
theorem entry_split (before : List (Group mark)) (g : Group mark) (after : List (Group mark))
    (n : ℕ) : (entries (before ++ g :: after))[(entries before).length + n]? =
      (mark g.key :: (g.values ++ entries after))[n]? := by
  rw [entries_append, entries_cons, List.getElem?_append_right (Nat.le_add_right _ _),
    Nat.add_sub_cancel_left]

/-- What follows the marker of a group are its values. -/
theorem entry_inside (before : List (Group mark)) {g : Group mark} (after : List (Group mark))
    {n : ℕ} (hpos : 0 < n) (hn : n ≤ g.values.length) :
    ∃ v ∈ g.values, (entries (before ++ g :: after))[(entries before).length + n]? = some v := by
  obtain ⟨m, rfl⟩ : ∃ m, n = m + 1 := ⟨n - 1, by omega⟩
  have hm : m < g.values.length := hn
  refine ⟨g.values[m], List.getElem_mem hm, ?_⟩
  rw [entry_split, List.getElem?_cons_succ, List.getElem?_append_left hm,
    List.getElem?_eq_getElem hm]

/-- An entry is the marker of a group, or one of its values. -/
theorem entry_cases {gs : List (Group mark)} {i : ℕ} {v : α} (h : (entries gs)[i]? = some v) :
    ∃ before g after, gs = before ++ g :: after ∧
      (v = mark g.key ∧ i = (entries before).length ∨
        v ∈ g.values ∧ (entries before).length < i ∧
          i ≤ (entries before).length + g.values.length) := by
  induction gs generalizing i with
  | nil => cases h
  | cons g gs ih =>
    rw [entries_cons] at h
    cases i with
    | zero => exact ⟨[], g, gs, rfl, .inl ⟨(Option.some.inj h).symm, rfl⟩⟩
    | succ i =>
      rw [List.getElem?_cons_succ] at h
      by_cases hi : i < g.values.length
      · rw [List.getElem?_append_left hi] at h
        refine ⟨[], g, gs, rfl, .inr ⟨List.mem_of_getElem? h, Nat.succ_pos i, ?_⟩⟩
        rw [entries, List.flatMap_nil, List.length_nil]
        omega
      · -- Behind the first group, the other groups are counted on from its end.
        rw [List.getElem?_append_right (by omega)] at h
        obtain ⟨before, g', after, rfl, hentry⟩ := ih h
        have hlength : (entries (g :: before)).length =
            g.values.length + 1 + (entries before).length := by
          rw [entries_cons, List.length_cons, List.length_append]
          omega
        refine ⟨g :: before, g', after, rfl, ?_⟩
        rw [hlength]
        rcases hentry with ⟨hv, hi'⟩ | ⟨hv, hlow, hhigh⟩
        · exact .inl ⟨hv, by omega⟩
        · exact .inr ⟨hv, by omega, by omega⟩

/-- A list with one group of the key is split at a group of the key in one way. -/
theorem split_unique [DecidableEq κ] {gs before before' after after' : List (Group mark)}
    {g g' : Group mark} (hone : (gs.filter (·.key = g.key)).length = 1)
    (h : gs = before ++ g :: after) (h' : gs = before' ++ g' :: after') (hkey : g'.key = g.key) :
    before = before' := by
  subst h
  rcases List.append_eq_append_iff.mp h' with ⟨between, rfl, htail⟩ | ⟨between, rfl, htail⟩
  · cases between with
    | nil => exact (List.append_nil before).symm
    | cons g₁ between =>
      obtain ⟨-, rfl⟩ := List.cons.inj htail
      simp [hkey] at hone
      omega
  · cases between with
    | nil => exact List.append_nil before'
    | cons g₁ between =>
      obtain ⟨rfl, -⟩ := List.cons.inj htail
      simp [hkey] at hone
      omega

/-- A marker stands at the head of a group of its key, and nowhere else. -/
theorem entry_eq_mark_iff (hmark : Function.Injective mark) {gs : List (Group mark)} {i : ℕ}
    {key : κ} : (entries gs)[i]? = some (mark key) ↔
      ∃ before g after, gs = before ++ g :: after ∧ g.key = key ∧ i = (entries before).length := by
  constructor
  · intro h
    obtain ⟨before, g, after, hgs, ⟨hkey, hi⟩ | ⟨hmem, -⟩⟩ := entry_cases h
    · exact ⟨before, g, after, hgs, (hmark hkey).symm, hi⟩
    · exact absurd rfl (g.unmarked _ hmem key)
  · rintro ⟨before, g, after, rfl, rfl, rfl⟩
    exact entry_split before g after 0

/-! ## Shapes -/

/-- The key of a group and the number of its values. -/
def Group.shape (g : Group mark) : κ × ℕ := (g.key, g.values.length)

/-- The groups have the same keys and as many values. -/
def SameShape (gs gs' : List (Group mark)) : Prop := gs.map Group.shape = gs'.map Group.shape

section Shape

variable {gs gs' : List (Group mark)}

theorem SameShape.symm (h : SameShape gs gs') : SameShape gs' gs := Eq.symm h

theorem SameShape.length (h : SameShape gs gs') : (entries gs).length = (entries gs').length := by
  induction gs generalizing gs' with
  | nil =>
    obtain rfl := List.map_eq_nil_iff.mp h.symm
    rfl
  | cons g gs ih =>
    obtain ⟨g', gs', rfl, hg, hgs⟩ := List.map_eq_cons_iff.mp h.symm
    have hvalues : g'.values.length = g.values.length := congrArg Prod.snd hg
    have hrest := ih hgs.symm
    simp only [entries_cons, List.length_cons, List.length_append]
    omega

/-- Where one list has a group, the other one has a group of the same key and length. -/
theorem SameShape.split {before : List (Group mark)} {g : Group mark} {after : List (Group mark)}
    (h : SameShape gs gs') (hgs : gs = before ++ g :: after) :
    ∃ before' g' after', gs' = before' ++ g' :: after' ∧ SameShape before before' ∧
      g.key = g'.key ∧ g.values.length = g'.values.length := by
  subst hgs
  rw [SameShape, List.map_append, List.map_cons] at h
  obtain ⟨before', tail, rfl, hbefore, htail⟩ := List.map_eq_append_iff.mp h.symm
  obtain ⟨g', after', rfl, hg, -⟩ := List.map_eq_cons_iff.mp htail
  have hshape : g.shape = g'.shape := hg.symm
  exact ⟨before', g', after', rfl, hbefore.symm, (Prod.ext_iff.mp hshape).1,
    (Prod.ext_iff.mp hshape).2⟩

/-- The shape says where the markers are. -/
theorem SameShape.mark_iff (hmark : Function.Injective mark) (h : SameShape gs gs') {i : ℕ}
    {key : κ} : (entries gs)[i]? = some (mark key) ↔ (entries gs')[i]? = some (mark key) := by
  have hmp : ∀ {gs gs' : List (Group mark)}, SameShape gs gs' →
      (entries gs)[i]? = some (mark key) → (entries gs')[i]? = some (mark key) := by
    intro gs gs' h hentry
    obtain ⟨before, g, after, hgs, hkey, hi⟩ := (entry_eq_mark_iff hmark).mp hentry
    obtain ⟨before', g', after', hgs', hbefore, hkey', -⟩ := h.split hgs
    exact (entry_eq_mark_iff hmark).mpr
      ⟨before', g', after', hgs', hkey'.symm.trans hkey, hi.trans hbefore.length⟩
  exact ⟨hmp h, hmp h.symm⟩

end Shape

section Filled

variable (fill : κ → α) (hfill : ∀ key key', fill key ≠ mark key')

include hfill in
theorem filled_unmarked (g : Group mark) :
    ∀ v ∈ List.replicate g.values.length (fill g.key), ∀ key, v ≠ mark key := by
  intro v hv key
  rw [List.eq_of_mem_replicate hv]
  exact hfill g.key key

/-- The group with the value for its key throughout. -/
def Group.filled (g : Group mark) : Group mark where
  key := g.key
  values := List.replicate g.values.length (fill g.key)
  unmarked := filled_unmarked fill hfill g

theorem sameShape_filled (gs : List (Group mark)) :
    SameShape gs (gs.map (Group.filled fill hfill)) := by
  rw [SameShape, List.map_map]
  exact List.map_congr_left fun g _ => Prod.ext rfl List.length_replicate.symm

end Filled

end Sel4Xhci.Semantics.Marked
