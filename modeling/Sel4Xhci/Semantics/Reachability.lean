import Sel4Xhci.Semantics.Machine

/-!
# What a machine can be brought to

A machine may be able to leave its present state for a state with a given property if it is
driven by the right schedule. Only some labels may be open to whoever drives it.

## Main definitions

* `CanReach` — a schedule of allowed labels leads to a state with a property
* `Always` — a property holds in all states that a schedule passes

## Main results

* `CanReach.trans`, `canReach_of_variant` — a way in several parts, and one that makes progress
* `not_canReach` — an invariant of the allowed labels is a trap
* `always_iff_along` — a property that some steps keep and all others lose for good
-/

set_option autoImplicit false

namespace Sel4Xhci.Semantics.Machine

variable {σ α : Type*} {M : Machine σ α} {C D : σ → α → Prop} {P Q I : σ → Prop} {s t : σ}

variable (M) in
/-- Some schedule of labels that `C` allows leads from `s` to a state with `P`. -/
def CanReach (C : σ → α → Prop) (P : σ → Prop) (s : σ) : Prop :=
  ∃ as t, M.Along C s as ∧ M.exec s as = some t ∧ P t

variable (M) in
/-- All states that a schedule passes from `s` on have `P`, the first and the last included. -/
def Always (P : σ → Prop) : σ → List α → Prop
  | s, [] => P s
  | s, a :: as => P s ∧ ∀ s', M.step s a = some s' → Always P s' as

/-! ## Ways to a property -/

theorem canReach_of_holds (h : P s) : M.CanReach C P s := ⟨[], s, trivial, rfl, h⟩

/-- A step that is allowed, and the way on from there. -/
theorem CanReach.step {a : α} {s' : σ} (h : M.CanReach C P s') (hC : C s a)
    (hstep : M.step s a = some s') : M.CanReach C P s := by
  obtain ⟨as, t, hAlong, hrun, hP⟩ := h
  refine ⟨a :: as, t, ⟨hC, ?_⟩, exec_cons_eq_some.mpr ⟨s', hstep, hrun⟩, hP⟩
  intro u hu
  rw [hstep, Option.some.injEq] at hu
  rwa [← hu]

/-- A way in two parts. -/
theorem CanReach.trans (h : M.CanReach C Q s) (hQ : ∀ t, Q t → M.CanReach C P t) :
    M.CanReach C P s := by
  obtain ⟨as, t, hAlong, hrun, ht⟩ := h
  induction as generalizing s with
  | nil =>
    obtain rfl := Option.some.inj hrun
    exact hQ _ ht
  | cons a as ih =>
    obtain ⟨s', hstep, hrest⟩ := exec_cons_eq_some.mp hrun
    exact (ih (hAlong.tail hstep) hrest).step hAlong.head hstep

/-- From a state with `I` there is a step that reaches `P`, or that stays with `I` and lowers the
variant. -/
theorem canReach_of_variant (variant : σ → ℕ)
    (hstep : ∀ s, I s → P s ∨ ∃ a s', C s a ∧ M.step s a = some s' ∧
      (P s' ∨ I s' ∧ variant s' < variant s)) (hs : I s) : M.CanReach C P s := by
  induction hn : variant s using Nat.strongRecOn generalizing s with
  | ind n ih =>
    rcases hstep s hs with hP | ⟨a, s', hC, hs', hP | ⟨hI, hlower⟩⟩
    · exact canReach_of_holds hP
    · exact (canReach_of_holds hP).step hC hs'
    · exact (ih _ (by omega) hI rfl).step hC hs'

/-- What the allowed steps preserve is preserved for good; if it excludes `P`, no way leads
there. -/
theorem not_canReach (hkeep : ∀ s a s', I s → C s a → M.step s a = some s' → I s')
    (hI : ∀ s, I s → ¬ P s) (hs : I s) : ¬ M.CanReach C P s := by
  rintro ⟨as, t, hAlong, hrun, hP⟩
  exact hI t (along_induction hkeep hs hAlong hrun) hP

/-! ## Whole runs -/

theorem always_cons {a : α} {as : List α} :
    M.Always P s (a :: as) ↔ P s ∧ ∀ s', M.step s a = some s' → M.Always P s' as := Iff.rfl

theorem Always.head {as : List α} (h : M.Always P s as) : P s := by
  cases as with
  | nil => exact h
  | cons a as => exact h.1

/-- A property that follows from an invariant, where the steps that meet `D` keep the invariant
and all others lose the property, holds all along exactly the runs whose steps all meet `D`. -/
theorem always_iff_along (hI : ∀ s, I s → P s)
    (hkeep : ∀ s a s', I s → D s a → M.step s a = some s' → I s')
    (hlose : ∀ s a s', I s → ¬ D s a → M.step s a = some s' → ¬ P s')
    {as : List α} (hs : I s) (hrun : M.exec s as = some t) :
    M.Always P s as ↔ M.Along D s as := by
  induction as generalizing s with
  | nil => exact iff_of_true (hI s hs) trivial
  | cons a as ih =>
    obtain ⟨s', hs', hrest⟩ := exec_cons_eq_some.mp hrun
    have honly : ∀ Q : σ → Prop, (∀ u, M.step s a = some u → Q u) ↔ Q s' := by
      intro Q
      rw [hs']
      exact ⟨fun h => h s' rfl, fun h u hu => Option.some.inj hu ▸ h⟩
    rw [always_cons, along_cons, honly, honly]
    by_cases hD : D s a
    · rw [ih (hkeep s a s' hs hD hs') hrest]
      exact and_congr_left' (iff_of_true (hI s hs) hD)
    · exact iff_of_false (fun h => hlose s a s' hs hD hs' h.2.head) fun h => hD h.1

end Sel4Xhci.Semantics.Machine
