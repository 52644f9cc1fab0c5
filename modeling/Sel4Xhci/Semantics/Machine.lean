import Mathlib.Data.List.Basic

/-!
# Labelled machines and their runs

A machine is a set of start states and a partial step function on labels. All
choice sits in the labels: an interleaving of several parties is a list of
labels, and a party that may act in several ways has several labels. A schedule
that asks for a label that is not enabled has no run.

## Main definitions

* `Machine.exec` — the state a schedule leads to, if every label is enabled
* `Machine.Along` — a condition on (state, label) met at every step of a run
* `Machine.Simulates` — a forward simulation, with stuttering

## Main results

* `exec_induction`, `along_induction` — an invariant of one step is an invariant
  of whole runs, for `along_induction` of the runs that meet a condition
* `Along.at` — a condition on every step holds of the step behind any part of a run
* `Along.strengthen` — a condition on every step, with an invariant, gives another one
* `Simulates.exec` — a simulated run is matched by a run of the abstract machine
-/

set_option autoImplicit false

namespace Sel4Xhci.Semantics

/-- A labelled machine: the states a run may start in, and what a label does
(`none`: the label is not enabled there). -/
structure Machine (σ α : Type*) where
  start : σ → Prop
  step : σ → α → Option σ

namespace Machine

variable {σ τ α β : Type*} (M : Machine σ α)

/-- The state a schedule leads to, `none` when one of its labels is not enabled. -/
def exec : σ → List α → Option σ
  | s, [] => some s
  | s, a :: as => (M.step s a).bind fun s' => exec s' as

@[simp] theorem exec_nil (s : σ) : M.exec s [] = some s := rfl

theorem exec_cons (s : σ) (a : α) (as : List α) :
    M.exec s (a :: as) = (M.step s a).bind fun s' => M.exec s' as := rfl

variable {M}

theorem exec_cons_eq_some {s t : σ} {a : α} {as : List α} :
    M.exec s (a :: as) = some t ↔ ∃ s', M.step s a = some s' ∧ M.exec s' as = some t := by
  rw [exec_cons, Option.bind_eq_some_iff]

theorem exec_append {s t : σ} {as bs : List α} :
    M.exec s (as ++ bs) = some t ↔ ∃ s', M.exec s as = some s' ∧ M.exec s' bs = some t := by
  induction as generalizing s with
  | nil => simp
  | cons a as ih =>
    simp only [List.cons_append, exec_cons_eq_some, ih]
    constructor
    · rintro ⟨u, hu, v, hv, ht⟩
      exact ⟨v, ⟨u, hu, hv⟩, ht⟩
    · rintro ⟨v, ⟨u, hu, hv⟩, ht⟩
      exact ⟨u, hu, v, hv, ht⟩

theorem exec_singleton {s t : σ} {a : α} : M.exec s [a] = some t ↔ M.step s a = some t := by
  simp [exec_cons_eq_some]

/-- What one step preserves, every run preserves. -/
theorem exec_induction {P : σ → Prop}
    (hstep : ∀ s a s', P s → M.step s a = some s' → P s')
    {s t : σ} {as : List α} (hs : P s) (hrun : M.exec s as = some t) : P t := by
  -- The invariant travels with the state, so the induction is on the schedule alone.
  induction as generalizing s with
  | nil =>
    obtain rfl := Option.some.inj hrun
    exact hs
  | cons a as ih =>
    obtain ⟨s', hs', hrest⟩ := exec_cons_eq_some.mp hrun
    exact ih (hstep s a s' hs hs') hrest

variable (M) in
/-- The condition `C` holds of every step a schedule takes from `s`. -/
def Along (C : σ → α → Prop) : σ → List α → Prop
  | _, [] => True
  | s, a :: as => C s a ∧ ∀ s', M.step s a = some s' → Along C s' as

@[simp] theorem along_nil (C : σ → α → Prop) (s : σ) : M.Along C s [] := trivial

theorem along_cons {C : σ → α → Prop} {s : σ} {a : α} {as : List α} :
    M.Along C s (a :: as) ↔ C s a ∧ ∀ s', M.step s a = some s' → M.Along C s' as := Iff.rfl

theorem Along.head {C : σ → α → Prop} {s : σ} {a : α} {as : List α}
    (h : M.Along C s (a :: as)) : C s a := h.1

theorem Along.tail {C : σ → α → Prop} {s s' : σ} {a : α} {as : List α}
    (h : M.Along C s (a :: as)) (hs : M.step s a = some s') : M.Along C s' as := h.2 s' hs

/-- A condition that is met all along is met behind every part of the schedule. -/
theorem Along.at {C : σ → α → Prop} {s t : σ} {a : α} {as bs : List α}
    (h : M.Along C s (as ++ a :: bs)) (hrun : M.exec s as = some t) : C t a := by
  induction as generalizing s with
  | nil =>
    obtain rfl := Option.some.inj hrun
    exact h.head
  | cons b as ih =>
    obtain ⟨s', hs', hrest⟩ := exec_cons_eq_some.mp hrun
    exact ih (h.tail hs') hrest

/-- Along a schedule each step can be tested in turn. -/
instance decidableAlong {C : σ → α → Prop} [∀ s a, Decidable (C s a)] :
    ∀ (s : σ) (as : List α), Decidable (M.Along C s as)
  | _, [] => .isTrue trivial
  | s, a :: as =>
    match h : M.step s a with
    | none => decidable_of_iff (C s a) (by simp [along_cons, h])
    | some s' =>
      haveI := decidableAlong (C := C) s' as
      decidable_of_iff (C s a ∧ M.Along C s' as) (by simp [along_cons, h])

/-- A weaker condition is met along the same runs. -/
theorem Along.mono {C D : σ → α → Prop} (h : ∀ s a, C s a → D s a) {s : σ} {as : List α}
    (hC : M.Along C s as) : M.Along D s as := by
  induction as generalizing s with
  | nil => trivial
  | cons a as ih => exact ⟨h s a hC.head, fun s' hs' => ih (hC.tail hs')⟩

/-- Conditions that agree at every step agree along every run. -/
theorem along_congr {C D : σ → α → Prop} (h : ∀ s a, C s a ↔ D s a) (s : σ) (as : List α) :
    M.Along C s as ↔ M.Along D s as := by
  exact ⟨Along.mono fun t b => (h t b).mp, Along.mono fun t b => (h t b).mpr⟩

/-- What a step that meets `C` preserves, a run whose steps all meet `C` preserves. -/
theorem along_induction {C : σ → α → Prop} {P : σ → Prop}
    (hstep : ∀ s a s', P s → C s a → M.step s a = some s' → P s')
    {s t : σ} {as : List α} (hs : P s) (hC : M.Along C s as) (hrun : M.exec s as = some t) :
    P t := by
  induction as generalizing s with
  | nil =>
    obtain rfl := Option.some.inj hrun
    exact hs
  | cons a as ih =>
    obtain ⟨s', hs', hrest⟩ := exec_cons_eq_some.mp hrun
    exact ih (hstep s a s' hs hC.head hs') (hC.tail hs') hrest

/-- A step that meets `C` in a state with `P` meets `D` as well and keeps `P`; then a run whose
steps all meet `C` meets `D` all along. -/
theorem Along.strengthen {C D : σ → α → Prop} {P : σ → Prop}
    (hstep : ∀ s a, P s → C s a → D s a ∧ ∀ s', M.step s a = some s' → P s')
    {s : σ} {as : List α} (hs : P s) (hC : M.Along C s as) : M.Along D s as := by
  induction as generalizing s with
  | nil => trivial
  | cons a as ih =>
    obtain ⟨hD, hkeep⟩ := hstep s a hs hC.head
    exact ⟨hD, fun s' hs' => ih (hkeep s' hs') (hC.tail hs')⟩

/-- `R` is a forward simulation: a step of `M` is matched by finitely many steps of
`N`, possibly none. -/
structure Simulates (M : Machine σ α) (N : Machine τ β) (R : σ → τ → Prop) : Prop where
  start : ∀ s, M.start s → ∃ t, N.start t ∧ R s t
  step : ∀ s t a s', R s t → M.step s a = some s' → ∃ bs t', N.exec t bs = some t' ∧ R s' t'

namespace Simulates

variable {N : Machine τ β} {R : σ → τ → Prop}

theorem exec (hR : M.Simulates N R) {s s' : σ} {t : τ} {as : List α}
    (hst : R s t) (hrun : M.exec s as = some s') :
    ∃ bs t', N.exec t bs = some t' ∧ R s' t' := by
  -- Each step is matched in turn, and the abstract schedules are put end to end.
  induction as generalizing s t with
  | nil =>
    obtain rfl := Option.some.inj hrun
    exact ⟨[], t, rfl, hst⟩
  | cons a as ih =>
    obtain ⟨u, hu, hrest⟩ := exec_cons_eq_some.mp hrun
    obtain ⟨bs, v, hv, huv⟩ := hR.step s t a u hst hu
    obtain ⟨cs, t', ht', hst'⟩ := ih huv hrest
    exact ⟨bs ++ cs, t', exec_append.mpr ⟨v, hv, ht'⟩, hst'⟩

/-- An invariant of the abstract machine reads back as an invariant of the
simulated one. -/
theorem invariant (hR : M.Simulates N R) {P : τ → Prop}
    (hstart : ∀ t, N.start t → P t) (hstep : ∀ t b t', P t → N.step t b = some t' → P t')
    {s s' : σ} {as : List α} (hs : M.start s) (hrun : M.exec s as = some s') :
    ∃ t', R s' t' ∧ P t' := by
  obtain ⟨t, ht, hst⟩ := hR.start s hs
  obtain ⟨bs, t', hexec, hst'⟩ := hR.exec hst hrun
  exact ⟨t', hst', exec_induction hstep (hstart t ht) hexec⟩

end Simulates

end Machine

end Sel4Xhci.Semantics
