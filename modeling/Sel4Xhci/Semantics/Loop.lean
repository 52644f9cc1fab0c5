import Mathlib.Logic.Function.Iterate

/-!
# Loops with fuel

A loop makes rounds on a state until a round ends it. Fuel bounds the number of rounds,
and the loop returns how many rounds went on, with the result of the last one.

## Main results

* `loop_of_variant` — a loop whose rounds keep an invariant and lower a variant returns,
  and what it returns is what the last round makes of the invariant
* `loop_invariant` — what is kept by the rounds holds of the result, if there is one
* `loop_iterate_iff` — a loop that steps in the same way at every round returns at the
  first state that satisfies its exit condition
* `taken_eq_length_iff` — a loop that takes elements from a queue and may break at one of them
  takes all exactly when it goes on at every element but the last
-/

set_option autoImplicit false

namespace Sel4Xhci.Semantics.Loop

variable {σ ρ : Type*}

/-- Make rounds until one ends the loop: the number of rounds before it and its result;
`none` when the fuel runs out. -/
def loop (round : σ → σ ⊕ ρ) : ℕ → σ → Option (ℕ × ρ)
  | 0, _ => none
  | fuel + 1, s =>
    match round s with
    | .inl s' => (loop round fuel s').map fun (rounds, r) => (rounds + 1, r)
    | .inr r => some (0, r)

variable {round : σ → σ ⊕ ρ}

@[simp] theorem loop_zero (s : σ) : loop round 0 s = none := rfl

theorem loop_next {s s' : σ} (h : round s = .inl s') (fuel : ℕ) :
    loop round (fuel + 1) s = (loop round fuel s').map fun (rounds, r) => (rounds + 1, r) := by
  simp only [loop, h]

theorem loop_done {s : σ} {r : ρ} (h : round s = .inr r) (fuel : ℕ) :
    loop round (fuel + 1) s = some (0, r) := by
  simp only [loop, h]

/-- A loop returns if some measure of its state goes down at every round that goes on, and
its result is as the last round leaves it. -/
theorem loop_of_variant {I : σ → Prop} {Q : ρ → Prop} (variant : σ → ℕ)
    (hnext : ∀ s s', I s → round s = .inl s' → I s' ∧ variant s' < variant s)
    (hdone : ∀ s r, I s → round s = .inr r → Q r) {s : σ} (hs : I s) {fuel : ℕ}
    (hfuel : variant s < fuel) : ∃ rounds r, loop round fuel s = some (rounds, r) ∧ Q r := by
  induction fuel generalizing s with
  | zero => omega
  | succ fuel ih =>
    cases hround : round s with
    | inl s' =>
      -- One unit of fuel pays for the round, by which the variant went down.
      obtain ⟨hs', hlower⟩ := hnext s s' hs hround
      obtain ⟨rounds, r, hloop, hr⟩ := ih hs' (by omega)
      refine ⟨rounds + 1, r, ?_, hr⟩
      rw [loop_next hround, hloop]
      rfl
    | inr r =>
      exact ⟨0, r, loop_done hround fuel, hdone s r hs hround⟩

/-- What the rounds of a loop keep, its result is made of, if it returns. -/
theorem loop_invariant {I : σ → Prop} {Q : ρ → Prop}
    (hnext : ∀ s s', I s → round s = .inl s' → I s') (hdone : ∀ s r, I s → round s = .inr r → Q r)
    {fuel rounds : ℕ} {s : σ} {r : ρ} (hs : I s) (hloop : loop round fuel s = some (rounds, r)) :
    Q r := by
  induction fuel generalizing s rounds with
  | zero => cases hloop
  | succ fuel ih =>
    cases hround : round s with
    | inl s' =>
      rw [loop_next hround, Option.map_eq_some_iff] at hloop
      obtain ⟨⟨rounds', r'⟩, hrest, heq⟩ := hloop
      obtain ⟨-, rfl⟩ := Prod.ext_iff.mp heq
      exact ih (hnext s s' hs hround) hrest
    | inr r' =>
      rw [loop_done hround] at hloop
      obtain ⟨-, rfl⟩ := Prod.ext_iff.mp (Option.some.inj hloop)
      exact hdone s _ hs hround

section Iterate

variable {round : σ → σ ⊕ σ} {next : σ → σ} {P : σ → Prop} [DecidablePred P]

/-- A loop that looks at its state and steps on in the same way whether it goes on or not
returns after `n` rounds exactly when the `n`-th iterate is the first to satisfy the exit
condition. -/
theorem loop_iterate_iff
    (hround : ∀ s, round s = if P s then .inr (next s) else .inl (next s))
    {fuel n : ℕ} {s t : σ} :
    loop round fuel s = some (n, t) ↔
      n < fuel ∧ (∀ i < n, ¬ P (next^[i] s)) ∧ P (next^[n] s) ∧ t = next^[n + 1] s := by
  -- The first round is apart from the others, in the loop and in the iteration alike.
  induction fuel generalizing n s with
  | zero => simp
  | succ fuel ih =>
    have hfirst := hround s
    by_cases hs : P s
    · rw [if_pos hs] at hfirst
      rw [loop_done hfirst]
      cases n with
      | zero => simp [hs, eq_comm]
      | succ n =>
        have hearlier : ¬ ∀ i < n + 1, ¬ P (next^[i] s) := fun h => h 0 n.succ_pos hs
        exact ⟨nofun, fun h => absurd h.2.1 hearlier⟩
    · rw [if_neg hs] at hfirst
      rw [loop_next hfirst]
      cases n with
      | zero => simp [hs]
      | succ n =>
        have hrest : (∀ i < n + 1, ¬ P (next^[i] s)) ↔ ∀ i < n, ¬ P (next^[i] (next s)) := by
          rw [Nat.forall_lt_succ_left]
          simp [hs]
        have hmap : ((loop round fuel (next s)).map fun (rounds, r) => (rounds + 1, r)) =
            some (n + 1, t) ↔ loop round fuel (next s) = some (n, t) := by
          cases loop round fuel (next s) with
          | none => simp
          | some result => simp [Prod.ext_iff]
        rw [hmap, ih, hrest, Nat.succ_lt_succ_iff]
        rfl

end Iterate

section Drain

variable {α : Type*} (goesOn : σ → α → Prop) [∀ s a, Decidable (goesOn s a)] (next : α → σ → σ)

/-- How many elements of a queue a loop takes that breaks where it does not go on. It has taken
the element at which it breaks. -/
def taken : σ → List α → ℕ
  | _, [] => 0
  | s, a :: as => if goesOn s a then taken (next a s) as + 1 else 1

theorem taken_le (s : σ) (as : List α) : taken goesOn next s as ≤ as.length := by
  induction as generalizing s with
  | nil => exact Nat.le_refl 0
  | cons a as ih =>
    rw [taken, List.length_cons]
    by_cases hgo : goesOn s a
    · rw [if_pos hgo]
      exact Nat.succ_le_succ (ih _)
    · rw [if_neg hgo]
      omega

theorem taken_eq_length_iff (s : σ) (as : List α) :
    taken goesOn next s as = as.length ↔ ∀ before a after, as = before ++ a :: after →
      after ≠ [] → goesOn (before.foldl (fun s a => next a s) s) a := by
  induction as generalizing s with
  | nil => simp [taken]
  | cons a as ih =>
    rw [taken, List.length_cons]
    by_cases hgo : goesOn s a
    · rw [if_pos hgo, Nat.succ_inj, ih]
      constructor
      · rintro h (_ | ⟨b, before⟩) c after heq hafter
        · obtain ⟨rfl, rfl⟩ := List.cons.inj heq
          exact hgo
        · obtain ⟨rfl, rfl⟩ := List.cons.inj heq
          exact h before c after rfl hafter
      · rintro h before c after rfl hafter
        exact h (a :: before) c after rfl hafter
    · rw [if_neg hgo]
      constructor
      · intro hlength
        obtain rfl : as = [] := List.length_eq_zero_iff.mp (by omega)
        rintro (_ | ⟨b, before⟩) c after heq hafter
        · obtain ⟨-, rfl⟩ := List.cons.inj heq
          exact absurd rfl hafter
        · exact absurd (List.cons.inj heq).2 (by simp)
      · intro h
        by_contra hlength
        exact hgo (h [] a as rfl fun hnil => hlength (by simp [hnil]))

end Drain

end Sel4Xhci.Semantics.Loop
