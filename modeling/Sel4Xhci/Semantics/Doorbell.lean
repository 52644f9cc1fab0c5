import Sel4Xhci.Semantics.Machine

/-!
# Doorbells: work that is never forgotten

A source posts items of work and raises a line. A relay sees the line, and may lower it
once it owes the consumer a ring of the bell. The bell is one bit; taking it starts the
consumer, which stops only when no work is left. The line may be lowered, and the bell
taken, while the source goes on posting.

What makes this safe is the order on the relay's side alone: it owes the ring before it
lowers the line, and rings after. Then work is always covered by the line, by a ring that
is owed or made, or by the consumer.

## Main results

* `Doorbell.covered_step` — every operation keeps work covered
* `Doorbell.covered_of_simulates` — so does every system that refines the doorbell
-/

set_option autoImplicit false

namespace Sel4Xhci.Semantics

/-- Posted work, and the four things that can stand for it. -/
structure Doorbell where
  work : ℕ
  line : Bool
  owed : Bool
  bell : Bool
  draining : Bool
  deriving DecidableEq

namespace Doorbell

/-- The operations of source (`post`), relay (`claim`, `lower`, `ring`) and consumer
(`wake`, `drain`, `finish`). -/
inductive Op
  | post
  | claim
  | lower
  | ring
  | wake
  | drain
  | finish

/-- The doorbell as a machine, started without work. -/
def machine : Machine Doorbell Op where
  start d := d.work = 0
  step d
    | .post => some { d with work := d.work + 1, line := true }
    | .claim => some { d with owed := true }
    | .lower => if d.owed then some { d with line := false } else none
    | .ring => some { d with owed := false, bell := true }
    | .wake => if d.bell then some { d with bell := false, draining := true } else none
    | .drain =>
      if d.draining ∧ 0 < d.work then some { d with work := d.work - 1 } else none
    | .finish => if d.draining ∧ d.work = 0 then some { d with draining := false } else none

/-- Work that is there is stood for. -/
def Covered (d : Doorbell) : Prop :=
  0 < d.work → d.line = true ∨ d.owed = true ∨ d.bell = true ∨ d.draining = true

theorem covered_step {d d' : Doorbell} {op : Op} (h : d.Covered)
    (hs : machine.step d op = some d') : d'.Covered := by
  intro hwork
  cases op with
  | post =>
    obtain rfl := Option.some.inj hs
    exact .inl rfl
  | claim =>
    obtain rfl := Option.some.inj hs
    exact .inr (.inl rfl)
  | lower =>
    -- The line goes down only while a ring is owed.
    simp only [machine, Option.ite_none_right_eq_some, Option.some.injEq] at hs
    obtain ⟨howed, rfl⟩ := hs
    exact .inr (.inl howed)
  | ring =>
    obtain rfl := Option.some.inj hs
    exact .inr (.inr (.inl rfl))
  | wake =>
    simp only [machine, Option.ite_none_right_eq_some, Option.some.injEq] at hs
    obtain ⟨-, rfl⟩ := hs
    exact .inr (.inr (.inr rfl))
  | drain =>
    simp only [machine, Option.ite_none_right_eq_some, Option.some.injEq] at hs
    obtain ⟨⟨-, hpos⟩, rfl⟩ := hs
    exact h hpos
  | finish =>
    simp only [machine, Option.ite_none_right_eq_some, Option.some.injEq] at hs
    obtain ⟨⟨-, hempty⟩, rfl⟩ := hs
    change 0 < d.work at hwork
    omega

/-- In every run of a system that refines the doorbell, its work is covered. -/
theorem covered_of_simulates {σ α : Type*} {M : Machine σ α} {R : σ → Doorbell → Prop}
    (hR : M.Simulates machine R) {s s' : σ} {as : List α} (hs : M.start s)
    (hrun : M.exec s as = some s') : ∃ d, R s' d ∧ d.Covered := by
  refine hR.invariant (P := Covered) ?_ (fun d op d' h hstep => covered_step h hstep) hs hrun
  intro d hstart hwork
  have hempty : d.work = 0 := hstart
  omega

end Doorbell

end Sel4Xhci.Semantics
