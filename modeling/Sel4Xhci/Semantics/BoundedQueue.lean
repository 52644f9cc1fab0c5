import Sel4Xhci.Semantics.Machine

/-!
# Bounded first-in first-out queues

The abstract queue of a fixed capacity: it refuses an item when it is full, and else
delivers all items in the order in which it accepted them.

## Main definitions

* `BoundedQueue` — a list that is not longer than the capacity
* `BoundedQueue.machine` — its operations, with a record of what came and went

## Main results

* `BoundedQueue.conservation` — what was accepted is what was delivered followed by what is
  still in the queue
-/

set_option autoImplicit false

namespace Sel4Xhci.Semantics

/-- A queue of at most `capacity` items, oldest first. -/
structure BoundedQueue (α : Type*) (capacity : ℕ) where
  items : List α
  length_le : items.length ≤ capacity

namespace BoundedQueue

variable {α : Type*} {capacity : ℕ}

/-- The queue without items. -/
def empty : BoundedQueue α capacity := ⟨[], Nat.zero_le capacity⟩

/-- Put an item last; `none` when the queue is full. -/
def put (q : BoundedQueue α capacity) (a : α) : Option (BoundedQueue α capacity) :=
  if h : q.items.length < capacity then
    some ⟨q.items ++ [a], by rw [List.length_append]; exact h⟩
  else none

/-- Take the first item; `none` when there is none. -/
def get (q : BoundedQueue α capacity) : Option (α × BoundedQueue α capacity) :=
  match h : q.items with
  | [] => none
  | a :: rest => some (a, ⟨rest, by
      have hlength := q.length_le
      rw [h, List.length_cons] at hlength
      omega⟩)

theorem put_of_full {q : BoundedQueue α capacity} (h : q.items.length = capacity) (a : α) :
    q.put a = none := dif_neg (by omega)

theorem put_of_room {q : BoundedQueue α capacity} (h : q.items.length < capacity) (a : α) :
    ∃ q', q.put a = some q' ∧ q'.items = q.items ++ [a] := by
  simp [put, h]

theorem get_of_nil {q : BoundedQueue α capacity} (h : q.items = []) : q.get = none := by
  unfold get
  split
  · rfl
  · rename_i hcons
    rw [h] at hcons
    cases hcons

theorem get_of_cons {q : BoundedQueue α capacity} {a : α} {rest : List α}
    (h : q.items = a :: rest) : ∃ q', q.get = some (a, q') ∧ q'.items = rest := by
  unfold get
  split
  · rename_i hnil
    rw [h] at hnil
    cases hnil
  · rename_i b more hcons
    rw [h] at hcons
    obtain ⟨rfl, rfl⟩ := List.cons.inj hcons
    exact ⟨_, rfl, rfl⟩

/-- A queue with the items it has accepted and delivered so far. -/
structure Trace (α : Type*) (capacity : ℕ) where
  queue : BoundedQueue α capacity
  accepted : List α
  delivered : List α

/-- The two operations on a queue. -/
inductive Op (α : Type*)
  | put (a : α)
  | get

/-- Every operation is possible at any time; a refused one changes nothing. -/
def machine (α : Type*) (capacity : ℕ) : Machine (Trace α capacity) (Op α) where
  start t := t = ⟨empty, [], []⟩
  step t
    | .put a => some (match t.queue.put a with
      | some q => { t with queue := q, accepted := t.accepted ++ [a] }
      | none => t)
    | .get => some (match t.queue.get with
      | some (a, q) => { t with queue := q, delivered := t.delivered ++ [a] }
      | none => t)

/-- What was accepted is what was delivered, in the same order, and what is still there. -/
def Trace.Conserves (t : Trace α capacity) : Prop := t.accepted = t.delivered ++ t.queue.items

theorem conserves_step {t t' : Trace α capacity} {op : Op α} (h : t.Conserves)
    (hstep : (machine α capacity).step t op = some t') : t'.Conserves := by
  cases op with
  | put a =>
    -- An item that is accepted is added at the end of both sides.
    rcases Nat.lt_or_eq_of_le t.queue.length_le with hroom | hfull
    · obtain ⟨q, hq, hitems⟩ := put_of_room hroom a
      simp only [machine, hq, Option.some.injEq] at hstep
      subst hstep
      unfold Trace.Conserves at h ⊢
      rw [h, hitems, List.append_assoc]
    · simp only [machine, put_of_full hfull, Option.some.injEq] at hstep
      subst hstep
      exact h
  | get =>
    cases hitems : t.queue.items with
    | nil =>
      simp only [machine, get_of_nil hitems, Option.some.injEq] at hstep
      subst hstep
      exact h
    | cons a rest =>
      -- The first item moves from the queue to the end of what was delivered.
      obtain ⟨q, hq, hrest⟩ := get_of_cons hitems
      simp only [machine, hq, Option.some.injEq] at hstep
      subst hstep
      unfold Trace.Conserves at h ⊢
      rw [h, hitems, hrest, List.append_assoc, List.singleton_append]

/-- Nothing is lost, repeated or reordered over a run from the empty queue. -/
theorem conservation {t t' : Trace α capacity} {ops : List (Op α)}
    (hstart : (machine α capacity).start t) (hrun : (machine α capacity).exec t ops = some t') :
    t'.Conserves := by
  obtain rfl := hstart
  have hempty : Trace.Conserves (⟨empty, [], []⟩ : Trace α capacity) := rfl
  exact Machine.exec_induction (fun _ _ _ h hstep => conserves_step h hstep) hempty hrun

/-- The items in the queue are those accepted and not yet delivered. -/
theorem Trace.Conserves.items_eq {t : Trace α capacity} (h : t.Conserves) :
    t.queue.items = t.accepted.drop t.delivered.length := by
  rw [h, List.drop_left]

end BoundedQueue

end Sel4Xhci.Semantics
