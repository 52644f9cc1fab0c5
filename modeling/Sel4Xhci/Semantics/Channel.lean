import Sel4Xhci.Semantics.Machine
import Mathlib.Data.List.Infix

/-!
# Ordered lossless channels, and queues that implement them

A channel remembers what it has delivered and what is still in transit, oldest
first. What was sent is the concatenation of the two, so a channel value that
lost, repeated or reordered an item cannot be written down.

`Fifo` is the interface of a first-in first-out queue whose implementation is
unknown: a carrier, its items, and the two operations with the laws their callers
rely on. Any capacity of at least one is allowed for.

## Main results

* `Channel.received_isPrefix_sent` — what has been delivered is a prefix of what
  was sent
* `Fifo.receive_of_dequeue` — taking from a queue is receiving on a channel
-/

set_option autoImplicit false

namespace Sel4Xhci.Semantics

/-- An ordered channel: the items delivered so far and those still in transit, each
oldest first. -/
@[ext] structure Channel (α : Type*) where
  received : List α
  inTransit : List α
  deriving DecidableEq

namespace Channel

variable {α : Type*} (c : Channel α)

/-- Everything that was ever put on the channel, oldest first. -/
def sent : List α := c.received ++ c.inTransit

/-- The channel nothing was sent on yet. -/
def empty : Channel α := ⟨[], []⟩

@[simp] theorem sent_empty : (empty : Channel α).sent = [] := rfl

/-- Put an item on the channel. -/
def send (a : α) : Channel α := { c with inTransit := c.inTransit ++ [a] }

@[simp] theorem sent_send (a : α) : (c.send a).sent = c.sent ++ [a] := by
  simp [sent, send]

@[simp] theorem received_send (a : α) : (c.send a).received = c.received := rfl

/-- Deliver the oldest item in transit, if there is one. -/
def receive : Option (α × Channel α) :=
  match c.inTransit with
  | [] => none
  | a :: rest => some (a, ⟨c.received ++ [a], rest⟩)

theorem receive_eq_some {a : α} {d : Channel α} :
    c.receive = some (a, d) ↔
      c.inTransit = a :: d.inTransit ∧ d.received = c.received ++ [a] := by
  unfold receive
  cases h : c.inTransit with
  | nil => simp
  | cons b rest =>
    simp only [Option.some.injEq, Prod.mk.injEq, Channel.ext_iff, List.cons.injEq]
    constructor
    · rintro ⟨rfl, hrec, rfl⟩
      exact ⟨⟨rfl, rfl⟩, hrec.symm⟩
    · rintro ⟨⟨rfl, rfl⟩, hrec⟩
      exact ⟨rfl, hrec.symm, rfl⟩

/-- Delivering an item changes nothing about what was sent. -/
theorem sent_of_receive {a : α} {d : Channel α} (h : c.receive = some (a, d)) :
    d.sent = c.sent := by
  obtain ⟨htransit, hreceived⟩ := c.receive_eq_some.mp h
  simp [sent, htransit, hreceived]

theorem received_isPrefix_sent : c.received <+: c.sent := List.prefix_append _ _

/-- The two operations on a channel. -/
inductive Op (α : Type*)
  | send (a : α)
  | receive

/-- The channel as a machine, started empty. -/
def machine : Machine (Channel α) (Op α) where
  start c := c = empty
  step c
    | .send a => some (c.send a)
    | .receive => c.receive.map Prod.snd

theorem exec_send (a : α) : machine.exec c [.send a] = some (c.send a) := rfl

theorem exec_receive {a : α} {d : Channel α} (h : c.receive = some (a, d)) :
    machine.exec c [.receive] = some d := by
  simp [Machine.exec_singleton, machine, h]

end Channel

/-- A first-in first-out queue whose implementation is not known. `enqueue` answers
`none` when it refuses an item; an empty queue never refuses one. -/
structure Fifo (α : Type) where
  Carrier : Type
  items : Carrier → List α
  enqueue : Carrier → α → Option Carrier
  dequeue : Carrier → Option (α × Carrier)
  items_enqueue : ∀ {q a q'}, enqueue q a = some q' → items q' = items q ++ [a]
  accepts_of_empty : ∀ {q a}, items q = [] → (enqueue q a).isSome
  dequeue_empty : ∀ {q}, items q = [] → dequeue q = none
  dequeue_items : ∀ {q a rest}, items q = a :: rest → ∃ q', dequeue q = some (a, q') ∧
    items q' = rest

namespace Fifo

variable {α : Type} (F : Fifo α)

theorem items_dequeue {q q' : F.Carrier} {a : α} (h : F.dequeue q = some (a, q')) :
    F.items q = a :: F.items q' := by
  cases hq : F.items q with
  | nil => rw [F.dequeue_empty hq] at h; cases h
  | cons b rest =>
    obtain ⟨r, hr, hrest⟩ := F.dequeue_items hq
    rw [h, Option.some.injEq, Prod.mk.injEq] at hr
    obtain ⟨rfl, rfl⟩ := hr
    rw [hrest]

theorem items_dequeue_none {q : F.Carrier} (h : F.dequeue q = none) : F.items q = [] := by
  cases hq : F.items q with
  | nil => rfl
  | cons b rest =>
    obtain ⟨r, hr, -⟩ := F.dequeue_items hq
    rw [h] at hr
    cases hr

/-- Taking from the queue is receiving on the channel that holds its items. -/
theorem receive_of_dequeue {q q' : F.Carrier} {a : α} (received : List α)
    (h : F.dequeue q = some (a, q')) :
    Channel.receive ⟨received, F.items q⟩ = some (a, ⟨received ++ [a], F.items q'⟩) := by
  simp [Channel.receive_eq_some, F.items_dequeue h]

/-- The list itself as a queue that refuses items beyond `room + 1`. -/
def bounded (α : Type) (room : ℕ) : Fifo α where
  Carrier := List α
  items q := q
  enqueue q a := if q.length ≤ room then some (q ++ [a]) else none
  dequeue
    | [] => none
    | a :: rest => some (a, rest)
  items_enqueue := by
    intro q a q' h
    split at h
    · exact (Option.some.inj h).symm
    · cases h
  accepts_of_empty := by
    rintro q a rfl
    simp
  dequeue_empty := by
    rintro q rfl
    rfl
  dequeue_items := by
    rintro q a rest rfl
    exact ⟨rest, rfl, rfl⟩

end Fifo

end Sel4Xhci.Semantics
