import Mathlib.Data.List.Basic
import Mathlib.Data.Nat.ModEq
import Mathlib.Logic.Function.Basic

/-!
# Free-running indices over a power-of-two ring

A ring of `c` slots is addressed by `w`-bit indices that are never reduced: an index
runs modulo `2 ^ w` and names slot `i % c`. When `c` divides `2 ^ w` the two moduli
agree, so the wrap of the index is invisible, and a stretch of at most `c`
consecutive indices names distinct slots.

## Main definitions

* `slot` — the slot an index names
* `Holds` — the slots from an index on hold the items of a list, in order

## Main results

* `slot_add_ne` — two indices less than `c` apart name different slots
* `Holds.push`, `Holds.pop` — a ring as a queue: writing at the end, reading at the
  front
-/

set_option autoImplicit false

namespace Sel4Xhci.Semantics.FreeRunning

variable {w c : ℕ} [NeZero c] {α : Type*}

/-- The slot that index `i` names. -/
def slot (c : ℕ) [NeZero c] (i : BitVec w) : Fin c := Fin.ofNat c i.toNat

@[simp] theorem slot_val (i : BitVec w) : (slot c i).val = i.toNat % c := rfl

/-- Two indices less than `c` apart name different slots, also across the wrap of the
index. -/
theorem slot_add_ne (hc : c ∣ 2 ^ w) (i : BitVec w) {n : ℕ} (hpos : 0 < n) (hn : n < c) :
    slot c (i + BitVec.ofNat w n) ≠ slot c i := by
  intro h
  -- `c` divides `2 ^ w`, so reducing modulo `2 ^ w` first makes no difference.
  have hmod : (i.toNat + n) % c = i.toNat % c := by
    have hval := congrArg Fin.val h
    simpa [BitVec.toNat_add, Nat.mod_mod_of_dvd _ hc] using hval
  have hn0 : n % c = 0 := by
    have hcong : i.toNat + n ≡ i.toNat + 0 [MOD c] := hmod
    exact Nat.ModEq.add_left_cancel' _ hcong
  rw [Nat.mod_eq_of_lt hn] at hn0
  omega

/-- From index `i` on, the slots of `buf` hold the items of the list, in order. -/
def Holds (buf : Fin c → α) : BitVec w → List α → Prop
  | _, [] => True
  | i, a :: rest => buf (slot c i) = a ∧ Holds buf (i + 1#w) rest

@[simp] theorem holds_nil (buf : Fin c → α) (i : BitVec w) : Holds buf i [] := trivial

theorem holds_cons {buf : Fin c → α} {i : BitVec w} {a : α} {rest : List α} :
    Holds buf i (a :: rest) ↔ buf (slot c i) = a ∧ Holds buf (i + 1#w) rest := Iff.rfl

private theorem succ_add_ofNat (i : BitVec w) (n : ℕ) :
    i + 1#w + BitVec.ofNat w n = i + BitVec.ofNat w (n + 1) := by
  rw [BitVec.add_assoc, ← BitVec.ofNat_add, Nat.add_comm 1 n]

/-- Writing a slot beyond the list leaves the list in place. -/
theorem Holds.update_beyond (hc : c ∣ 2 ^ w) {buf : Fin c → α} {i : BitVec w} {q : List α}
    (h : Holds buf i q) {n : ℕ} (hq : q.length ≤ n) (hn : n < c) (a : α) :
    Holds (Function.update buf (slot c (i + BitVec.ofNat w n)) a) i q := by
  induction q generalizing i n with
  | nil => trivial
  | cons b rest ih =>
    obtain ⟨hhead, htail⟩ := holds_cons.mp h
    rw [List.length_cons] at hq
    -- Seen from the tail, the written slot is one step nearer.
    obtain ⟨m, rfl⟩ : ∃ m, n = m + 1 := ⟨n - 1, by omega⟩
    refine holds_cons.mpr ⟨?_, ?_⟩
    · rw [Function.update_of_ne (slot_add_ne hc i (by omega) hn).symm, hhead]
    · rw [← succ_add_ofNat]
      exact ih htail (by omega) (by omega)

/-- Once the slot after the list holds `a`, the ring holds the list with `a` appended. -/
theorem Holds.push {buf : Fin c → α} {i : BitVec w} {q : List α} {a : α} (h : Holds buf i q)
    (ha : buf (slot c (i + BitVec.ofNat w q.length)) = a) : Holds buf i (q ++ [a]) := by
  induction q generalizing i with
  | nil => exact ⟨by simpa using ha, trivial⟩
  | cons b rest ih =>
    obtain ⟨hhead, htail⟩ := holds_cons.mp h
    refine holds_cons.mpr ⟨hhead, ih htail ?_⟩
    rw [succ_add_ofNat]
    exact ha

/-- The front of a non-empty list sits in the first slot, the rest from the next index
on. -/
theorem Holds.pop {buf : Fin c → α} {i : BitVec w} {q : List α} (h : Holds buf i q)
    (hq : 0 < q.length) : ∃ rest, q = buf (slot c i) :: rest ∧ Holds buf (i + 1#w) rest := by
  cases q with
  | nil => simp at hq
  | cons a rest =>
    obtain ⟨rfl, htail⟩ := holds_cons.mp h
    exact ⟨rest, rfl, htail⟩

/-- The `n`-th item sits in the slot of the `n`-th index. -/
theorem Holds.getElem {buf : Fin c → α} {i : BitVec w} {q : List α} (h : Holds buf i q) {n : ℕ}
    (hn : n < q.length) : buf (slot c (i + BitVec.ofNat w n)) = q[n] := by
  induction q generalizing i n with
  | nil => simp at hn
  | cons a rest ih =>
    obtain ⟨hhead, htail⟩ := holds_cons.mp h
    cases n with
    | zero => simpa using hhead
    | succ n =>
      rw [← succ_add_ofNat]
      exact ih htail (by simpa using hn)

end Sel4Xhci.Semantics.FreeRunning
