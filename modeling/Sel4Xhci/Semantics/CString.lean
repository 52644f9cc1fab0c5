import Mathlib.Algebra.Group.Nat.Defs
import Mathlib.Data.List.TakeWhile

/-!
# Strings in memory

A C string is what memory holds from a pointer up to the first NUL. Memory is given as the
list of bytes from the pointer on; it may go on behind the object that the pointer names.

## Main definitions

* `string`, `strlen` — the string a pointer names
* `overwrite` — the first bytes of a memory replaced by others
* `strncpy` — the copy of at most `n` bytes, which need not end in a NUL
* `atoi` — the number a string starts with
* `Memory` — the memory of an array, with loads and stores by index

## Main results

* `copied_strlen` — a copy of exactly the length of the source leaves out its NUL
* `string_overwrite` — so the destination holds the same string only if a NUL follows
  there already
-/

set_option autoImplicit false

namespace Sel4Xhci.Semantics.CString

/-- A `char`. -/
abbrev Byte := BitVec 8

/-- The bytes up to the first NUL. -/
def string (mem : List Byte) : List Byte := mem.takeWhile (· != 0#8)

/-- `strlen`. -/
def strlen (mem : List Byte) : ℕ := (string mem).length

/-- The bytes `new` stored from the pointer on. -/
def overwrite (mem new : List Byte) : List Byte := new.take mem.length ++ mem.drop new.length

/-- What `strncpy` stores: at most `n` bytes of the source, which is filled up with NULs if it
is shorter. -/
def copied (src : List Byte) (n : ℕ) : List Byte :=
  (string src).take n ++ List.replicate (n - strlen src) 0#8

/-- `strncpy`. -/
def strncpy (dst src : List Byte) (n : ℕ) : List Byte := overwrite dst (copied src n)

/-- The value of an ASCII digit. -/
def digit? (b : Byte) : Option ℕ :=
  if 0x30#8 ≤ b ∧ b ≤ 0x39#8 then some (b.toNat - 0x30) else none

/-- The number that the digits at the start of a string make up, behind those already read. -/
def digits : ℕ → List Byte → ℕ
  | n, [] => n
  | n, b :: bytes =>
    match digit? b with
    | some d => digits (10 * n + d) bytes
    | none => n

/-- `isspace`, in the C locale. -/
def isspace (b : Byte) : Bool := b == 0x20#8 || (0x09#8 ≤ b && b ≤ 0x0d#8)

/-- `atoi`: `strtol` to base 10, with its saturation at 64 bits, cut down to an `int`. -/
def atoi (s : List Byte) : BitVec 32 :=
  let magnitude (negative : Bool) (bytes : List Byte) : BitVec 32 :=
    if negative then BitVec.ofInt 32 (-(min (digits 0 bytes) (2 ^ 63) : ℕ))
    else BitVec.ofNat 32 (min (digits 0 bytes) (2 ^ 63 - 1))
  match s.dropWhile isspace with
  | [] => 0#32
  | b :: bytes =>
    if b = 0x2d#8 then magnitude true bytes
    else if b = 0x2b#8 then magnitude false bytes
    else magnitude false (b :: bytes)

section Strings

variable {s mem rest : List Byte}

theorem length_copied (src : List Byte) (n : ℕ) : (copied src n).length = n := by
  rw [copied, List.length_append, List.length_take, List.length_replicate, strlen]
  omega

/-- A copy of the length of the source leaves out its NUL. -/
theorem copied_strlen (src : List Byte) : copied src (strlen src) = string src := by
  simp [copied, strlen]

/-- The string ends where a NUL stands, or with the memory. -/
theorem string_append (hs : 0#8 ∉ s) (hrest : ∀ b ∈ rest.head?, b = 0#8) :
    string (s ++ rest) = s := by
  induction s with
  | nil =>
    cases rest with
    | nil => rfl
    | cons b rest =>
      obtain rfl : b = 0#8 := hrest b rfl
      rfl
  | cons b s ih =>
    simp only [List.mem_cons, not_or] at hs
    obtain ⟨hb, hs⟩ := hs
    simp only [string, List.cons_append] at ih ⊢
    rw [List.takeWhile_cons_of_pos (by simpa using Ne.symm hb), ih hs]

/-- It ends there at the latest, if there are NULs before. -/
theorem strlen_append_le (s : List Byte) (hrest : ∀ b ∈ rest.head?, b = 0#8) :
    strlen (s ++ rest) ≤ s.length := by
  induction s with
  | nil =>
    rw [strlen, string_append List.not_mem_nil hrest]
  | cons b s ih =>
    by_cases hb : b = 0#8
    · simp [strlen, string, hb]
    · simpa [strlen, string, hb] using ih

theorem nul_notMem_string (mem : List Byte) : 0#8 ∉ string mem := by
  intro hmem
  simpa using List.mem_takeWhile_imp hmem

/-- A string is empty if memory starts with a NUL, or not at all. -/
theorem strlen_eq_zero_iff : strlen mem = 0 ↔ ∀ b ∈ mem.head?, b = 0#8 := by
  cases mem with
  | nil => simp [strlen, string]
  | cons b mem => by_cases hb : b = 0#8 <;> simp [strlen, string, hb]

theorem head?_overwrite (hmem : mem ≠ []) (hs : s ≠ []) : (overwrite mem s).head? = s.head? := by
  obtain ⟨b, mem, rfl⟩ := List.exists_cons_of_ne_nil hmem
  obtain ⟨c, s, rfl⟩ := List.exists_cons_of_ne_nil hs
  rfl

/-- A NUL ends the string. -/
theorem strlen_le_of_nul {i : ℕ} (h : mem[i]? = some 0#8) : strlen mem ≤ i := by
  obtain ⟨hi, hnul⟩ := List.getElem?_eq_some_iff.mp h
  have hsplit : mem = mem.take i ++ mem.drop i := (List.take_append_drop i mem).symm
  have hrest : ∀ b ∈ (mem.drop i).head?, b = 0#8 := by
    rw [List.head?_drop, h]
    rintro b hb
    exact (Option.some.inj hb).symm
  have hle := strlen_append_le (mem.take i) hrest
  rw [← hsplit, List.length_take, Nat.min_eq_left hi.le] at hle
  exact hle

/-- What lies behind the bytes that are stored stays as it is. -/
theorem getElem?_overwrite {i : ℕ} (h : s.length ≤ i) : (overwrite mem s)[i]? = mem[i]? := by
  rw [overwrite]
  rcases le_total s.length mem.length with hle | hle
  · have htake : (s.take mem.length).length = s.length := by
      rw [List.length_take, Nat.min_eq_right hle]
    rw [List.getElem?_append_right (by omega), List.getElem?_drop, htake]
    congr 1
    omega
  · rw [List.getElem?_eq_none (by simp; omega), List.getElem?_eq_none (by omega)]

/-- Bytes stored without a NUL are the string only if a NUL follows there already. -/
theorem string_overwrite (hs : 0#8 ∉ s) (hnul : mem[s.length]? = some 0#8) :
    string (overwrite mem s) = s := by
  obtain ⟨hlt, -⟩ := List.getElem?_eq_some_iff.mp hnul
  rw [overwrite, List.take_of_length_le hlt.le]
  refine string_append hs fun b hb => ?_
  rw [List.head?_drop, hnul] at hb
  exact (Option.some.inj hb).symm

/-- Memory is its string and what comes from the NUL on. -/
theorem exists_eq_string_append (mem : List Byte) :
    ∃ rest, mem = string mem ++ rest ∧ ∀ b ∈ rest.head?, b = 0#8 := by
  induction mem with
  | nil => exact ⟨[], rfl, nofun⟩
  | cons b mem ih =>
    by_cases hb : b = 0#8
    · exact ⟨b :: mem, by simp [string, hb], by simp [hb]⟩
    · obtain ⟨rest, hmem, hrest⟩ := ih
      refine ⟨rest, ?_, hrest⟩
      rw [string, List.takeWhile_cons_of_pos (by simpa using hb), List.cons_append]
      exact congrArg _ hmem

end Strings

/-- The bytes of an array of `size` bytes, and of what lies behind it. -/
@[ext]
structure Memory (size : ℕ) where
  bytes : List Byte
  size_le : size ≤ bytes.length

namespace Memory

variable {size : ℕ} (mem : Memory size)

/-- `mem[i]`. In front of the array and behind the known memory nothing is known; 0 stands for
that. -/
def load (i : ℤ) : Byte := if 0 ≤ i then mem.bytes.getD i.toNat 0#8 else 0#8

/-- `mem[i] = b`. -/
def store (i : ℤ) (b : Byte) : Memory size where
  bytes := if 0 ≤ i then mem.bytes.set i.toNat b else mem.bytes
  size_le := by
    have hsize := mem.size_le
    split_ifs <;> simpa

/-- The bytes `new` stored from index 0 on. -/
def fill (new : List Byte) : Memory size where
  bytes := overwrite mem.bytes new
  size_le := by
    have hsize := mem.size_le
    rw [overwrite, List.length_append, List.length_take, List.length_drop]
    omega

/-- An array of zeros that starts with a given text. -/
def ofText (size : ℕ) (s : List Byte) : Memory size where
  bytes := s ++ List.replicate (size - s.length) 0#8
  size_le := by
    rw [List.length_append, List.length_replicate]
    omega

theorem bytes_ne_nil (h : 0 < size) : mem.bytes ≠ [] := by
  intro hnil
  have hsize := mem.size_le
  rw [hnil, List.length_nil] at hsize
  omega

@[simp] theorem load_natCast (i : ℕ) : mem.load i = mem.bytes.getD i 0#8 := by
  simp [load]

@[simp] theorem store_natCast (i : ℕ) (b : Byte) : (mem.store i b).bytes = mem.bytes.set i b := by
  simp [store]

@[simp] theorem fill_bytes (new : List Byte) : (mem.fill new).bytes = overwrite mem.bytes new := rfl

/-- What a fill of the whole array leaves in it. -/
theorem load_fill {new : List Byte} (hnew : new.length = size) {i : ℕ} (hi : i < size) :
    (mem.fill new).load i = new[i] := by
  have hsize := mem.size_le
  have hshort : i < (new.take mem.bytes.length).length := by
    rw [List.length_take]
    omega
  rw [load_natCast, fill_bytes, overwrite, List.getD_eq_getElem?_getD,
    List.getElem?_append_left hshort]
  simp [hi, hnew, show i < mem.bytes.length by omega]

end Memory

end Sel4Xhci.Semantics.CString
