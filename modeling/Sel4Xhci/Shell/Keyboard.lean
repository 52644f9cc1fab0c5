import Mathlib.Data.List.FinRange
import Sel4Xhci.Shell.Basic

/-!
# Keys in a keyboard report

A report lists the keys that are down, in six slots and in any order. `handle_keypress`
compares it with the report before and takes the last slot that holds a new key. It notes the
slot in a variable that starts at -1, and uses it as an index even if no slot was found.

## Main definitions

* `Report` — a report, as the bytes around its address
* `detectKey` — the code
* `Detects` — what the code ought to find in a report

## Main results

* `detectKey_eq` — which byte is taken for the key
* `detects_iff` — in which reports the code finds what it ought to
* `understood_iff` — in which sequences of reports it does so all along
-/

set_option autoImplicit false

namespace Sel4Xhci.Shell

open Semantics Semantics.CString Semantics.Program

/-- The memory around a report, by the distance from its address. The report itself is bytes
0 to 7. -/
abbrev Report := ℤ → Byte

/-- `keysDown`. Its entries are pointers; what is stored and compared are bytes. -/
abbrev KeysDown := Fin 8 → Byte

/-- The slots of a report: `i` or `j` from 2 to `MAX_KEYS + 1`. -/
abbrev slots : List (Fin 8) := [2, 3, 4, 5, 6, 7]

/-- The offset of a slot. -/
def slotOffset (i : Fin 8) : ℤ := i.val

/-- `((char *) buffer)[i]`. -/
def readReport {σ : Type} (report : Report) (i : ℤ) : Code σ Byte := do
  Program.emit [.report i]
  pure (report i)

/-- The loop over `j`: what becomes of `temp_unique_id`. -/
def compareLoop (report : Report) (keysDown : KeysDown) (i : ℤ) :
    List (Fin 8) → ℤ → Code KeysDown ℤ
  | [], tempUniqueId => pure tempUniqueId
  | j :: js, _ => do
    let b ← readReport report i
    if b = keysDown j then pure (-1) else compareLoop report keysDown i js i

/-- The loop over `i`: what becomes of `unique_id`. -/
def uniqueLoop (report : Report) (keysDown : KeysDown) :
    List (Fin 8) → ℤ → ℤ → Code KeysDown ℤ
  | [], _, uniqueId => pure uniqueId
  | i :: is, tempUniqueId, uniqueId => do
    let b ← readReport report (slotOffset i)
    if b ≠ 0#8 then
      let tempUniqueId ← compareLoop report keysDown (slotOffset i) slots tempUniqueId
      uniqueLoop report keysDown is tempUniqueId
        (if tempUniqueId ≠ -1 then tempUniqueId else uniqueId)
    else uniqueLoop report keysDown is tempUniqueId uniqueId

/-- The loop that takes the report over into `keysDown`. -/
def updateLoop (report : Report) : List (Fin 8) → Code KeysDown Unit
  | [] => pure ()
  | i :: is => do
    let b ← readReport report (slotOffset i)
    Program.modify fun keysDown => Function.update keysDown i b
    updateLoop report is

/-- `handle_keypress`, from "get unique keypress" to "update previous buffer": `keyPressed`. -/
def detectKey (report : Report) : Code KeysDown Byte := do
  let keysDown ← Program.get
  let uniqueId ← uniqueLoop report keysDown slots (-1) (-1)
  let keyPressed ← readReport report uniqueId
  updateLoop report slots
  pure keyPressed

/-! ## What the loops find -/

/-- Slot `i` of the report holds a key that was not down. -/
def NewIn (keysDown : KeysDown) (report : Report) (i : Fin 8) : Prop :=
  report (slotOffset i) ≠ 0#8 ∧ ∀ j ∈ slots, report (slotOffset i) ≠ keysDown j

instance (keysDown : KeysDown) (report : Report) (i : Fin 8) :
    Decidable (NewIn keysDown report i) := inferInstanceAs (Decidable (_ ∧ _))

/-- The slot that is noted among `is`: the last one with a new key, and `unique` if there is
none. -/
def notedSlot (keysDown : KeysDown) (report : Report) (is : List (Fin 8)) (unique : ℤ) : ℤ :=
  is.foldl (fun unique i => if NewIn keysDown report i then slotOffset i else unique) unique

/-- `keyPressed`: without a new key, it is the byte in front of the report. -/
def pressedKey (keysDown : KeysDown) (report : Report) : Byte :=
  report (notedSlot keysDown report slots (-1))

/-- `keysDown` after a report. -/
def nextKeys (report : Report) (keysDown : KeysDown) : KeysDown := fun j =>
  if j ∈ slots then report (slotOffset j) else keysDown j

section Loops

variable (report : Report) (keysDown : KeysDown)

theorem readReport_run {σ : Type} (i : ℤ) (s : σ) :
    readReport report i s = ⟨.ok (report i), [.report i], s⟩ := rfl

/-- Whatever `temp_unique_id` was before, the inner loop sets it anew. -/
theorem compareLoop_run (i : ℤ) (js : List (Fin 8)) {temp : ℤ} (htemp : js = [] → temp = i) :
    ∃ reads, compareLoop report keysDown i js temp keysDown =
        ⟨.ok (if ∀ j ∈ js, report i ≠ keysDown j then i else -1), reads, keysDown⟩ ∧
      ∀ e ∈ reads, e = .report i := by
  induction js generalizing temp with
  | nil => exact ⟨[], by simp [compareLoop, htemp, pure_run], nofun⟩
  | cons j js ih =>
    rw [compareLoop, bind_ok (readReport_run report i keysDown)]
    by_cases hj : report i = keysDown j
    · refine ⟨[.report i], ?_, by simp⟩
      rw [if_pos hj, if_neg (by simp [hj])]
      rfl
    · obtain ⟨reads, hrun, hreads⟩ := ih fun _ => rfl
      refine ⟨.report i :: reads, ?_, by simpa using hreads⟩
      rw [if_neg hj, hrun]
      simp [Outcome.after, hj]

theorem slotOffset_ne (i : Fin 8) : slotOffset i ≠ -1 := by
  unfold slotOffset
  omega

/-- One slot: it is noted if it holds a new key. -/
theorem uniqueLoop_cons (i : Fin 8) (is : List (Fin 8)) (temp unique : ℤ) :
    ∃ temp' reads, uniqueLoop report keysDown (i :: is) temp unique keysDown =
        (uniqueLoop report keysDown is temp'
          (if NewIn keysDown report i then slotOffset i else unique) keysDown).after reads ∧
      ∀ e ∈ reads, e = .report (slotOffset i) := by
  rw [uniqueLoop, bind_ok (readReport_run report _ keysDown)]
  by_cases hzero : report (slotOffset i) = 0#8
  · have hold : ¬ NewIn keysDown report i := fun hnew => hnew.1 hzero
    rw [if_neg (not_not.mpr hzero), if_neg hold]
    exact ⟨temp, _, rfl, by simp⟩
  · obtain ⟨reads, hcompare, hreads⟩ := compareLoop_run report keysDown (slotOffset i)
      slots (nofun : slots = [] → temp = slotOffset i)
    have hnoted :
        (if (if ∀ j ∈ slots, report (slotOffset i) ≠ keysDown j then slotOffset i else -1) ≠ -1
          then (if ∀ j ∈ slots, report (slotOffset i) ≠ keysDown j then slotOffset i else -1)
          else unique) = if NewIn keysDown report i then slotOffset i else unique := by
      simp only [NewIn, ne_eq, hzero, not_false_eq_true, true_and]
      split_ifs <;> simp_all [slotOffset_ne]
    rw [if_pos hzero, bind_ok hcompare, hnoted, after_after]
    exact ⟨_, _, rfl, by simpa using hreads⟩

/-- The outer loop looks at slots only. -/
theorem uniqueLoop_run (is : List (Fin 8)) (temp unique : ℤ) :
    ∃ reads, uniqueLoop report keysDown is temp unique keysDown =
        ⟨.ok (notedSlot keysDown report is unique), reads, keysDown⟩ ∧
      ∀ e ∈ reads, ∃ i ∈ is, e = .report (slotOffset i) := by
  induction is generalizing temp unique with
  | nil => exact ⟨[], rfl, nofun⟩
  | cons i is ih =>
    obtain ⟨temp', first, hstep, hfirst⟩ := uniqueLoop_cons report keysDown i is temp unique
    obtain ⟨reads, hrun, hreads⟩ := ih temp'
      (if NewIn keysDown report i then slotOffset i else unique)
    rw [hstep, hrun]
    refine ⟨_, rfl, fun e he => ?_⟩
    rcases List.mem_append.mp he with he | he
    · exact ⟨i, List.mem_cons_self, hfirst e he⟩
    · obtain ⟨j, hj, hej⟩ := hreads e he
      exact ⟨j, List.mem_cons_of_mem i hj, hej⟩

/-- A slot with a new key is noted, if there is one. -/
theorem notedSlot_spec (is : List (Fin 8)) (unique : ℤ) :
    (∃ i ∈ is, NewIn keysDown report i ∧ notedSlot keysDown report is unique = slotOffset i) ∨
      (∀ i ∈ is, ¬ NewIn keysDown report i) ∧ notedSlot keysDown report is unique = unique := by
  induction is generalizing unique with
  | nil => exact .inr ⟨nofun, rfl⟩
  | cons i is ih =>
    rw [notedSlot, List.foldl_cons]
    rcases ih (if NewIn keysDown report i then slotOffset i else unique) with
      ⟨j, hj, hnew, hnoted⟩ | ⟨hnone, hnoted⟩
    · exact .inl ⟨j, List.mem_cons_of_mem i hj, hnew, hnoted⟩
    · by_cases hnew : NewIn keysDown report i
      · rw [if_pos hnew] at hnoted ⊢
        exact .inl ⟨i, List.mem_cons_self, hnew, hnoted⟩
      · rw [if_neg hnew] at hnoted ⊢
        exact .inr ⟨List.forall_mem_cons.mpr ⟨hnew, hnone⟩, hnoted⟩

theorem updateLoop_run (is : List (Fin 8)) :
    updateLoop report is keysDown = ⟨.ok (), is.map fun i => .report (slotOffset i),
      fun j => if j ∈ is then report (slotOffset j) else keysDown j⟩ := by
  induction is generalizing keysDown with
  | nil => simp [updateLoop, pure_run]
  | cons i is ih =>
    have hmodify : (modify fun keysDown => Function.update keysDown i (report (slotOffset i)) :
        Code KeysDown Unit) keysDown =
        ⟨.ok (), [], Function.update keysDown i (report (slotOffset i))⟩ := rfl
    rw [updateLoop, bind_ok (readReport_run report _ keysDown), bind_ok hmodify, ih]
    simp only [Outcome.after, List.nil_append, List.singleton_append, List.map_cons]
    congr 1
    funext j
    by_cases hj : j = i
    · simp [hj]
    · simp [hj, Function.update_of_ne]

/-- What is read of a report, and what is taken for the key. -/
theorem detectKey_eq :
    ∃ reads, detectKey report keysDown =
        ⟨.ok (pressedKey keysDown report), reads, nextKeys report keysDown⟩ ∧
      .report (notedSlot keysDown report slots (-1)) ∈ reads ∧
      ∀ e ∈ reads, e = .report (notedSlot keysDown report slots (-1)) ∨
        ∃ i ∈ slots, e = .report (slotOffset i) := by
  obtain ⟨reads, hunique, hreads⟩ := uniqueLoop_run report keysDown slots (-1) (-1)
  refine ⟨reads ++ .report (notedSlot keysDown report slots (-1)) ::
    slots.map fun i => .report (slotOffset i), ?_, ?_, ?_⟩
  · rw [detectKey, bind_ok (get_run keysDown), bind_ok hunique,
      bind_ok (readReport_run report _ keysDown),
      bind_ok (updateLoop_run report keysDown slots)]
    simp only [pure_run, Outcome.after, List.nil_append, List.append_nil, List.singleton_append]
    rfl
  · simp
  · intro e he
    rcases List.mem_append.mp he with he | he
    · exact .inr (hreads e he)
    · rcases List.mem_cons.mp he with rfl | he
      · exact .inl rfl
      · obtain ⟨i, hi, rfl⟩ := List.mem_map.mp he
        exact .inr ⟨i, hi, rfl⟩

end Loops

/-! ## Sequences of reports -/

/-- `keysDown` after some reports; it is all zero at first. -/
def keysAfter (reports : List Report) : KeysDown :=
  reports.foldl (fun keysDown report => (detectKey report keysDown).state) fun _ => 0#8

/-- Bytes 2 to 7 of the last report. -/
def previousKeys (reports : List Report) : KeysDown :=
  match reports.getLast? with
  | some report => fun j => report (slotOffset j)
  | none => fun _ => 0#8

/-- A code among bytes 2 to 7 of a report that was not there in the report before. -/
def IsNewKey (previous : KeysDown) (report : Report) (key : Byte) : Prop :=
  key ≠ 0#8 ∧ (∃ i ∈ slots, report (slotOffset i) = key) ∧ ∀ j ∈ slots, previous j ≠ key

/-- What ought to be found: a key is taken to be pressed exactly when there is a new one, it is
a new one, and nothing but the report is read. -/
structure Detects (previous : KeysDown) (report : Report) (o : Outcome KeysDown Event Stop Byte) :
    Prop where
  press : ∃ keyPressed, o.result = .ok keyPressed ∧
    (keyPressed ≠ 0#8 ↔ ∃ key, IsNewKey previous report key) ∧
    (keyPressed ≠ 0#8 → IsNewKey previous report keyPressed)
  reads : ∀ i, .report i ∈ o.events → 0 ≤ i ∧ i < 8

/-- All reports of a sequence are understood. -/
def Understood (reports : List Report) : Prop :=
  ∀ before report after, reports = before ++ report :: after →
    Detects (previousKeys before) report (detectKey report (keysAfter before))

section Sequences

variable {previous keysDown : KeysDown} {report : Report}

/-- The code's record of the keys that are down is the last report. -/
theorem keysAfter_slot (reports : List Report) {j : Fin 8} (hj : j ∈ slots) :
    keysAfter reports j = previousKeys reports j := by
  rcases List.eq_nil_or_concat reports with rfl | ⟨before, report, rfl⟩
  · rfl
  · obtain ⟨reads, hrun, -⟩ := detectKey_eq report (keysAfter before)
    have hlast : keysAfter (before ++ [report]) = nextKeys report (keysAfter before) := by
      rw [keysAfter, List.foldl_append]
      change (detectKey report (keysAfter before)).state = _
      rw [hrun]
    rw [List.concat_eq_append, hlast, nextKeys, if_pos hj, previousKeys, List.getLast?_concat]

theorem exists_isNewKey_iff (hprevious : ∀ j ∈ slots, keysDown j = previous j) :
    (∃ key, IsNewKey previous report key) ↔ ∃ i ∈ slots, NewIn keysDown report i := by
  constructor
  · rintro ⟨_, hne, ⟨i, hi, rfl⟩, hnew⟩
    exact ⟨i, hi, hne, fun j hj => (hprevious j hj ▸ (hnew j hj).symm)⟩
  · rintro ⟨i, hi, hne, hnew⟩
    exact ⟨_, hne, ⟨i, hi, rfl⟩, fun j hj => (hprevious j hj ▸ (hnew j hj).symm)⟩

/-- A report is understood exactly when it has a new key: otherwise the byte in front of it is
read. -/
theorem detects_iff (hprevious : ∀ j ∈ slots, keysDown j = previous j) :
    Detects previous report (detectKey report keysDown) ↔
      ∃ key, IsNewKey previous report key := by
  obtain ⟨reads, hrun, hread, hreads⟩ := detectKey_eq report keysDown
  have hnoted := notedSlot_spec report keysDown slots (-1)
  rw [hrun, pressedKey]
  constructor
  · -- Without a new key the byte in front of the report is read, which is outside it.
    intro h
    rcases hnoted with ⟨i, hi, hnew, -⟩ | ⟨-, hnoted⟩
    · exact (exists_isNewKey_iff hprevious).mpr ⟨i, hi, hnew⟩
    · rw [hnoted] at hread
      exact absurd (h.reads (-1) hread).1 (by decide)
  · intro hsome
    rcases hnoted with ⟨i, hi, hnew, hnoted⟩ | ⟨hnone, -⟩
    · rw [hnoted] at hreads ⊢
      have hkey : IsNewKey previous report (report (slotOffset i)) :=
        ⟨hnew.1, ⟨i, hi, rfl⟩, fun j hj => (hprevious j hj ▸ (hnew.2 j hj).symm)⟩
      refine ⟨⟨_, rfl, iff_of_true hnew.1 hsome, fun _ => hkey⟩, fun k hk => ?_⟩
      have hslot : ∃ j, k = slotOffset j := by
        rcases hreads _ hk with heq | ⟨j, -, heq⟩
        · exact ⟨i, Event.report.inj heq⟩
        · exact ⟨j, Event.report.inj heq⟩
      obtain ⟨j, rfl⟩ := hslot
      unfold slotOffset
      omega
    · obtain ⟨i, hi, hnew⟩ := (exists_isNewKey_iff hprevious).mp hsome
      exact absurd hnew (hnone i hi)

end Sequences

/-- A sequence of reports is understood exactly when each of them has a new key. -/
theorem understood_iff (reports : List Report) :
    Understood reports ↔ ∀ before report after, reports = before ++ report :: after →
      ∃ key, IsNewKey (previousKeys before) report key := by
  have hreport : ∀ before report,
      Detects (previousKeys before) report (detectKey report (keysAfter before)) ↔
        ∃ key, IsNewKey (previousKeys before) report key :=
    fun before report => detects_iff fun j hj => keysAfter_slot before hj
  exact forall_congr' fun before => forall_congr' fun report => forall_congr' fun after =>
    imp_congr_right fun _ => hreport before report

/-- A report in which the key of code 4 is down. -/
def pressReport : Report := fun i => if i = 2 then 4#8 else 0#8

/-- A report in which no key is down, behind a byte that is not zero. -/
def releaseReport : Report := fun i => if i = -1 then 0x29#8 else 0#8

/-- The release of a key passes for the press of another one. -/
theorem release_passes_for_press :
    (detectKey releaseReport (keysAfter [pressReport])).result = .ok 0x29#8 ∧
      ¬ Understood [pressReport, releaseReport] := by
  refine ⟨rfl, fun h => ?_⟩
  have hdetects := h [pressReport] releaseReport [] rfl
  obtain ⟨_, hne, ⟨i, hi, rfl⟩, -⟩ := (detects_iff fun j hj => keysAfter_slot _ hj).mp hdetects
  have hreleased : ∀ i ∈ slots, releaseReport (slotOffset i) = 0#8 := by decide
  exact hne (hreleased i hi)

end Sel4Xhci.Shell
