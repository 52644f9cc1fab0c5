import Sel4Xhci.Shell.Reset
import Sel4Xhci.Shell.Typing

/-!
# The bounds of the line

Neither the cursor nor the length of the line is ever checked against the end of `cmd` when a
character is entered in the middle, the local copy of a line is shorter than the longest line,
and a recall looks for a terminator that nobody has to have written.

## Main definitions

* `StaysInCmd` — a key is handled within the arrays, and leaves cursor and length in order
* `RoomFor` — there is room for what a key does

## Main results

* `staysInCmd_of_room` — a run whose keys all find room stays within the arrays
-/

set_option autoImplicit false

namespace Sel4Xhci.Shell

open Semantics Semantics.CString Semantics.Program Umass

variable {RQ : Fifo BlkReq} {SQ : Fifo Answer}

/-- An access to an array of the shell is within the array. -/
def Event.InBounds : Event → Prop
  | .cmd i => 0 ≤ i ∧ i < CMD_LIMIT
  | .hist i => 0 ≤ i ∧ i < HIST_SIZE
  | _ => True

/-- Cursor and length are in order. -/
structure LineInv (e : Editor) : Prop where
  nonneg : 0 ≤ e.cursorIndex
  cursor_le : e.cursorIndex ≤ e.cmdLen
  lt : e.cmdLen < CMD_LIMIT

/-- A key is handled within the arrays, and leaves cursor and length in order. -/
structure StaysInCmd (o : Outcome (ShellState RQ SQ) Event Stop Unit) : Prop where
  accesses : ∀ e ∈ o.events, e.InBounds
  line : o.result = .ok () → LineInv o.state.toEditor

/-- The text that a recall copies to `cmd`; behind the newest entry there is none. -/
def recalled (s : ShellState RQ SQ) (direction : ℤ) : List Byte :=
  if InHistory s.toHistory (s.cmdHistCursor + direction) then
    ((s.slot (s.cmdHistCursor + direction)).map string).getD []
  else []

/-- `cmd` holds a NUL, and not where the text to be copied goes. -/
def Terminated (s : ShellState RQ SQ) (direction : ℤ) : Prop :=
  AtOldest s.toHistory direction ∨
    ∃ i < CMD_LIMIT, (recalled s direction).length ≤ i ∧ s.cmd.bytes[i]? = some 0#8

instance (s : ShellState RQ SQ) (direction : ℤ) : Decidable (Terminated s direction) :=
  inferInstanceAs (Decidable (_ ∨ _))

/-- There is room for what a key does: for one more character and the terminator of the line,
for the local copy of the line, and for what a recall copies. -/
def RoomFor (s : ShellState RQ SQ) (keypress : Keysym) : Prop :=
  if keypress = KS_Return then
    0 < s.cmdLen → (typedLine s.toEditor).length ≤ HIST_SIZE
  else if keypress = KS_Up then Terminated s (-1)
  else if keypress = KS_Down then Terminated s 1
  else Printable keypress → s.cmdLen + 1 < CMD_LIMIT

instance (s : ShellState RQ SQ) (keypress : Keysym) : Decidable (RoomFor s keypress) := by
  unfold RoomFor; infer_instance

/-! ## Editing keys -/

/-- Cursor and length are as given. -/
def HasCursor (cursor length : ℤ) (e : Editor) : Prop :=
  e.cursorIndex = cursor ∧ e.cmdLen = length

section Cells

variable {P : Editor → Prop} {cursor length i : ℤ} {n : ℕ}

theorem printf_ensures {σ : Type} {P : σ → Prop} (text : String) :
    Ensures P (printf text : Code σ Unit) (fun _ => P) Event.InBounds :=
  .emit (by simp [Event.InBounds]) fun _ => id

theorem goBack_ensures {σ : Type} {P : σ → Prop} (n : ℕ) :
    Ensures P (goBack n : Code σ Unit) (fun _ => P) Event.InBounds := by
  refine .emit (fun event h => ?_) fun _ => id
  rw [List.eq_of_mem_replicate h]
  trivial

theorem readCmd_ensures (hi : 0 ≤ i ∧ i < CMD_LIMIT) :
    Ensures P (readCmd i) (fun _ => P) Event.InBounds := by
  refine .bind (.emit ?_ fun _ => id) fun _ => .get_bind fun e he => .pure fun _ h => h ▸ he
  simpa [Event.InBounds] using hi

theorem writeCmd_ensures (hi : 0 ≤ i ∧ i < CMD_LIMIT) (b : Byte) :
    Ensures (HasCursor cursor length) (writeCmd i b) (fun _ => HasCursor cursor length)
      Event.InBounds := by
  refine .bind (.emit ?_ fun _ => id) fun _ => .modify fun _ => id
  simpa [Event.InBounds] using hi

theorem closeGap_ensures (hi : 0 ≤ i) (hn : i + n < CMD_LIMIT) :
    Ensures (HasCursor cursor length) (closeGap n i) (fun _ => HasCursor cursor length)
      Event.InBounds := by
  induction n generalizing i with
  | zero => exact .pure fun _ => id
  | succ n ih =>
    exact .bind (readCmd_ensures ⟨by omega, by omega⟩) fun b =>
      .bind (writeCmd_ensures ⟨hi, by omega⟩ b) fun _ =>
      .bind (readCmd_ensures ⟨hi, by omega⟩) fun _ =>
      .bind (printf_ensures _) fun _ => ih (by omega) (by omega)

theorem openGap_ensures (hn : n ≤ i + 1) (hi : i + 1 < CMD_LIMIT) :
    Ensures (HasCursor cursor length) (openGap n i) (fun _ => HasCursor cursor length)
      Event.InBounds := by
  induction n generalizing i with
  | zero => exact .pure fun _ => id
  | succ n ih =>
    exact .bind (readCmd_ensures ⟨by omega, by omega⟩) fun b =>
      .bind (writeCmd_ensures ⟨by omega, hi⟩ b) fun _ => ih (by omega) (by omega)

theorem printCells_ensures (hi : 0 ≤ i) (hn : i + n ≤ CMD_LIMIT) :
    Ensures P (printCells n i) (fun _ => P) Event.InBounds := by
  induction n generalizing i with
  | zero => exact .pure fun _ => id
  | succ n ih =>
    exact .bind (readCmd_ensures ⟨hi, by omega⟩) fun _ =>
      .bind (printf_ensures _) fun _ => ih (by omega) (by omega)

end Cells

section Keys

theorem LineInv.of_hasCursor {e : Editor} {cursor length : ℤ} (h : HasCursor cursor length e)
    (hnonneg : 0 ≤ cursor) (hle : cursor ≤ length) (hlt : length < CMD_LIMIT) : LineInv e :=
  ⟨h.1 ▸ hnonneg, h.1 ▸ h.2 ▸ hle, h.2 ▸ hlt⟩

theorem backSpace_ensures (keypress : Keysym) :
    Ensures LineInv (backSpace keypress) (fun _ => LineInv) Event.InBounds := by
  refine .get_bind fun e he => .ite (fun hpos => ?_) fun _ => .pure fun _ h => h ▸ he
  obtain ⟨hnonneg, hle, hlt⟩ := he
  let after : Unit → Editor → Prop := fun _ => HasCursor (e.cursorIndex - 1) (e.cmdLen - 1)
  have hdone : ∀ e', after () e' → LineInv e' := fun e' h =>
    .of_hasCursor h (by omega) (by omega) (by omega)
  have hclose : ∀ {n : ℕ} {i : ℤ}, 0 ≤ i → i + n < CMD_LIMIT →
      Ensures (after ()) (closeGap n i) after Event.InBounds := closeGap_ensures
  refine .bind (printf_ensures _) fun _ => .bind (Q := after) (.modify ?_) fun _ => ?_
  · rintro _ rfl
    exact ⟨rfl, rfl⟩
  refine .get_bind fun e₁ he₁ => .ite (fun hmiddle => ?_) fun _ => .pure fun _ h => h ▸ hdone _ he₁
  obtain ⟨hcursor, hlen⟩ := id he₁
  refine .bind ((hclose (by omega) (by omega)).mono ?_ (fun _ _ => id) fun _ => id) fun _ => ?_
  · rintro _ rfl
    exact he₁
  exact .bind (printf_ensures _) fun _ => (goBack_ensures _).mono (fun _ => id)
    (fun _ => hdone) fun _ => id

theorem moveLeft_ensures : Ensures LineInv moveLeft (fun _ => LineInv) Event.InBounds := by
  refine .get_bind fun e he => .ite (fun hpos => ?_) fun _ => .pure fun _ h => h ▸ he
  obtain ⟨hnonneg, hle, hlt⟩ := he
  refine .bind (printf_ensures _) fun _ => .modify ?_
  rintro _ rfl
  exact ⟨by dsimp only; omega, by dsimp only; omega, hlt⟩

theorem moveRight_ensures : Ensures LineInv moveRight (fun _ => LineInv) Event.InBounds := by
  refine .get_bind fun e he => .ite (fun hbefore => ?_) fun _ => .pure fun _ h => h ▸ he
  obtain ⟨hnonneg, hle, hlt⟩ := he
  refine .bind (readCmd_ensures ⟨hnonneg, by omega⟩) fun _ =>
    .bind (printf_ensures _) fun _ => .modify ?_
  rintro _ rfl
  exact ⟨by dsimp only; omega, by dsimp only; omega, hlt⟩

/-- A character that is entered in the middle moves the rest of the line, and one byte more. -/
theorem insertKey_ensures (keypress : Keysym) :
    Ensures (fun e => LineInv e ∧ (Printable keypress → e.cmdLen + 1 < CMD_LIMIT))
      (insertKey keypress) (fun _ => LineInv) Event.InBounds := by
  refine .get_bind fun e he => .ite (fun hin => ?_) fun _ => .pure fun _ h => h ▸ he.1
  obtain ⟨⟨hnonneg, hle, hlt⟩, hroom⟩ := he
  have hroom := hroom hin.2
  have hgap : Ensures (HasCursor e.cursorIndex e.cmdLen) (when (e.cursorIndex ≠ e.cmdLen) do
      openGap (e.cmdLen - e.cursorIndex + 1).toNat e.cmdLen
      printCells (e.cmdLen - e.cursorIndex).toNat (e.cursorIndex + 1)
      goBack ((e.cmdLen - e.cursorIndex + 1).toNat - 1))
      (fun _ => HasCursor e.cursorIndex e.cmdLen) Event.InBounds := by
    refine .ite (fun _ => ?_) fun _ => .pure fun _ => id
    exact .bind (openGap_ensures (by omega) (by omega)) fun _ =>
      .bind (printCells_ensures (by omega) (by omega)) fun _ => goBack_ensures _
  refine .bind (printf_ensures _) fun _ => .bind (hgap.mono ?_ (fun _ _ => id) fun _ => id)
    fun _ => .bind (Q := fun _ => HasCursor e.cursorIndex (e.cmdLen + 1)) (.modify ?_) fun _ =>
    .bind (writeCmd_ensures ⟨hnonneg, by omega⟩ _) fun _ => .modify ?_
  · rintro _ rfl
    exact ⟨rfl, rfl⟩
  · rintro e' ⟨hcursor, hlen⟩
    exact ⟨hcursor, congrArg (· + 1) hlen⟩
  · rintro e' ⟨hcursor, hlen⟩
    exact ⟨by dsimp only; omega, by dsimp only; omega, by dsimp only; omega⟩

/-- So the keys that edit the line stay within it. -/
theorem staysInCmd_of_ensures {p : Code Editor Unit} {P : Editor → Prop}
    (h : Ensures P p (fun _ => LineInv) Event.InBounds) {s : ShellState RQ SQ}
    (hs : P s.toEditor) : StaysInCmd (onEditor p s) :=
  ⟨(h s.toEditor hs).1, (h s.toEditor hs).2 ()⟩

end Keys

/-! ## Return -/

section Return

variable {s : ShellState RQ SQ}

/-- The line that is handed to the parser ends at `cmd_len`, at the latest. -/
theorem length_typedLine_le {e : Editor} (hpos : 0 ≤ e.cmdLen) (hlt : e.cmdLen < CMD_LIMIT) :
    (typedLine e).length ≤ e.cmdLen := by
  obtain ⟨n, hn⟩ := Int.eq_ofNat_of_zero_le hpos
  have hsize := e.cmd.size_le
  have hnul : (terminated e).cmd.bytes[n]? = some 0#8 := by
    rw [terminated, hn, Memory.store_natCast, List.getElem?_set_self (by omega)]
  have hle := strlen_le_of_nul hnul
  rw [hn]
  exact Int.ofNat_le.mpr hle

theorem CommandEvent.inBounds {c : Command} {args : List (List Byte)} {h : History} {e : Event}
    (he : CommandEvent c args h e) : e.InBounds := by
  cases he with
  | acts hemitted =>
    cases hemitted with
    | operation hop _ _ => cases e <;> trivial
    | _ => trivial
  | slot => trivial
  | clears hi => exact ⟨Int.natCast_nonneg _, Int.ofNat_lt.mpr hi⟩

theorem decodeCommand_staysInCmd (hinv : LineInv s.toEditor)
    (hcopy : 0 < s.cmdLen → (typedLine s.toEditor).length ≤ HIST_SIZE) :
    StaysInCmd (decodeCommand s) := by
  obtain ⟨hnonneg, hle, hlt⟩ := hinv
  constructor
  case accesses =>
    intro e he
    cases lineEvent_of_mem he with
    | prompt => trivial
    | compares _ => trivial
    | runs _ _ he => exact he.inBounds
    | prepares hlen he =>
      have hline := length_typedLine_le hlen.le hlt
      cases he with
      | terminator => exact ⟨hlen.le, hlt⟩
      | cmd hi => exact ⟨Int.natCast_nonneg _, by omega⟩
      | hist hi => exact ⟨Int.natCast_nonneg _, Int.ofNat_lt.mpr (hi.trans_le (hcopy hlen))⟩
      | split => trivial
  case line =>
    intro hret
    -- A command resets the line, apart from the one that keeps cursor and length.
    have hreset : ∀ {e : Editor}, e.cursorIndex = 0 → e.cmdLen = 0 → LineInv e := fun hc hl =>
      .of_hasCursor ⟨hc, hl⟩ le_rfl le_rfl (by decide)
    by_cases hlen : 0 < s.cmdLen
    case neg =>
      rw [decodeCommand_empty hlen]
      exact hreset rfl rfl
    obtain ⟨c, -, hending⟩ := ending_of_returns hlen hret
    by_cases hkbd : c = .kbdtest
    · subst hkbd
      rw [hending.1]
      exact ⟨hnonneg, hle, hlt⟩
    · cases c <;> first
        | contradiction
        | (rw [hending.1]; exact hreset rfl rfl)

end Return

/-! ## Recall -/

section Recall

variable {s : ShellState RQ SQ} {direction : ℤ} {i : ℕ}

theorem recalled_eq (hin : InHistory s.toHistory (s.cmdHistCursor + direction))
    {block : List Byte} (hslot : s.slot (s.cmdHistCursor + direction) = some block) :
    recalled s direction = string block := by
  rw [recalled, if_pos hin, hslot]
  rfl

/-- A NUL behind the text that is copied ends the line then. -/
theorem strlen_scrollMemory_lt (hi : i < CMD_LIMIT) (hbehind : (recalled s direction).length ≤ i)
    (hnul : s.cmd.bytes[i]? = some 0#8) {mem : Memory CMD_LIMIT}
    (hmem : scrollMemory s direction = some mem) : strlen mem.bytes < CMD_LIMIT := by
  by_cases hin : InHistory s.toHistory (s.cmdHistCursor + direction)
  · cases hslot : s.slot (s.cmdHistCursor + direction) with
    | none =>
      rw [scrollMemory, if_pos hin, hslot] at hmem
      cases hmem
    | some block =>
      rw [scrollMemory_within hin hslot] at hmem
      obtain rfl := Option.some.inj hmem
      rw [recalled_eq hin hslot] at hbehind
      rw [← getElem?_overwrite hbehind] at hnul
      exact (strlen_le_of_nul hnul).trans_lt hi
  · obtain ⟨mem', hmem', hempty⟩ := scrollMemory_behind hin
    obtain rfl := Option.some.inj (hmem.symm.trans hmem')
    rw [strlen, hempty]
    decide

theorem ScrollEvent.inBounds {e : Event} (he : ScrollEvent s direction e) (hi : i < CMD_LIMIT)
    (hbehind : (recalled s direction).length ≤ i) (hnul : s.cmd.bytes[i]? = some 0#8) :
    e.InBounds := by
  have hbound : ∀ {n : ℕ}, n < CMD_LIMIT → (Event.cmd n).InBounds := fun hn =>
    ⟨Int.natCast_nonneg _, Int.ofNat_lt.mpr hn⟩
  cases he with
  | printf => trivial
  | slot => trivial
  | reads hn => exact hbound ((hn.trans (strlen_le_of_nul hnul)).trans_lt hi)
  | clears => exact hbound (n := 0) (by decide)
  | shows hmem hn => exact hbound (hn.trans_lt (strlen_scrollMemory_lt hi hbehind hnul hmem))
  | copies hin hslot hn =>
    rw [recalled_eq hin hslot] at hbehind
    exact hbound ((hn.trans_le hbehind).trans hi)

theorem scrollHist_staysInCmd (hinv : LineInv s.toEditor) (h : Terminated s direction) :
    StaysInCmd (scrollHist direction s) := by
  by_cases hold : AtOldest s.toHistory direction
  · rw [scrollHist_oldest hold]
    exact ⟨nofun, fun _ => hinv⟩
  obtain ⟨i, hi, hbehind, hnul⟩ := h.resolve_left hold
  refine ⟨fun e he => (scrollEvent_of_mem he).inBounds hi hbehind hnul, fun hret => ?_⟩
  cases hmem : scrollMemory s direction with
  | none =>
    rw [scrollHist_null hold hmem] at hret
    cases hret
  | some mem =>
    rw [(scrollHist_returns hold hmem).state]
    exact ⟨Int.natCast_nonneg _, le_rfl,
      Int.ofNat_lt.mpr (strlen_scrollMemory_lt hi hbehind hnul hmem)⟩

end Recall

/-! ## Runs -/

/-- A key that finds room stays within the arrays. -/
theorem handleConsoleKey_staysInCmd {s : ShellState RQ SQ} {keypress : Keysym}
    (hinv : LineInv s.toEditor) (hroom : RoomFor s keypress) :
    StaysInCmd (handleConsoleKey keypress s) := by
  unfold RoomFor at hroom
  split_ifs at hroom with hreturn hup hdown
  · subst hreturn
    have hstays := decodeCommand_staysInCmd hinv hroom
    refine ⟨fun e he => ?_, hstays.line⟩
    rcases List.mem_cons.mp he with rfl | he
    · trivial
    · exact hstays.accesses e he
  · subst hup
    exact scrollHist_staysInCmd hinv hroom
  · subst hdown
    exact scrollHist_staysInCmd hinv hroom
  · unfold handleConsoleKey
    rw [if_neg hreturn, if_neg hup, if_neg hdown]
    split_ifs
    · exact staysInCmd_of_ensures (backSpace_ensures keypress) hinv
    · exact staysInCmd_of_ensures moveLeft_ensures hinv
    · exact staysInCmd_of_ensures moveRight_ensures hinv
    · exact staysInCmd_of_ensures (insertKey_ensures keypress) ⟨hinv, hroom⟩

/-- From an empty line, a run whose keys all find room stays within the arrays. -/
theorem staysInCmd_of_room {s : ShellState RQ SQ} {keys : List Keysym} (hstart : consoleRun.start s)
    (hroom : consoleRun.Along RoomFor s keys) :
    consoleRun.Along (fun s keypress => StaysInCmd (handleConsoleKey keypress s)) s keys := by
  have hempty : LineInv s.toEditor := .of_hasCursor hstart le_rfl le_rfl (by decide)
  refine hroom.strengthen (P := fun s => LineInv s.toEditor)
    (fun s keypress hinv hroom => ?_) hempty
  have hstays := handleConsoleKey_staysInCmd hinv hroom
  refine ⟨hstays, fun s' hs' => ?_⟩
  obtain ⟨⟨_, hret⟩, rfl⟩ := stateOf_eq_some.mp hs'
  exact hstays.line hret

/-- `?`, with a character deleted and another one in its place, and recalled. -/
theorem staysInCmd_of_room_eight :
    let s : ShellState oneReq oneAnswer := atPrompt [] .empty clearWorld
    let keys : List Keysym := [0x61#16, KS_Left, KS_Right, KS_BackSpace, 0x3f#16, KS_Return,
      KS_Up, KS_Down]
    consoleRun.Along (fun s keypress => StaysInCmd (handleConsoleKey keypress s)) s keys :=
  staysInCmd_of_room ⟨rfl, rfl⟩ (by decide +kernel)

/-- A line of 101 characters overruns its local copy. -/
theorem long_line_overruns :
    let s : ShellState oneReq oneAnswer := atPrompt [] .empty clearWorld
    let keys : List Keysym := List.replicate 101 0x61#16 ++ [KS_Return]
    consoleRun.start s ∧
      ¬ consoleRun.Along (fun s keypress => StaysInCmd (handleConsoleKey keypress s)) s keys := by
  intro s keys
  refine ⟨⟨rfl, rfl⟩, fun halong => ?_⟩
  have hempty : Shows s.toEditor .empty := ⟨⟨s.cmd.bytes, rfl⟩, rfl, rfl⟩
  have hkeys : ∀ k ∈ List.replicate 101 (0x61#16 : Keysym), IsEditKey k := by
    intro k hk
    rw [List.eq_of_mem_replicate hk]
    decide
  have hlength : (edited (List.replicate 101 0x61#16)).text.length = 101 := by
    decide +kernel
  obtain ⟨e, hexec, hshows, hnul⟩ := exec_shows hempty List.not_mem_nil hkeys fun n =>
    (length_edited_le _).trans ((List.length_take_le' n _).trans (by decide))
  have hline : (typedLine e).length = 101 := by
    rw [typedLine_eq (s := { s with toEditor := e }) hshows hnul (hlength.trans_lt (by decide))]
    exact hlength
  have hlen : 0 < e.cmdLen := by
    rw [hshows.cmdLen_eq]
    exact Int.ofNat_lt.mpr (by rw [← edited, hlength]; decide)
  have hhist : .hist (100 : ℕ) ∈ (handleConsoleKey KS_Return { s with toEditor := e }).events := by
    rw [handleConsoleKey_return, decodeCommand_eq hlen]
    exact List.mem_append_right _ <| List.mem_append_left _ <|
      hist_mem_preparation (hline ▸ by decide)
  have hbound := (halong.at hexec).accesses _ hhist
  exact absurd hbound.2 (by decide)

end Sel4Xhci.Shell
