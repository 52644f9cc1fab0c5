import Sel4Xhci.Semantics.RecallLog
import Sel4Xhci.Shell.Bounds

/-!
# What the history recalls

A line goes to the history by way of three copies: from `cmd` to a local array, from there to a
block of its own, and from the block back to `cmd`. None of them copies the terminator. The line
comes back as it was typed if a NUL happens to follow it in all three places.

## Main definitions

* `Session`, `session` — the shell under keys and the wheel of the mouse, with a log of the lines
  that were entered
* `RecallsLines` — what is recalled is what was entered
* `Keeps` — the line fits the memory it goes through

## Main results

* `recallsLines_of_keeps` — as long as the lines fit, they are recalled as they were entered
-/

set_option autoImplicit false

namespace Sel4Xhci.Shell

open Semantics Semantics.CString Semantics.Program Umass

variable {RQ : Fifo BlkReq} {SQ : Fifo Answer}

/-! ## Keys and the wheel -/

/-- What reaches the shell at its prompt: a key, or a movement of the wheel. -/
inductive Input
  | key (keypress : Keysym)
  | wheel (movement : ℤ)

/-- What the shell makes of an input. -/
def handleInput : Input → Code (ShellState RQ SQ) Unit
  | .key keypress => handleConsoleKey keypress
  | .wheel movement => handleWheel movement

/-- The direction in which an input scrolls. -/
def Input.direction? : Input → Option ℤ
  | .key keypress =>
    if keypress = KS_Up then some (-1) else if keypress = KS_Down then some 1 else none
  | .wheel movement =>
    if movement ≤ -1 then some (-1) else if 1 ≤ movement then some 1 else none

/-- An input enters a line that the history takes up. -/
def Enters (s : ShellState RQ SQ) : Input → Prop
  | .key keypress => keypress = KS_Return ∧ 0 < s.cmdLen ∧ selected s.toEditor ≠ some .kbdtest
  | .wheel _ => False

instance (s : ShellState RQ SQ) : DecidablePred (Enters s)
  | .key _ => inferInstanceAs (Decidable (_ ∧ _))
  | .wheel _ => inferInstanceAs (Decidable False)

/-! ## Sessions -/

variable (RQ SQ) in
/-- The shell, and a log of the lines that the history has taken up. -/
structure Session where
  shell : ShellState RQ SQ
  log : RecallLog (List Byte)

/-- The log after an input. -/
def Session.logged (s : Session RQ SQ) (input : Input) : RecallLog (List Byte) :=
  match input.direction? with
  | some direction => s.log.move direction
  | none => if Enters s.shell input then s.log.enter (typedLine s.shell.toEditor) else s.log

/-- A session, from an empty history on. -/
def session : Machine (Session RQ SQ) Input where
  start := fun s => s.shell.cmdHist = -1 ∧ s.shell.cmdHistCursor = 0 ∧ s.log = .empty
  step := fun s input =>
    (stateOf (handleInput input s.shell)).map fun shell => ⟨shell, s.logged input⟩

/-- The edit line holds a text, with the cursor behind it. -/
structure ShowsLine (e : Editor) (line : List Byte) : Prop where
  text : string e.cmd.bytes = line
  cmdLen : e.cmdLen = line.length
  cursorIndex : e.cursorIndex = line.length

/-- A slot that is read is in the table and holds an entry. -/
def Event.SlotStored : Event → Prop
  | .slot i entry => 0 ≤ i ∧ i < CMD_HISTORY ∧ entry.isSome
  | _ => True

/-- The slots that are read hold entries, and a recall shows the line that the log shows; behind
the newest entry this is the empty line. -/
structure RecallsLines (s : Session RQ SQ) (input : Input) : Prop where
  slots : ∀ e ∈ (handleInput input s.shell).events, e.SlotStored
  line : ∀ direction, input.direction? = some direction → (direction < 0 → 0 < s.log.position) →
    (handleInput input s.shell).result = .ok () ∧
      ShowsLine (handleInput input s.shell).state.toEditor
        ((s.log.move direction).shown.getD [])

/-! ## The memory that a line goes through -/

/-- The line that is entered goes to the history as it is: it is shorter than its local copy may
be, it does not start the mouse test, there is a slot left, and a NUL follows it in the memory of
the local copy and in the block of the entry. -/
def KeepsEntered (s : ShellState RQ SQ) : Prop :=
  let line := typedLine s.toEditor
  line.length < HIST_SIZE ∧ selected s.toEditor ≠ some .mousetest ∧
    s.cmdHist + 1 < CMD_HISTORY ∧ (s.upcoming 0).stack.bytes[line.length]? = some 0#8 ∧
    ∀ block ∈ (s.upcoming 0).entry, block[line.length]? = some 0#8

instance (s : ShellState RQ SQ) : Decidable (KeepsEntered s) := by
  unfold KeepsEntered; infer_instance

/-- A NUL follows in `cmd` where the recalled line ends. -/
def KeepsRecalled (s : ShellState RQ SQ) (direction : ℤ) : Prop :=
  InHistory s.toHistory (s.cmdHistCursor + direction) →
    s.cmd.bytes[(recalled s direction).length]? = some 0#8

instance (s : ShellState RQ SQ) (direction : ℤ) : Decidable (KeepsRecalled s direction) :=
  inferInstanceAs (Decidable (_ → _))

/-- The line that an input enters or recalls fits the memory it goes through. -/
def Keeps (s : Session RQ SQ) (input : Input) : Prop :=
  match input.direction? with
  | some direction => AtOldest s.shell.toHistory direction ∨ KeepsRecalled s.shell direction
  | none => Enters s.shell input → KeepsEntered s.shell

instance (s : Session RQ SQ) (input : Input) : Decidable (Keeps s input) := by
  unfold Keeps
  split <;> infer_instance

/-! ## The history and the log -/

/-- The history holds what the log holds. -/
structure Holds (h : History) (log : RecallLog (List Byte)) : Prop where
  newest : h.cmdHist + 1 = log.entries.length
  cursor : h.cmdHistCursor = log.position
  slots : ∀ (i : ℕ) line, log.entries[i]? = some line →
    ∃ block, h.slot i = some block ∧ string block = line

section Holds

variable {h : History} {log : RecallLog (List Byte)} {direction : ℤ}

/-- A line without a NUL that NULs follow in both places comes to the history as it is. -/
theorem string_entryOf {e : Editor} {stack : Memory HIST_SIZE} {block : List Byte}
    (hstack : stack.bytes[(typedLine e).length]? = some 0#8)
    (hblock : block[(typedLine e).length]? = some 0#8) :
    string (entryOf block (keptCopy stack e)) = typedLine e := by
  have hnul : 0#8 ∉ typedLine e := nul_notMem_string _
  have hcopy : string (keptCopy stack e).bytes = typedLine e := string_overwrite hnul hstack
  rw [entryOf, strncpy, copied_strlen, hcopy]
  exact string_overwrite hnul hblock

theorem History.isSome_slot {i : ℤ} (hsome : (h.slot i).isSome) : 0 ≤ i ∧ i < CMD_HISTORY := by
  by_contra hout
  rw [History.slot, dif_neg hout] at hsome
  cases hsome

/-- The slots up to the newest are stored. -/
theorem Holds.slot_isSome (hH : Holds h log) {i : ℤ} (hnonneg : 0 ≤ i) (hle : i ≤ h.cmdHist) :
    (h.slot i).isSome := by
  obtain ⟨n, rfl⟩ := Int.eq_ofNat_of_zero_le hnonneg
  have hlt : n < log.entries.length := by
    have hnewest := hH.newest
    omega
  obtain ⟨block, hslot, -⟩ := hH.slots n _ (List.getElem?_eq_getElem hlt)
  rw [hslot]
  rfl

theorem Holds.enter (hH : Holds h log) (hroom : h.cmdHist + 1 < CMD_HISTORY)
    {entry line : List Byte} (hentry : string entry = line) :
    Holds (h.enter entry) (log.enter line) := by
  have hnewest := hH.newest
  refine ⟨?_, ?_, fun i l hl => ?_⟩
  · change h.cmdHist + 1 + 1 = (log.entries ++ [line]).length
    simp [hnewest]
  · change h.cmdHist + 1 + 1 = (log.entries ++ [line]).length
    simp [hnewest]
  · rw [slot_enter]
    rcases RecallLog.getElem?_enter hl with hold | ⟨rfl, rfl⟩
    · obtain ⟨hi, -⟩ := List.getElem?_eq_some_iff.mp hold
      rw [if_neg (by omega)]
      exact hH.slots i l hold
    · rw [if_pos ⟨by omega, by omega, hnewest.symm⟩]
      exact ⟨entry, rfl, hentry⟩

/-- Where a recall goes, the log goes. -/
theorem Holds.scrollCursor_eq (hH : Holds h log) (hdir : direction = -1 ∨ direction = 1)
    (hgo : ¬ AtOldest h direction) : scrollCursor h direction = (log.move direction).position := by
  have hnewest := hH.newest
  have hcursor := hH.cursor
  have hle := log.position_le
  rw [AtOldest] at hgo
  rw [RecallLog.position_move, scrollCursor]
  rcases hdir with rfl | rfl
  · have hin : InHistory h (h.cmdHistCursor + -1) := ⟨by omega, by omega⟩
    rw [if_pos hin, if_pos (by decide)]
    omega
  · by_cases hin : InHistory h (h.cmdHistCursor + 1)
    · rw [if_pos hin, if_neg (by decide)]
      rw [InHistory] at hin
      omega
    · rw [if_neg hin, if_neg (by decide)]
      rw [InHistory] at hin
      omega

theorem Holds.move (hH : Holds h log) (hdir : direction = -1 ∨ direction = 1)
    (hgo : ¬ AtOldest h direction) :
    Holds { h with cmdHistCursor := scrollCursor h direction } (log.move direction) where
  newest := by simpa using hH.newest
  cursor := hH.scrollCursor_eq hdir hgo
  slots := by
    rw [RecallLog.entries_move]
    exact hH.slots

/-- At the oldest entry the log does not move. -/
theorem Holds.move_oldest (hH : Holds h log) (hold : AtOldest h direction) :
    log.move direction = log := by
  have hcursor := hH.cursor
  obtain ⟨hle, hdir⟩ := hold
  exact RecallLog.move_oldest (by omega) (by omega)

/-- What is in the history is in the log, and behind the newest entry nothing is. -/
theorem Holds.inHistory_iff (hH : Holds h log) (hdir : direction = -1 ∨ direction = 1)
    (hgo : ¬ AtOldest h direction) : InHistory h (h.cmdHistCursor + direction) ↔
      ((log.move direction).position : ℤ) = h.cmdHistCursor + direction ∧
        (log.move direction).position < log.entries.length := by
  have hnewest := hH.newest
  have hcursor := hH.cursor
  have hposition := hH.scrollCursor_eq hdir hgo
  rw [scrollCursor] at hposition
  by_cases hin : InHistory h (h.cmdHistCursor + direction)
  · rw [if_pos hin] at hposition
    refine iff_of_true hin ⟨hposition.symm, ?_⟩
    rw [InHistory] at hin
    omega
  · rw [if_neg hin] at hposition
    refine iff_of_false hin fun hlog => ?_
    omega

end Holds

/-! ## Recall -/

section Recall

variable {s : ShellState RQ SQ} {log : RecallLog (List Byte)} {direction : ℤ}

/-- What `cmd` holds after a recall. -/
theorem scrollMemory_holds (hH : Holds s.toHistory log) (hdir : direction = -1 ∨ direction = 1)
    (hgo : ¬ AtOldest s.toHistory direction) (hkeeps : KeepsRecalled s direction) :
    ∃ mem, scrollMemory s direction = some mem ∧
      string mem.bytes = (log.move direction).shown.getD [] := by
  have hiff := hH.inHistory_iff hdir hgo
  by_cases hin : InHistory s.toHistory (s.cmdHistCursor + direction)
  · obtain ⟨hposition, hlt⟩ := hiff.mp hin
    have hshown : (log.move direction).shown = some log.entries[(log.move direction).position] := by
      rw [RecallLog.shown, RecallLog.entries_move, List.getElem?_eq_getElem hlt]
    obtain ⟨block, hslot, hline⟩ := hH.slots _ _ (List.getElem?_eq_getElem hlt)
    rw [hposition] at hslot
    have hnul := hkeeps hin
    rw [recalled_eq hin hslot] at hnul
    refine ⟨_, scrollMemory_within hin hslot, ?_⟩
    rw [Memory.fill_bytes, string_overwrite (nul_notMem_string block) hnul, hshown, hline]
    rfl
  · obtain ⟨mem, hmem, hempty⟩ := scrollMemory_behind hin
    refine ⟨mem, hmem, ?_⟩
    have hposition := hH.scrollCursor_eq hdir hgo
    have hnewest := hH.newest
    rw [scrollCursor, if_neg hin] at hposition
    rw [hempty, RecallLog.shown, RecallLog.entries_move, List.getElem?_eq_none (by omega)]
    rfl

/-- A recall shows the line that the log shows then, and moves with the log. -/
theorem scrollHist_holds (hH : Holds s.toHistory log) (hdir : direction = -1 ∨ direction = 1)
    (hgo : ¬ AtOldest s.toHistory direction) (hkeeps : KeepsRecalled s direction) :
    ∃ t, Returns (scrollHist direction) s () t ∧
      ShowsLine t.toEditor ((log.move direction).shown.getD []) ∧
      Holds t.toHistory (log.move direction) := by
  obtain ⟨mem, hmem, hline⟩ := scrollMemory_holds hH hdir hgo hkeeps
  have hlength : (strlen mem.bytes : ℤ) = ((log.move direction).shown.getD []).length := by
    rw [strlen, hline]
  exact ⟨scrolled s direction mem, scrollHist_returns hgo hmem, ⟨hline, hlength, hlength⟩,
    hH.move hdir hgo⟩

/-- A recall reads the slot that the log moves to. -/
theorem scrollHist_slots (hH : Holds s.toHistory log) {e : Event}
    (he : e ∈ (scrollHist direction s).events) : e.SlotStored := by
  cases scrollEvent_of_mem he with
  | slot hin =>
    have hsome := hH.slot_isSome hin.2 hin.1
    exact ⟨(History.isSome_slot hsome).1, (History.isSome_slot hsome).2, hsome⟩
  | _ => trivial

end Recall

/-! ## Return -/

section Return

variable {s : ShellState RQ SQ} {log : RecallLog (List Byte)}

/-- `history` reads the slots in front of the newest. -/
theorem decodeCommand_slots (hH : Holds s.toHistory log) {e : Event}
    (he : e ∈ (decodeCommand s).events) : e.SlotStored := by
  cases lineEvent_of_mem he with
  | prompt => trivial
  | compares _ => trivial
  | prepares _ he => cases he <;> trivial
  | runs _ _ he =>
    cases he with
    | acts hemitted =>
      cases hemitted with
      | operation hop _ _ => cases e <;> trivial
      | _ => trivial
    | clears => trivial
    | slot i _ hi =>
      have hsome := hH.slot_isSome (Int.natCast_nonneg i) hi.le
      exact ⟨(History.isSome_slot hsome).1, (History.isSome_slot hsome).2, hsome⟩

/-- A line that keeps to the memory it goes through becomes the newest entry. -/
theorem decodeCommand_holds (hH : Holds s.toHistory log)
    (hret : (decodeCommand s).result = .ok ())
    (hkeeps : Enters s (.key KS_Return) → KeepsEntered s) :
    Holds (decodeCommand s).state.toHistory
      (if Enters s (.key KS_Return) then log.enter (typedLine s.toEditor) else log) := by
  by_cases henters : Enters s (.key KS_Return)
  · obtain ⟨-, hlen, hkbd⟩ := id henters
    obtain ⟨-, hmouse, hroom, hstack, hblock⟩ := hkeeps henters
    obtain ⟨c, hc, hending⟩ := ending_of_returns hlen hret
    rw [hc, ne_eq, Option.some.injEq] at hkbd hmouse
    obtain ⟨-, block, hentry, hhistory⟩ := hending.common hmouse hkbd
    rw [if_pos henters, hhistory]
    exact hH.enter hroom (string_entryOf hstack (hblock block hentry))
  · rw [if_neg henters]
    by_cases hlen : 0 < s.cmdLen
    case neg =>
      rw [decodeCommand_empty hlen]
      exact hH
    have hkbd : selected s.toEditor = some .kbdtest := by
      by_contra hkbd
      exact henters ⟨rfl, hlen, hkbd⟩
    obtain ⟨c, hc, hending⟩ := ending_of_returns hlen hret
    obtain rfl := Option.some.inj (hkbd.symm.trans hc)
    rw [hending.2]
    exact hH

end Return

/-! ## Editing keys -/

section Editing

theorem readCmd_emits (i : ℤ) : Emits Event.SlotStored (readCmd i) :=
  .bind (.emit (by simp [Event.SlotStored])) fun _ => .bind .get fun _ => .pure _

theorem writeCmd_emits (i : ℤ) (b : Byte) : Emits Event.SlotStored (writeCmd i b) :=
  .bind (.emit (by simp [Event.SlotStored])) fun _ => .modify

theorem print_emits {σ : Type} (t : String) : Emits Event.SlotStored (printf t : Code σ Unit) :=
  printf_emits trivial

theorem goBack_emits {σ : Type} (n : ℕ) : Emits Event.SlotStored (goBack n : Code σ Unit) := by
  refine .emit fun e he => ?_
  rw [List.eq_of_mem_replicate he]
  trivial

theorem closeGap_emits (n : ℕ) (i : ℤ) : Emits Event.SlotStored (closeGap n i) := by
  induction n generalizing i with
  | zero => exact .pure ()
  | succ n ih =>
    exact .bind (readCmd_emits _) fun _ => .bind (writeCmd_emits _ _) fun _ =>
      .bind (readCmd_emits _) fun _ => .bind (print_emits _) fun _ => ih _

theorem openGap_emits (n : ℕ) (i : ℤ) : Emits Event.SlotStored (openGap n i) := by
  induction n generalizing i with
  | zero => exact .pure ()
  | succ n ih =>
    exact .bind (readCmd_emits _) fun _ => .bind (writeCmd_emits _ _) fun _ => ih _

theorem printCells_emits (n : ℕ) (i : ℤ) : Emits Event.SlotStored (printCells n i) := by
  induction n generalizing i with
  | zero => exact .pure ()
  | succ n ih => exact .bind (readCmd_emits _) fun _ => .bind (print_emits _) fun _ => ih _

theorem backSpace_emits (keypress : Keysym) : Emits Event.SlotStored (backSpace keypress) :=
  .bind .get fun _ => .ite (fun _ => .bind (print_emits _) fun _ => .bind .modify fun _ =>
    .bind .get fun _ => .ite (fun _ => .bind (closeGap_emits _ _) fun _ =>
      .bind (print_emits _) fun _ => goBack_emits _) fun _ => .pure ()) fun _ => .pure ()

theorem moveLeft_emits : Emits Event.SlotStored moveLeft :=
  .bind .get fun _ => .ite (fun _ => .bind (print_emits _) fun _ => .modify) fun _ => .pure ()

theorem moveRight_emits : Emits Event.SlotStored moveRight :=
  .bind .get fun _ => .ite (fun _ => .bind (readCmd_emits _) fun _ =>
    .bind (print_emits _) fun _ => .modify) fun _ => .pure ()

theorem insertKey_emits (keypress : Keysym) : Emits Event.SlotStored (insertKey keypress) :=
  .bind .get fun _ => .ite (fun _ => .bind (print_emits _) fun _ =>
    .bind (.when fun _ => .bind (openGap_emits _ _) fun _ => .bind (printCells_emits _ _) fun _ =>
      goBack_emits _) fun _ => .bind .modify fun _ => .bind (writeCmd_emits _ _) fun _ =>
        .modify) fun _ => .pure ()

end Editing

/-! ## Sessions that keep their lines -/

section Inputs

variable {input : Input}

variable (RQ SQ) in
theorem handleInput_scroll {direction : ℤ} (h : input.direction? = some direction) :
    (handleInput input : Code (ShellState RQ SQ) Unit) = scrollHist direction ∧
      (direction = -1 ∨ direction = 1) := by
  cases input with
  | key keypress =>
    simp only [Input.direction?] at h
    split_ifs at h with hup hdown
    · obtain rfl := Option.some.inj h
      subst hup
      exact ⟨rfl, .inl rfl⟩
    · obtain rfl := Option.some.inj h
      subst hdown
      exact ⟨rfl, .inr rfl⟩
  | wheel movement =>
    simp only [Input.direction?] at h
    split_ifs at h with holder hnewer
    · obtain rfl := Option.some.inj h
      exact ⟨if_pos holder, .inl rfl⟩
    · obtain rfl := Option.some.inj h
      exact ⟨(if_neg holder).trans (if_pos hnewer), .inr rfl⟩

variable (RQ SQ) in
/-- What does not scroll is Return, or stays within the line. -/
theorem handleInput_other (h : input.direction? = none) : input = .key KS_Return ∨
    (∀ s : ShellState RQ SQ, ¬ Enters s input) ∧ ∃ p : Code Editor Unit,
      (handleInput input : Code (ShellState RQ SQ) Unit) = onEditor p ∧
        Emits Event.SlotStored p := by
  cases input with
  | key keypress =>
    simp only [Input.direction?] at h
    split_ifs at h with hup hdown
    -- Apart from Return and the recalls, keys work on the edit line.
    by_cases hreturn : keypress = KS_Return
    · exact .inl (congrArg _ hreturn)
    refine .inr ⟨fun s henters => hreturn henters.1, ?_⟩
    simp only [handleInput, handleConsoleKey, if_neg hreturn, if_neg hup, if_neg hdown]
    split_ifs
    · exact ⟨_, rfl, backSpace_emits keypress⟩
    · exact ⟨_, rfl, moveLeft_emits⟩
    · exact ⟨_, rfl, moveRight_emits⟩
    · exact ⟨_, rfl, insertKey_emits keypress⟩
  | wheel movement =>
    simp only [Input.direction?] at h
    split_ifs at h with holder hnewer
    refine .inr ⟨fun _ => id, pure (), ?_, .pure ()⟩
    exact (if_neg holder).trans (if_neg hnewer)

end Inputs

section Steps

variable {s : Session RQ SQ} {input : Input}

/-- A recall that keeps to the memory of the line shows what was entered, and moves with the
log. -/
theorem scroll_step {direction : ℤ} (hdirection : input.direction? = some direction)
    (hH : Holds s.shell.toHistory s.log)
    (hkeeps : AtOldest s.shell.toHistory direction ∨ KeepsRecalled s.shell direction) :
    RecallsLines s input ∧
      Holds (handleInput input s.shell).state.toHistory (s.log.move direction) := by
  obtain ⟨hscroll, hdir⟩ := handleInput_scroll RQ SQ hdirection
  have hslots : ∀ e ∈ (handleInput input s.shell).events, e.SlotStored := by
    rw [hscroll]
    exact fun e => scrollHist_slots hH
  -- At the oldest entry nothing happens, in the shell and in the log.
  by_cases hold : AtOldest s.shell.toHistory direction
  · refine ⟨⟨hslots, fun d hd hmoves => ?_⟩, ?_⟩
    · -- There is no older entry to recall.
      obtain rfl := Option.some.inj (hdirection.symm.trans hd)
      have hcursor := hH.cursor
      rw [AtOldest] at hold
      have hpos := hmoves (by omega)
      omega
    · rw [hscroll, scrollHist_oldest hold, hH.move_oldest hold]
      exact hH
  · obtain ⟨t, hrun, hshows, hholds⟩ := scrollHist_holds hH hdir hold (hkeeps.resolve_left hold)
    refine ⟨⟨hslots, fun d hd _ => ?_⟩, ?_⟩
    · obtain rfl := Option.some.inj (hdirection.symm.trans hd)
      rw [hscroll]
      refine ⟨hrun.result, ?_⟩
      rw [hrun.state]
      exact hshows
    · rw [hscroll, hrun.state]
      exact hholds

/-- An input that keeps to the memory that a line goes through recalls what was entered, and
leaves the history as the log says. -/
theorem session_step (hH : Holds s.shell.toHistory s.log) (hkeeps : Keeps s input) :
    RecallsLines s input ∧
      ∀ s', session.step s input = some s' → Holds s'.shell.toHistory s'.log := by
  have hstep : ∀ {s' : Session RQ SQ}, session.step s input = some s' →
      (handleInput input s.shell).result = .ok () ∧
        s' = ⟨(handleInput input s.shell).state, s.logged input⟩ := by
    intro s' hs'
    obtain ⟨t, ht, rfl⟩ := Option.map_eq_some_iff.mp hs'
    obtain ⟨⟨_, hret⟩, rfl⟩ := stateOf_eq_some.mp ht
    exact ⟨hret, rfl⟩
  unfold Keeps at hkeeps
  unfold Session.logged at hstep
  -- An input scrolls, or it enters a line, or it edits the line only.
  cases hdirection : input.direction? with
  | some direction =>
    rw [hdirection] at hkeeps hstep
    obtain ⟨hrecalls, hholds⟩ := scroll_step hdirection hH hkeeps
    refine ⟨hrecalls, fun s' hs' => ?_⟩
    obtain ⟨-, rfl⟩ := hstep hs'
    exact hholds
  | none =>
    rw [hdirection] at hkeeps hstep
    have hline : ∀ d, input.direction? = some d → (d < 0 → 0 < s.log.position) →
        (handleInput input s.shell).result = .ok () ∧
          ShowsLine (handleInput input s.shell).state.toEditor
            ((s.log.move d).shown.getD []) := by
      simp [hdirection]
    rcases handleInput_other RQ SQ hdirection with rfl | ⟨hother, p, hp, hslots⟩
    · refine ⟨⟨fun e he => ?_, hline⟩, fun s' hs' => ?_⟩
      · rcases List.mem_cons.mp he with rfl | he
        · trivial
        · exact decodeCommand_slots hH he
      · obtain ⟨hret, rfl⟩ := hstep hs'
        exact decodeCommand_holds hH hret hkeeps
    · refine ⟨⟨fun e he => ?_, hline⟩, fun s' hs' => ?_⟩
      · rw [hp] at he
        exact hslots.focus _ e he
      · obtain ⟨-, rfl⟩ := hstep hs'
        rw [hp, if_neg (hother s.shell)]
        exact hH

end Steps

/-- As long as the lines keep to the memory they go through, a session recalls what was
entered. -/
theorem recallsLines_of_keeps {s : Session RQ SQ} {inputs : List Input} (hstart : session.start s)
    (hkeeps : session.Along Keeps s inputs) : session.Along RecallsLines s inputs := by
  obtain ⟨hnewest, hcursor, hlog⟩ := hstart
  have hempty : Holds s.shell.toHistory s.log := by
    rw [hlog]
    exact ⟨by rw [hnewest]; rfl, hcursor, by simp [RecallLog.empty]⟩
  exact hkeeps.strengthen (P := fun s => Holds s.shell.toHistory s.log)
    (fun _ _ => session_step) hempty

/-- The keys of a text. -/
def keysOf (chars : List Char) : List Input :=
  (ascii chars).map fun b => .key (b.setWidth 16)

/-- Two lines of the same length, recalled with keys and wheel. -/
theorem recallsLines_of_keeps_two :
    let s : Session oneReq oneAnswer := ⟨atPrompt [] .empty clearWorld, .empty⟩
    let inputs : List Input := keysOf ['l', 's'] ++ Input.key KS_Return ::
      keysOf ['h', 'i'] ++ [.key KS_Return, .key KS_Up, .wheel 0, .wheel (-2), .key KS_Up, .wheel 1]
    session.Along RecallsLines s inputs :=
  recallsLines_of_keeps ⟨rfl, rfl, rfl⟩ (by decide +kernel)

/-- A short line that is recalled after a longer one keeps the rest of it. -/
theorem recall_mixes_lines :
    let s : Session oneReq oneAnswer := ⟨atPrompt [] .empty clearWorld, .empty⟩
    let before : List Input := keysOf ['x'] ++ Input.key KS_Return ::
      keysOf ['a', 'b', 'c'] ++ [.key KS_Return, .key KS_Up]
    session.start s ∧ ¬ session.Along RecallsLines s (before ++ [.key KS_Up]) := by
  intro s before
  refine ⟨⟨rfl, rfl, rfl⟩, fun halong => ?_⟩
  have hsome : (session.exec s before).isSome := by decide +kernel
  have hmixed : ∀ t ∈ session.exec s before, 0 < t.log.position ∧
      (t.log.move (-1)).shown = some (ascii ['x']) ∧
      string (handleInput (.key KS_Up) t.shell).state.cmd.bytes = ascii ['x', 'b', 'c'] := by
    decide +kernel
  obtain ⟨t, ht⟩ := Option.isSome_iff_exists.mp hsome
  obtain ⟨hpos, hshown, hcmd⟩ := hmixed t ht
  have hrecalls : RecallsLines t (.key KS_Up) := halong.at ht
  have htext := (hrecalls.line (-1) rfl fun _ => hpos).2.text
  rw [hshown, hcmd] at htext
  exact absurd htext (by decide)

end Sel4Xhci.Shell
