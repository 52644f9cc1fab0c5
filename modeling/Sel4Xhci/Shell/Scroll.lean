import Sel4Xhci.Shell.Command

/-!
# Recall from the history

`scroll_hist` copies an entry of the history to `cmd`, without a terminator, and takes the
string that `cmd` holds then for the line. Behind the newest entry the line is empty.

## Main definitions

* `scrollHist` — the code
* `handleWheel` — a recall by the wheel of the mouse
* `scrollMemory` — what is in `cmd` then

## Main results

* `scrollHist_returns` — what a recall leaves
* `scrollEvent_of_mem` — what it reads and writes
-/

set_option autoImplicit false

namespace Sel4Xhci.Shell

open Semantics Semantics.CString Semantics.Program Umass

variable {RQ : Fifo BlkReq} {SQ : Fifo Answer}

/-- `clear_prompt`: as many blanks as the string in `cmd` is long, and one more. -/
def clearPrompt : Code Editor Unit := do
  printf ("\r" ++ prompt)
  let n ← strlenCmd
  Program.emit (List.replicate (n + 1) (.printf " "))
  printf ("\r" ++ prompt)

/-- The end of `scroll_hist`: the line is what `cmd` holds now. -/
def showLine : Code Editor Unit := do
  let n ← strlenCmd
  Program.modify fun e => { e with cmdLen := n, cursorIndex := n }
  let e ← Program.get
  touchCmd (strlen e.cmd.bytes + 1)
  printf (text (string e.cmd.bytes))

/-- `strncpy(cmd, history[cmd_hist_cursor], strlen(history[cmd_hist_cursor]))`. -/
def recallEntry : Option (List Byte) → Code Editor Unit
  | some block => fillCmd (copied block (strlen block))
  | none => Program.stop .fault

/-- `scroll_hist`. -/
def scrollHist (direction : ℤ) : Code (ShellState RQ SQ) Unit := do
  let s ← Program.get
  if s.cmdHistCursor ≤ 0 ∧ direction ≤ -1 then pure ()
  else
    onEditor clearPrompt
    let target := s.cmdHistCursor + direction
    if target ≤ s.cmdHist ∧ 0 ≤ target then
      onHistory (Program.modify fun h => { h with cmdHistCursor := target })
      Program.emit [.slot target (s.slot target)]
      onEditor (recallEntry (s.slot target))
      onEditor showLine
    else
      onHistory (Program.modify fun h => { h with cmdHistCursor := h.cmdHist + 1 })
      onEditor (fillCmd (copied [] 1))
      onEditor showLine

/-- What `handle_mouseEvent` makes of a report. -/
def handleWheel (movement : ℤ) : Code (ShellState RQ SQ) Unit :=
  if movement ≤ -1 then scrollHist (-1)
  else if 1 ≤ movement then scrollHist 1
  else pure ()

/-! ## What a recall does -/

/-- The entry that a recall is about is in the history. -/
def InHistory (h : History) (target : ℤ) : Prop := target ≤ h.cmdHist ∧ 0 ≤ target

instance (h : History) (target : ℤ) : Decidable (InHistory h target) :=
  inferInstanceAs (Decidable (_ ∧ _))

/-- The oldest entry has been reached: nothing happens. -/
def AtOldest (h : History) (direction : ℤ) : Prop := h.cmdHistCursor ≤ 0 ∧ direction ≤ -1

instance (h : History) (direction : ℤ) : Decidable (AtOldest h direction) :=
  inferInstanceAs (Decidable (_ ∧ _))

/-- `cmd` after a recall; there is nothing to copy if the slot is null. -/
def scrollMemory (s : ShellState RQ SQ) (direction : ℤ) : Option (Memory CMD_LIMIT) :=
  if InHistory s.toHistory (s.cmdHistCursor + direction) then
    (s.slot (s.cmdHistCursor + direction)).map fun block =>
      s.cmd.fill (copied block (strlen block))
  else some (s.cmd.fill (copied [] 1))

/-- `cmd_hist_cursor` after a recall. -/
def scrollCursor (h : History) (direction : ℤ) : ℤ :=
  if InHistory h (h.cmdHistCursor + direction) then h.cmdHistCursor + direction
  else h.cmdHist + 1

/-- The shell after a recall. -/
def scrolled (s : ShellState RQ SQ) (direction : ℤ) (mem : Memory CMD_LIMIT) :
    ShellState RQ SQ :=
  { s with
    cmd := mem
    cmdLen := strlen mem.bytes
    cursorIndex := strlen mem.bytes
    cmdHistCursor := scrollCursor s.toHistory direction }

section Scroll

variable {s : ShellState RQ SQ} {direction : ℤ}

theorem scrollMemory_within (hin : InHistory s.toHistory (s.cmdHistCursor + direction))
    {block : List Byte} (hslot : s.slot (s.cmdHistCursor + direction) = some block) :
    scrollMemory s direction = some (s.cmd.fill (string block)) := by
  rw [scrollMemory, if_pos hin, hslot, Option.map_some, copied_strlen]

/-- Behind the newest entry the line is empty. -/
theorem scrollMemory_behind (hout : ¬ InHistory s.toHistory (s.cmdHistCursor + direction)) :
    ∃ mem, scrollMemory s direction = some mem ∧ string mem.bytes = [] := by
  refine ⟨_, if_neg hout, List.length_eq_zero_iff.mp (strlen_eq_zero_iff.mpr ?_)⟩
  have hnul : copied [] 1 = [0#8] := rfl
  rw [Memory.fill_bytes, hnul,
    head?_overwrite (s.cmd.bytes_ne_nil (by decide)) (List.cons_ne_nil _ _)]
  rintro b hb
  exact (Option.some.inj hb).symm

theorem clearPrompt_returns (e : Editor) : Returns clearPrompt e () e := rfl

theorem showLine_returns (e : Editor) :
    Returns showLine e () ⟨e.cmd, strlen e.cmd.bytes, strlen e.cmd.bytes⟩ := rfl

theorem scrollHist_oldest (h : AtOldest s.toHistory direction) :
    scrollHist direction s = ⟨.ok (), [], s⟩ := by
  rw [AtOldest] at h
  rw [scrollHist, bind_ok (get_run s), if_pos h]
  rfl

/-- What a recall leaves. -/
theorem scrollHist_returns (hgo : ¬ AtOldest s.toHistory direction) {mem : Memory CMD_LIMIT}
    (hmem : scrollMemory s direction = some mem) :
    Returns (scrollHist direction) s () (scrolled s direction mem) := by
  rw [AtOldest] at hgo
  refine (Returns.get s).bind ?_
  rw [if_neg hgo]
  refine (onEditor_returns (clearPrompt_returns _)).bind ?_
  unfold scrolled scrollCursor
  by_cases hin : InHistory s.toHistory (s.cmdHistCursor + direction)
  · rw [scrollMemory, if_pos hin] at hmem
    obtain ⟨block, hslot, rfl⟩ := Option.map_eq_some_iff.mp hmem
    rw [if_pos hin]
    rw [InHistory] at hin
    dsimp only
    rw [if_pos hin, hslot]
    refine (onHistory_returns (.modify _ _)).bind <| (Returns.emit _ _).bind ?_
    exact (onEditor_returns (fillCmd_returns _ _)).bind (onEditor_returns (showLine_returns _))
  · rw [scrollMemory, if_neg hin] at hmem
    obtain rfl := Option.some.inj hmem
    rw [if_neg hin]
    rw [InHistory] at hin
    dsimp only
    rw [if_neg hin]
    refine (onHistory_returns (.modify _ _)).bind ?_
    exact (onEditor_returns (fillCmd_returns _ _)).bind (onEditor_returns (showLine_returns _))

/-- A null slot is followed. -/
theorem scrollHist_null (hgo : ¬ AtOldest s.toHistory direction)
    (hmem : scrollMemory s direction = none) : (scrollHist direction s).result = .error .fault := by
  rw [AtOldest] at hgo
  rw [scrollMemory] at hmem
  split_ifs at hmem with hin
  rw [Option.map_eq_none_iff] at hmem
  rw [InHistory] at hin
  refine (Returns.get s).bind_result.trans ?_
  rw [if_neg hgo]
  refine (onEditor_returns (clearPrompt_returns _)).bind_result.trans ?_
  rw [if_pos hin, hmem]
  rfl

/-- What a recall does: it reads the string in `cmd`, stores to it, and reads the string that
is there then. -/
inductive ScrollEvent (s : ShellState RQ SQ) (direction : ℤ) : Event → Prop
  | printf (text : String) : ScrollEvent s direction (.printf text)
  | reads {i : ℕ} (hi : i ≤ strlen s.cmd.bytes) : ScrollEvent s direction (.cmd i)
  | slot (hin : InHistory s.toHistory (s.cmdHistCursor + direction)) :
      ScrollEvent s direction (.slot (s.cmdHistCursor + direction)
        (s.slot (s.cmdHistCursor + direction)))
  | copies (hin : InHistory s.toHistory (s.cmdHistCursor + direction)) {block : List Byte}
      (hslot : s.slot (s.cmdHistCursor + direction) = some block) {i : ℕ} (hi : i < strlen block) :
      ScrollEvent s direction (.cmd i)
  | clears : ScrollEvent s direction (.cmd 0)
  | shows {mem : Memory CMD_LIMIT} (hmem : scrollMemory s direction = some mem) {i : ℕ}
      (hi : i ≤ strlen mem.bytes) : ScrollEvent s direction (.cmd i)

theorem clearPrompt_events {e : Editor} {event : Event} (h : event ∈ (clearPrompt e).events) :
    (∃ t, event = .printf t) ∨ ∃ i ≤ strlen e.cmd.bytes, event = .cmd (i : ℕ) := by
  have hrun : (clearPrompt e).events = Event.printf ("\r" ++ prompt) ::
      ((touches (strlen e.cmd.bytes + 1) ++ []) ++
        (List.replicate (strlen e.cmd.bytes + 1) (Event.printf " ") ++
          [Event.printf ("\r" ++ prompt)])) := rfl
  rw [hrun] at h
  simp only [List.append_nil, List.mem_cons, List.mem_append, List.mem_replicate,
    List.not_mem_nil, or_false] at h
  rcases h with rfl | h | ⟨-, rfl⟩ | rfl
  · exact .inl ⟨_, rfl⟩
  · obtain ⟨i, hi, rfl⟩ := mem_touches.mp h
    exact .inr ⟨i, Nat.le_of_lt_succ hi, rfl⟩
  · exact .inl ⟨_, rfl⟩
  · exact .inl ⟨_, rfl⟩

theorem showLine_events {e : Editor} {event : Event} (h : event ∈ (showLine e).events) :
    (∃ t, event = .printf t) ∨ ∃ i ≤ strlen e.cmd.bytes, event = .cmd (i : ℕ) := by
  have hrun : (showLine e).events = (touches (strlen e.cmd.bytes + 1) ++ []) ++
      (touches (strlen e.cmd.bytes + 1) ++ [Event.printf (text (string e.cmd.bytes))]) := rfl
  rw [hrun] at h
  simp only [List.append_nil, List.mem_append, List.mem_singleton, ← or_assoc, or_self] at h
  rcases h with h | rfl
  · obtain ⟨i, hi, rfl⟩ := mem_touches.mp h
    exact .inr ⟨i, Nat.le_of_lt_succ hi, rfl⟩
  · exact .inl ⟨_, rfl⟩

theorem scrollEvent_of_showLine {mem : Memory CMD_LIMIT}
    (hmem : scrollMemory s direction = some mem) {e : Editor} (he : e.cmd = mem) {event : Event}
    (h : event ∈ (showLine e).events) : ScrollEvent s direction event := by
  subst he
  rcases showLine_events h with ⟨t, rfl⟩ | ⟨i, hi, rfl⟩
  · exact .printf t
  · exact .shows hmem hi

/-- What a recall does. -/
theorem scrollEvent_of_mem {event : Event} (h : event ∈ (scrollHist direction s).events) :
    ScrollEvent s direction event := by
  by_cases hold : AtOldest s.toHistory direction
  · rw [scrollHist_oldest hold] at h
    cases h
  rw [AtOldest] at hold
  rw [scrollHist, (Returns.get s).mem_bind_events, if_neg hold,
    (onEditor_returns (clearPrompt_returns _)).mem_bind_events] at h
  rcases h with h | h | h
  · cases h
  · rcases clearPrompt_events h with ⟨t, rfl⟩ | ⟨i, hi, rfl⟩
    · exact .printf t
    · exact .reads hi
  by_cases hin : InHistory s.toHistory (s.cmdHistCursor + direction)
  · have hmemory : scrollMemory s direction = (s.slot (s.cmdHistCursor + direction)).map _ :=
      if_pos hin
    have hslot := ScrollEvent.slot hin
    have hcopies := @ScrollEvent.copies _ _ s direction hin
    rw [InHistory] at hin
    rw [if_pos hin, (onHistory_returns (.modify _ _)).mem_bind_events,
      (Returns.emit _ _).mem_bind_events] at h
    rcases h with h | h | h
    · cases h
    · rw [List.mem_singleton.mp h]
      exact hslot
    · cases hentry : s.slot (s.cmdHistCursor + direction) with
      | none =>
        rw [hentry] at h
        cases h
      | some block =>
        rw [hentry, Option.map_some] at hmemory
        rw [hentry, recallEntry, (onEditor_returns (fillCmd_returns _ _)).mem_bind_events] at h
        rcases h with h | h
        · obtain ⟨i, hi, rfl⟩ := fillCmd_events h
          rw [length_copied] at hi
          exact hcopies hentry hi
        · exact scrollEvent_of_showLine hmemory rfl h
  · have hmemory : scrollMemory s direction = some (s.cmd.fill (copied [] 1)) := if_neg hin
    rw [InHistory] at hin
    rw [if_neg hin, (onHistory_returns (.modify _ _)).mem_bind_events,
      (onEditor_returns (fillCmd_returns _ _)).mem_bind_events] at h
    rcases h with h | h | h
    · cases h
    · obtain ⟨i, hi, rfl⟩ := fillCmd_events h
      rw [length_copied, Nat.lt_one_iff] at hi
      rw [hi]
      exact .clears
    · exact scrollEvent_of_showLine hmemory rfl h

end Scroll

end Sel4Xhci.Shell
