import Sel4Xhci.Shell.CommandLine

/-!
# What a command line leaves behind

The next line ought to start from the same editor whatever command ran before: with an empty
line in a clear `cmd`, one more entry in the history, and the recall cursor behind it. The
common end of `decode_command` sees to that. `mousetest` and `kbdtest` return without it.

## Main definitions

* `LeavesReset` — the editor is reset and the history has one more entry

## Main results

* `leavesReset_iff` — a line leaves the editor reset unless it selects one of the two
  commands, or the history is full
-/

set_option autoImplicit false

namespace Sel4Xhci.Shell

open Semantics Semantics.CString Semantics.Program Umass

variable {RQ : Fifo BlkReq} {SQ : Fifo Answer}

/-- The history has exactly one entry more, the newest. -/
structure AddsOne (h h' : History) : Prop where
  cmdHist : h'.cmdHist = h.cmdHist + 1
  stored : (h'.slot h'.cmdHist).isSome
  others : ∀ i, i ≠ h'.cmdHist → h'.slot i = h.slot i

/-- What every command line ought to leave. -/
structure LeavesReset (s t : ShellState RQ SQ) : Prop where
  cursorIndex : t.cursorIndex = 0
  cmdLen : t.cmdLen = 0
  cleared : ∀ i : ℕ, i < CMD_LIMIT → t.cmd.load i = 0#8
  added : AddsOne s.toHistory t.toHistory
  histCursor : t.cmdHistCursor = t.cmdHist + 1

/-- The command that a line selects, if it has words. -/
def selected (e : Editor) : Option Command := (parsedArg (lineArgs e) 0).map commandOf

theorem slot_enter (h : History) (entry : List Byte) (i : ℤ) :
    (h.enter entry).slot i =
      if 0 ≤ i ∧ i < CMD_HISTORY ∧ i = h.cmdHist + 1 then some entry else h.slot i := by
  unfold History.slot
  by_cases hi : 0 ≤ i ∧ i < CMD_HISTORY
  · rw [dif_pos hi, dif_pos hi]
    have hcast : ((i.toNat : ℕ) : ℤ) = i := Int.toNat_of_nonneg hi.1
    simp only [History.enter, History.put, hcast, hi.1, hi.2, true_and]
  · rw [dif_neg hi, dif_neg hi, if_neg fun h => hi ⟨h.1, h.2.1⟩]

theorem addsOne_enter_iff (h : History) (entry : List Byte) :
    AddsOne h (h.enter entry) ↔ 0 ≤ h.cmdHist + 1 ∧ h.cmdHist + 1 < CMD_HISTORY := by
  have hnewest : (h.enter entry).cmdHist = h.cmdHist + 1 := rfl
  constructor
  · rintro ⟨-, hstored, -⟩
    rw [hnewest, slot_enter] at hstored
    by_contra hout
    have hnone : h.slot (h.cmdHist + 1) = none := by
      rw [History.slot, dif_neg hout]
    rw [if_neg fun hin => hout ⟨hin.1, hin.2.1⟩, hnone] at hstored
    cases hstored
  · intro hin
    refine ⟨hnewest, ?_, fun i hi => ?_⟩
    · rw [hnewest, slot_enter, if_pos ⟨hin.1, hin.2, rfl⟩]
      rfl
    · rw [slot_enter, if_neg fun heq => hi heq.2.2]

section Line

variable {s : ShellState RQ SQ} {word : List Byte}

/-- A line that returns has run a command, and ends as the command ends. -/
theorem ending_of_returns (h : 0 < s.cmdLen) (hret : (decodeCommand s).result = .ok ()) :
    ∃ c, selected s.toEditor = some c ∧
      Ending c (s.upcoming 0) (keptCopy (s.upcoming 0).stack s.toEditor)
        (prepared s).toEditor s.toHistory (decodeCommand s).state := by
  cases hword : parsedArg (lineArgs s.toEditor) 0 with
  | none =>
    rw [decodeCommand_none h hword] at hret
    cases hret
  | some word =>
    refine ⟨commandOf word, by rw [selected, hword]; rfl, ?_⟩
    rw [decodeCommand_some h hword] at hret ⊢
    exact (runCommand_ensures _ _ (strlen_keptCopy_ne_zero _ hword) (commandOf word) (prepared s)
      ⟨rfl, rfl⟩).2 () hret

/-- The first byte of the line is still in `cmd` when the command is selected. -/
theorem load_prepared (hword : parsedArg (lineArgs s.toEditor) 0 = some word) :
    (prepared s).cmd.load (0 : ℕ) ≠ 0#8 := by
  have hline := typedLine_ne_nil hword
  have hhead := split_head? (terminated s.toEditor).cmd.bytes ARGMAX
  rw [Memory.load_natCast, List.getD_eq_getElem?_getD, ← List.head?_eq_getElem?]
  change ((split (terminated s.toEditor).cmd.bytes ARGMAX).buffer.head?).getD 0#8 ≠ 0#8
  rw [hhead]
  intro hnul
  apply hline
  apply List.length_eq_zero_iff.mp
  apply strlen_eq_zero_iff.mpr
  intro b hb
  change (terminated s.toEditor).cmd.bytes.head?.getD 0#8 = 0#8 at hnul
  rwa [Option.mem_def.mp hb] at hnul

/-- `mousetest` leaves the line in `cmd`. -/
theorem not_leavesReset_mousetest (h : 0 < s.cmdLen)
    (hret : (decodeCommand s).result = .ok ()) (hmouse : selected s.toEditor = some .mousetest) :
    ¬ LeavesReset s (decodeCommand s).state := by
  intro hreset
  obtain ⟨c, hc, hending⟩ := ending_of_returns h hret
  obtain rfl := Option.some.inj (hmouse.symm.trans hc)
  obtain ⟨word, hword, -⟩ := Option.map_eq_some_iff.mp hmouse
  have hcleared := hreset.cleared 0 (by decide)
  rw [hending.1] at hcleared
  exact load_prepared hword hcleared

/-- `kbdtest` does not change its length. -/
theorem not_leavesReset_kbdtest (h : 0 < s.cmdLen)
    (hret : (decodeCommand s).result = .ok ()) (hkbd : selected s.toEditor = some .kbdtest) :
    ¬ LeavesReset s (decodeCommand s).state := by
  intro hreset
  obtain ⟨c, hc, hending⟩ := ending_of_returns h hret
  obtain rfl := Option.some.inj (hkbd.symm.trans hc)
  have hlen := hreset.cmdLen
  rw [hending.1] at hlen
  exact h.ne' hlen

end Line

/-- A line that returns leaves the editor reset exactly when it selects neither of the two
commands that skip the common end and the history has a slot left. -/
theorem leavesReset_iff {s : ShellState RQ SQ} (h : 0 < s.cmdLen)
    (hret : (decodeCommand s).result = .ok ()) :
    LeavesReset s (decodeCommand s).state ↔
      selected s.toEditor ≠ some .mousetest ∧ selected s.toEditor ≠ some .kbdtest ∧
      0 ≤ s.cmdHist + 1 ∧ s.cmdHist + 1 < CMD_HISTORY := by
  by_cases hmouse : selected s.toEditor = some .mousetest
  · exact iff_of_false (not_leavesReset_mousetest h hret hmouse) fun hcond => hcond.1 hmouse
  by_cases hkbd : selected s.toEditor = some .kbdtest
  · exact iff_of_false (not_leavesReset_kbdtest h hret hkbd) fun hcond => hcond.2.1 hkbd
  -- All other commands go through the common end.
  obtain ⟨c, hc, hending⟩ := ending_of_returns h hret
  rw [hc, Option.some.injEq] at hmouse hkbd
  obtain ⟨heditor, block, -, hhistory⟩ := hending.common hmouse hkbd
  have hadds := addsOne_enter_iff s.toHistory
    (entryOf block (keptCopy (s.upcoming 0).stack s.toEditor))
  rw [← hhistory] at hadds
  constructor
  · intro hreset
    exact ⟨by simpa [hc] using hmouse, by simpa [hc] using hkbd, hadds.mp hreset.added⟩
  · rintro ⟨-, -, hroom⟩
    constructor
    case cursorIndex => rw [heditor]; rfl
    case cmdLen => rw [heditor]; rfl
    case cleared =>
      intro i hi
      have hnul : i < nuls.length := by rwa [length_nuls]
      rw [heditor]
      exact (Memory.load_fill _ length_nuls hi).trans (List.getElem_replicate hnul)
    case added => exact hadds.mpr hroom
    case histCursor => rw [hhistory]; rfl

/-- `help`, the first line of a session. -/
theorem leavesReset_iff_help :
    let s := atPrompt (ascii ['h', 'e', 'l', 'p']) .empty clearWorld
    LeavesReset s (decodeCommand s).state ↔
      selected s.toEditor ≠ some .mousetest ∧ selected s.toEditor ≠ some .kbdtest ∧
      0 ≤ s.cmdHist + 1 ∧ s.cmdHist + 1 < CMD_HISTORY :=
  leavesReset_iff (s := atPrompt (ascii ['h', 'e', 'l', 'p']) .empty clearWorld) (by decide) rfl

/-- `mousetest`, the first line of a session. -/
theorem mousetest_keeps_line :
    let s := atPrompt (ascii ['m', 'o', 'u', 's', 'e', 't', 'e', 's', 't']) .empty clearWorld
    0 < s.cmdLen ∧ (decodeCommand s).result = .ok () ∧ ¬ LeavesReset s (decodeCommand s).state := by
  intro s
  have hlen : 0 < s.cmdLen := by decide
  have hret : (decodeCommand s).result = .ok () := rfl
  exact ⟨hlen, hret, not_leavesReset_mousetest hlen hret (by decide)⟩

end Sel4Xhci.Shell
