import Sel4Xhci.Shell.Console

/-!
# Typing a line

With the keys that edit it, the line at the prompt is a text with a cursor, as long as there is
room for it in `cmd` and for two characters more.

## Main definitions

* `edited` — what a sequence of keysyms makes of a text with a cursor
* `handed` — the texts that are handed to the parser

## Main results

* `typing_refines` — the line is the text, and Return hands it to the parser
-/

set_option autoImplicit false

namespace Sel4Xhci.Shell

open Semantics Semantics.CString Semantics.Program Umass

variable {RQ : Fifo BlkReq} {SQ : Fifo Answer}

/-- A key that edits the line. -/
def IsEditKey (keypress : Keysym) : Prop :=
  Printable keypress ∨ keypress = KS_BackSpace ∨ keypress = KS_Left ∨ keypress = KS_Right

instance (keypress : Keysym) : Decidable (IsEditKey keypress) :=
  inferInstanceAs (Decidable (_ ∨ _))

/-- What a key makes of a text with a cursor. -/
def editKey (t : TextCursor Byte) (keypress : Keysym) : TextCursor Byte :=
  if keypress = KS_BackSpace then t.backspace
  else if keypress = KS_Left then t.moveLeft
  else if keypress = KS_Right then t.moveRight
  else t.insert (keyByte keypress)

/-- The text that a sequence of keys makes. -/
def edited (keys : List Keysym) : TextCursor Byte := keys.foldl editKey .empty

/-- The text that is handed to the parser. -/
def Event.handed? : Event → Option (List Byte)
  | .split bytes => some (string bytes)
  | _ => none

/-- The texts that are handed to the parser in a run. -/
def handed {σ α : Type} (o : Outcome σ Event Stop α) : List (List Byte) :=
  o.events.filterMap Event.handed?

/-! ## Texts -/

section Texts

variable {t : TextCursor Byte} {keypress : Keysym}

theorem keyByte_ne_nul (h : Printable keypress) : keyByte keypress ≠ 0#8 := by
  obtain ⟨hlow, hhigh⟩ := h
  unfold keyByte
  bv_omega

theorem nul_notMem_editKey (h : IsEditKey keypress) (ht : 0#8 ∉ t.text) :
    0#8 ∉ (editKey t keypress).text := by
  rcases t with ⟨front, behind⟩
  simp only [TextCursor.text, List.mem_append, List.mem_reverse, not_or] at ht
  unfold editKey
  split_ifs with hback hleft hright
  · simp only [TextCursor.text, TextCursor.backspace, List.mem_append, List.mem_reverse, not_or]
    exact ⟨fun hmem => ht.1 (List.mem_of_mem_tail hmem), ht.2⟩
  · cases front <;> simp_all [TextCursor.text, TextCursor.moveLeft]
  · cases behind <;> simp_all [TextCursor.text, TextCursor.moveRight]
  · have hprintable : Printable keypress := by
      rcases h with h | h | h | h
      · exact h
      · exact absurd h hback
      · exact absurd h hleft
      · exact absurd h hright
    simp only [TextCursor.text, TextCursor.insert, List.reverse_cons, List.mem_append,
      List.mem_reverse, List.mem_singleton, not_or]
    exact ⟨⟨ht.1, (keyByte_ne_nul hprintable).symm⟩, ht.2⟩

/-- A key makes the text longer by one character at most. -/
theorem length_editKey_le (t : TextCursor Byte) (keypress : Keysym) :
    (editKey t keypress).text.length ≤ t.text.length + 1 := by
  rcases t with ⟨front, behind⟩
  unfold editKey
  split_ifs
  · simp [TextCursor.text, TextCursor.backspace]
    omega
  · cases front <;> simp [TextCursor.text, TextCursor.moveLeft]
  · cases behind <;> simp [TextCursor.text, TextCursor.moveRight]
  · simp [TextCursor.text, TextCursor.insert]
    omega

/-- So keys make no longer a text than they are many. -/
theorem length_edited_le (keys : List Keysym) : (edited keys).text.length ≤ keys.length := by
  induction keys using List.reverseRecOn with
  | nil => exact le_rfl
  | append_singleton keys keypress ih =>
    have hlast := length_editKey_le (edited keys) keypress
    rw [edited, List.foldl_append, List.length_append]
    exact hlast.trans (Nat.add_le_add_right ih 1)

end Texts

/-! ## Keys -/

section Keys

variable {s : ShellState RQ SQ} {t : TextCursor Byte} {keypress : Keysym}

/-- A key does to the line what it does to the text. -/
theorem handleConsoleKey_shows (h : Shows s.toEditor t) (hkey : IsEditKey keypress)
    (hroom : (editKey t keypress).text.length ≤ CMD_LIMIT - 2) :
    ∃ e', Returns (handleConsoleKey keypress) s () { s with toEditor := e' } ∧
      Shows e' (editKey t keypress) := by
  rcases hkey with hprintable | rfl | rfl | rfl
  · have hother : ∀ k, ¬ Printable k → keypress ≠ k := fun k hk heq => hk (heq ▸ hprintable)
    have hback := hother KS_BackSpace (by decide)
    have hleft := hother KS_Left (by decide)
    have hright := hother KS_Right (by decide)
    rw [editKey, if_neg hback, if_neg hleft, if_neg hright] at hroom ⊢
    have hlength : (t.insert (keyByte keypress)).text.length = t.text.length + 1 := by
      simp only [TextCursor.length_text, TextCursor.cursor, TextCursor.insert, List.length_cons]
      omega
    obtain ⟨e', hrun, hshows⟩ := insertKey_shows h (by omega) hprintable
    refine ⟨e', ?_, hshows⟩
    rw [handleConsoleKey, if_neg hback, if_neg (hother KS_Return (by decide)),
      if_neg (hother KS_Up (by decide)), if_neg (hother KS_Down (by decide)), if_neg hleft,
      if_neg hright]
    exact onEditor_returns hrun
  · obtain ⟨e', hrun, hshows⟩ := backSpace_shows h KS_BackSpace
    exact ⟨e', onEditor_returns hrun, hshows⟩
  · obtain ⟨e', hrun, hshows⟩ := moveLeft_shows h
    exact ⟨e', onEditor_returns hrun, hshows⟩
  · obtain ⟨e', hrun, hshows⟩ := moveRight_shows h
    exact ⟨e', onEditor_returns hrun, hshows⟩

/-- A sequence of keys that never makes the text too long. -/
theorem exec_shows (h : Shows s.toEditor t) (ht : 0#8 ∉ t.text) {keys : List Keysym}
    (hkeys : ∀ k ∈ keys, IsEditKey k)
    (hroom : ∀ n, ((keys.take n).foldl editKey t).text.length ≤ CMD_LIMIT - 2) :
    ∃ e', consoleRun.exec s keys = some { s with toEditor := e' } ∧
      Shows e' (keys.foldl editKey t) ∧ 0#8 ∉ (keys.foldl editKey t).text := by
  induction keys generalizing s t with
  | nil => exact ⟨s.toEditor, rfl, h, ht⟩
  | cons keypress keys ih =>
    obtain ⟨hkey, hkeys⟩ := List.forall_mem_cons.mp hkeys
    obtain ⟨e₁, hrun, hshows⟩ := handleConsoleKey_shows h hkey (hroom 1)
    obtain ⟨e', hexec, hfinal⟩ := ih (s := { s with toEditor := e₁ }) hshows
      (nul_notMem_editKey hkey ht) hkeys fun n => hroom (n + 1)
    refine ⟨e', Machine.exec_cons_eq_some.mpr ⟨{ s with toEditor := e₁ }, ?_, hexec⟩, hfinal⟩
    change stateOf (handleConsoleKey keypress s) = _
    rw [hrun]
    rfl

/-! ## Return -/

/-- The terminator ends the line where the text ends. -/
theorem typedLine_eq (h : Shows s.toEditor t) (ht : 0#8 ∉ t.text)
    (hroom : t.text.length < CMD_LIMIT) : typedLine s.toEditor = t.text := by
  have hlength := h.cmdLen_eq
  obtain ⟨⟨stale, hbytes⟩, -, -⟩ := h
  have htext : t.front.reverse ++ (t.behind ++ stale) = t.text ++ stale := by
    rw [TextCursor.text, List.append_assoc]
  obtain ⟨b, stale', rfl⟩ : ∃ b stale', stale = b :: stale' := by
    have hsize := s.cmd.size_le
    rw [hbytes, htext, List.length_append] at hsize
    cases stale with
    | nil => simp at hsize; omega
    | cons b stale' => exact ⟨b, stale', rfl⟩
  have hterminated : (terminated s.toEditor).cmd.bytes = t.text ++ 0#8 :: stale' := by
    rw [terminated, hlength, Memory.store_natCast, hbytes, htext, set_append_cons]
  rw [typedLine, hterminated, string_append ht (by simp)]

/-- Preparing a line hands it to the parser. -/
theorem handed_preparation (e : Editor) :
    (preparation e).filterMap Event.handed? = [typedLine e] := by
  have hsplit : (Event.split (terminated e).cmd.bytes).handed? = some (typedLine e) := rfl
  have htouches : ∀ n, (touches n).filterMap Event.handed? = [] := by
    intro n
    refine List.filterMap_eq_nil_iff.mpr fun event hevent => ?_
    obtain ⟨i, -, rfl⟩ := mem_touches.mp hevent
    rfl
  have hstores : ∀ n, (histStores n).filterMap Event.handed? = [] := by
    intro n
    refine List.filterMap_eq_nil_iff.mpr fun event hevent => ?_
    obtain ⟨i, -, rfl⟩ := List.mem_map.mp hevent
    rfl
  have hwords : ∀ r, (wordAccesses r).filterMap Event.handed? = [] := by
    intro r
    refine List.filterMap_eq_nil_iff.mpr fun event hevent => ?_
    obtain ⟨start, -, hevent⟩ := List.mem_flatMap.mp hevent
    obtain ⟨i, -, rfl⟩ := List.mem_map.mp hevent
    rfl
  rw [preparation, List.cons_append, List.filterMap_cons_none rfl, List.filterMap_append,
    List.filterMap_append, List.filterMap_append, htouches, htouches, hstores,
    List.filterMap_cons_some hsplit, List.filterMap_append, htouches, hwords]
  rfl

/-- What comes behind hands nothing on. -/
theorem handed_runCommand {c : Command} {args : List (List Byte)} {w : World RQ SQ}
    {hist : Memory HIST_SIZE} (hne : strlen hist.bytes ≠ 0) (s : ShellState RQ SQ) :
    handed (runCommand w args hist c s) = [] := by
  refine List.filterMap_eq_nil_iff.mpr fun event hevent => ?_
  cases (runCommand_ensures w args hne c s ⟨rfl, rfl⟩).1 event hevent with
  | acts hemitted =>
    cases hemitted with
    | operation hop _ _ => cases event <;> first | rfl | cases hop
    | _ => rfl
  | _ => rfl

/-- Return hands the line to the parser, unless it is empty. -/
theorem handed_return (s : ShellState RQ SQ) : handed (handleConsoleKey KS_Return s) =
    if 0 < s.cmdLen then [typedLine s.toEditor] else [] := by
  rw [handleConsoleKey_return]
  split_ifs with hlen
  · cases hword : parsedArg (lineArgs s.toEditor) 0 with
    | none =>
      rw [decodeCommand_none hlen hword, handed, Outcome.after, List.singleton_append,
        List.filterMap_cons_none rfl, List.filterMap_append, handed_preparation]
      rfl
    | some word =>
      have hrest : handed (runCommand (s.upcoming 0) (lineArgs s.toEditor)
          (keptCopy (s.upcoming 0).stack s.toEditor) (commandOf word) (prepared s)) = [] :=
        handed_runCommand (strlen_keptCopy_ne_zero _ hword) (prepared s)
      rw [handed] at hrest
      rw [decodeCommand_some hlen hword, handed, Outcome.after, List.singleton_append,
        List.filterMap_cons_none rfl, Outcome.after, List.filterMap_append,
        List.filterMap_append, handed_preparation, hrest]
      rfl
  · rw [handed, Outcome.after, decodeCommand_empty hlen]
    rfl

end Keys

/-- From an empty line, the keys that edit it make of the line what they make of a text with a
cursor, and Return hands this text to the parser. -/
theorem typing_refines {s : ShellState RQ SQ} (hstart : consoleRun.start s) {keys : List Keysym}
    (hkeys : ∀ k ∈ keys, IsEditKey k)
    (hroom : ∀ n, (edited (keys.take n)).text.length ≤ CMD_LIMIT - 2) :
    ∃ s', consoleRun.exec s keys = some s' ∧ s'.cmdLen = (edited keys).text.length ∧
      (s'.cmd.bytes.take s'.cmdLen.toNat, s'.cursorIndex) =
        ((edited keys).text, ((edited keys).cursor : ℤ)) ∧
      handed (handleConsoleKey KS_Return s') =
        if (edited keys).text = [] then [] else [(edited keys).text] := by
  have hempty : Shows s.toEditor .empty := ⟨⟨s.cmd.bytes, rfl⟩, hstart.1, hstart.2⟩
  obtain ⟨e', hexec, hshows, hnul⟩ := exec_shows hempty List.not_mem_nil hkeys hroom
  have hwhole := hroom keys.length
  rw [List.take_length] at hwhole
  -- What is in `cmd` behind the line does not show.
  obtain ⟨⟨stale, hbytes⟩, hcursor, -⟩ := id hshows
  have hcmdLen : e'.cmdLen = (edited keys).text.length := hshows.cmdLen_eq
  refine ⟨{ s with toEditor := e' }, hexec, hcmdLen, Prod.ext ?_ ?_, ?_⟩
  · have htext : e'.cmd.bytes = (edited keys).text ++ stale := by
      rw [hbytes, TextCursor.text, List.append_assoc]
      rfl
    change e'.cmd.bytes.take e'.cmdLen.toNat = _
    rw [hcmdLen, Int.toNat_natCast, htext, List.take_left]
  · rw [TextCursor.cursor, ← List.length_reverse]
    exact hcursor
  · rw [handed_return]
    by_cases hnil : (edited keys).text = []
    · rw [if_pos hnil, if_neg (by simp [hcmdLen, hnil])]
    · have hpos := List.length_pos_of_ne_nil hnil
      have hline := typedLine_eq (s := { s with toEditor := e' }) hshows hnul
        (by change (edited keys).text.length < _; omega)
      rw [if_neg hnil, if_pos (by change 0 < e'.cmdLen; omega), hline]
      rfl

/-- Two characters, a third one between them, and a fourth one instead of it. -/
theorem typing_refines_four :
    let s : ShellState oneReq oneAnswer := atPrompt [] .empty clearWorld
    let keys : List Keysym := [0x61#16, 0x62#16, KS_Left, 0x63#16, KS_BackSpace, 0x64#16, KS_Right]
    ∃ s', consoleRun.exec s keys = some s' ∧ s'.cmdLen = (edited keys).text.length ∧
      (s'.cmd.bytes.take s'.cmdLen.toNat, s'.cursorIndex) =
        ((edited keys).text, ((edited keys).cursor : ℤ)) ∧
      handed (handleConsoleKey KS_Return s') =
        if (edited keys).text = [] then [] else [(edited keys).text] := by
  intro s keys
  have hkeys : ∀ k ∈ keys, IsEditKey k := by
    intro k hk
    simp only [keys, List.mem_cons, List.not_mem_nil, or_false] at hk
    rcases hk with rfl | rfl | rfl | rfl | rfl | rfl | rfl <;> decide
  refine typing_refines ⟨rfl, rfl⟩ hkeys fun n => ?_
  exact (length_edited_le _).trans ((List.length_take_le' n keys).trans (by decide))

end Sel4Xhci.Shell
