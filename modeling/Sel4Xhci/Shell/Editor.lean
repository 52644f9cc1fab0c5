import Mathlib.Algebra.Order.Group.Int
import Sel4Xhci.Semantics.TextCursor
import Sel4Xhci.Shell.Basic
import Sel4Xhci.Shell.Keymap

/-!
# Editing the line

The keys that edit the line at the prompt. The line is kept in `cmd` from index 0 on, and what
is behind it are bytes of earlier lines. A character that is entered in the middle opens a gap
from the end of the line backwards; one that is deleted there is closed over forwards.

## Main definitions

* `backSpace`, `moveLeft`, `moveRight`, `insertKey` — the code for each key
* `Shows` — the edit line shows a text with a cursor

## Main results

* `backSpace_shows`, `insertKey_shows`, ... — what each key does to the text
-/

set_option autoImplicit false

namespace Sel4Xhci.Shell

open Semantics Semantics.CString Semantics.Program

/-! ## Editing keys -/

/-- A keysym as a `char`. -/
def keyByte (keypress : Keysym) : Byte := keypress.setWidth 8

/-- The terminal's cursor goes back. -/
def goBack {σ : Type} (n : ℕ) : Code σ Unit := emit (List.replicate n (.printf "\x08"))

/-- `cmd[i] = cmd[i+1]`, from index `i` on. -/
def closeGap : ℕ → ℤ → Code Editor Unit
  | 0, _ => pure ()
  | n + 1, i => do
    let b ← readCmd (i + 1)
    writeCmd i b
    let b ← readCmd i
    printf (char b)
    closeGap n (i + 1)

/-- The case of `KS_BackSpace`. -/
def backSpace (keypress : Keysym) : Code Editor Unit := do
  let e ← Program.get
  if 0 < e.cursorIndex then
    printf (char (keyByte keypress) ++ " " ++ char (keyByte keypress))
    Program.modify fun e => { e with cursorIndex := e.cursorIndex - 1, cmdLen := e.cmdLen - 1 }
    let e ← Program.get
    if e.cursorIndex ≠ e.cmdLen then
      let ofs := (e.cmdLen - e.cursorIndex).toNat
      closeGap ofs e.cursorIndex
      printf " "
      goBack (ofs + 1)
    else pure ()
  else pure ()

/-- The case of `KS_Left`. -/
def moveLeft : Code Editor Unit := do
  let e ← Program.get
  if 0 < e.cursorIndex then
    printf "\x08"
    Program.modify fun e => { e with cursorIndex := e.cursorIndex - 1 }
  else pure ()

/-- The case of `KS_Right`. -/
def moveRight : Code Editor Unit := do
  let e ← Program.get
  if e.cursorIndex < e.cmdLen then
    let b ← readCmd e.cursorIndex
    printf (char b)
    Program.modify fun e => { e with cursorIndex := e.cursorIndex + 1 }
  else pure ()

/-- `cmd[i+1] = cmd[i]`, from index `i` down. -/
def openGap : ℕ → ℤ → Code Editor Unit
  | 0, _ => pure ()
  | n + 1, i => do
    let b ← readCmd i
    writeCmd (i + 1) b
    openGap n (i - 1)

/-- `printf("%c", cmd[i])`, from index `i` on. -/
def printCells : ℕ → ℤ → Code Editor Unit
  | 0, _ => pure ()
  | n + 1, i => do
    let b ← readCmd i
    printf (char b)
    printCells n (i + 1)

/-- The default case: characters are entered, all other keysyms are dropped. -/
def insertKey (keypress : Keysym) : Code Editor Unit := do
  let e ← Program.get
  if e.cursorIndex < CMD_LIMIT ∧ Printable keypress then
    printf (char (keyByte keypress))
    Program.when (e.cursorIndex ≠ e.cmdLen) do
      let ofs := (e.cmdLen - e.cursorIndex + 1).toNat
      openGap ofs e.cmdLen
      printCells (e.cmdLen - e.cursorIndex).toNat (e.cursorIndex + 1)
      goBack (ofs - 1)
    Program.modify fun e => { e with cmdLen := e.cmdLen + 1 }
    writeCmd e.cursorIndex (keyByte keypress)
    Program.modify fun e => { e with cursorIndex := e.cursorIndex + 1 }
  else pure ()

/-! ## The line as a text with a cursor -/

/-- The line is `l` up to the cursor and `r` from there on, whatever is behind it in `cmd`. -/
structure LineAt (e : Editor) (l r : List Byte) : Prop where
  bytes : ∃ stale, e.cmd.bytes = l ++ (r ++ stale)
  cursorIndex : e.cursorIndex = l.length
  cmdLen : e.cmdLen = l.length + r.length

/-- The edit line shows a text with a cursor. -/
def Shows (e : Editor) (t : TextCursor Byte) : Prop := LineAt e t.front.reverse t.behind

/-- The line is as long as the text. -/
theorem Shows.cmdLen_eq {e : Editor} {t : TextCursor Byte} (h : Shows e t) :
    e.cmdLen = t.text.length := by
  rw [h.cmdLen, TextCursor.text, List.length_append]
  rfl

section Cells

variable {e : Editor}

theorem readCmd_returns (i : ℤ) : Returns (readCmd i) e (e.cmd.load i) e := rfl

theorem writeCmd_returns (i : ℤ) (b : Byte) :
    Returns (writeCmd i b) e () { e with cmd := e.cmd.store i b } := rfl

theorem printf_returns {σ : Type} (text : String) (s : σ) :
    Returns (printf text : Code σ Unit) s () s := rfl

theorem getD_append_cons (l : List Byte) (b : Byte) (rest : List Byte) :
    (l ++ b :: rest).getD l.length 0#8 = b := by simp

theorem set_append_cons (l : List Byte) (b c : Byte) (rest : List Byte) :
    (l ++ b :: rest).set l.length c = l ++ c :: rest := by simp

/-- The gap is closed: what was behind `b` moves up, and its last character is left twice. -/
theorem closeGap_returns (l r : List Byte) (b : Byte) (rest : List Byte)
    (hbytes : e.cmd.bytes = l ++ b :: (r ++ rest)) :
    ∃ mem last, Returns (closeGap r.length l.length) e () { e with cmd := mem } ∧
      mem.bytes = l ++ r ++ last :: rest := by
  induction r generalizing e l b with
  | nil => exact ⟨e.cmd, b, .pure () e, by simpa using hbytes⟩
  | cons x r ih =>
    -- The first character moves to the left, and the gap is behind it then.
    have hread : e.cmd.load ((l.length : ℤ) + 1) = x := by
      have hindex : (l.length : ℤ) + 1 = (l.length + 1 : ℕ) := rfl
      rw [hindex, Memory.load_natCast, hbytes]
      simp
    have hwritten : (e.cmd.store l.length x).bytes = (l ++ [x]) ++ x :: (r ++ rest) := by
      rw [Memory.store_natCast, hbytes, set_append_cons]
      simp
    obtain ⟨mem, last, hrun, hmem⟩ := ih (e := { e with cmd := e.cmd.store l.length x }) (l ++ [x])
      x hwritten
    have hnext : ((l ++ [x]).length : ℤ) = l.length + 1 := by simp
    rw [hnext] at hrun
    refine ⟨mem, last, ?_, by simpa using hmem⟩
    have hfirst := readCmd_returns (e := e) (l.length + 1)
    rw [hread] at hfirst
    exact hfirst.bind <| (writeCmd_returns l.length x).bind <|
      (readCmd_returns l.length).bind <| (printf_returns _ _).bind hrun

/-- The gap is opened: what stands from `l` on moves down, and its first character is left
twice. -/
theorem openGap_returns (l m : List Byte) (b : Byte) (rest : List Byte)
    (hbytes : e.cmd.bytes = l ++ m ++ b :: rest) :
    ∃ mem first, Returns (openGap m.length (l.length + m.length - 1)) e () { e with cmd := mem } ∧
      mem.bytes = l ++ first :: (m ++ rest) := by
  induction m using List.reverseRecOn generalizing e b rest with
  | nil => exact ⟨e.cmd, b, .pure () e, by simpa using hbytes⟩
  | append_singleton m x ih =>
    -- The loop runs down from the top, so the last character moves first.
    have htop : (l.length : ℤ) + (m ++ [x]).length - 1 = ((l ++ m).length : ℕ) := by
      simp only [List.length_append, List.length_singleton]
      omega
    have hread : e.cmd.load (l ++ m).length = x := by
      rw [Memory.load_natCast, hbytes, ← List.append_assoc, List.append_assoc (l ++ m),
        List.singleton_append]
      exact getD_append_cons _ _ _
    have hwritten : (e.cmd.store ((l ++ m).length + 1 : ℕ) x).bytes = l ++ m ++ x :: x :: rest := by
      rw [Memory.store_natCast, hbytes]
      have hone : (l ++ m).length + 1 = (l ++ (m ++ [x])).length := by simp; omega
      rw [hone, set_append_cons]
      simp
    obtain ⟨mem, first, hrun, hmem⟩ := ih
      (e := { e with cmd := e.cmd.store ((l ++ m).length + 1 : ℕ) x }) x (x :: rest) hwritten
    refine ⟨mem, first, ?_, by simpa using hmem⟩
    have hfirst := readCmd_returns (e := e) (l ++ m).length
    rw [hread] at hfirst
    have hnext : ((l ++ m).length : ℤ) - 1 = l.length + m.length - 1 := by simp
    rw [htop, List.length_append, List.length_singleton]
    refine hfirst.bind <| (writeCmd_returns _ x).bind ?_
    rw [hnext]
    exact hrun

/-- Printing cells changes nothing. -/
theorem printCells_returns (n : ℕ) (i : ℤ) : Returns (printCells n i) e () e := by
  induction n generalizing i with
  | zero => exact .pure () e
  | succ n ih =>
    exact (readCmd_returns i).bind <| (printf_returns _ e).bind (ih (i + 1))

end Cells

section Keys

variable {e : Editor} {l r : List Byte} {c : Byte}

theorem backSpace_start (h : LineAt e [] r) (keypress : Keysym) :
    Returns (backSpace keypress) e () e := by
  have hstop : ¬ 0 < e.cursorIndex := by simp [h.cursorIndex]
  rw [Returns, backSpace, bind_ok (get_run e), if_neg hstop]
  rfl

theorem backSpace_returns (h : LineAt e (l ++ [c]) r) (keypress : Keysym) :
    ∃ e', Returns (backSpace keypress) e () e' ∧ LineAt e' l r := by
  obtain ⟨⟨stale, hbytes⟩, hcursor, hlen⟩ := h
  rw [List.length_append, List.length_singleton] at hcursor hlen
  rw [List.append_assoc, List.singleton_append] at hbytes
  -- The indices go back first, whether or not there is a gap to close.
  let e₁ : Editor := { e with cursorIndex := e.cursorIndex - 1, cmdLen := e.cmdLen - 1 }
  have hcursor₁ : e₁.cursorIndex = l.length := by simp [e₁, hcursor]
  have hlen₁ : e₁.cmdLen = l.length + r.length := by simp [e₁, hlen]; omega
  have hmodify : Returns (modify fun e : Editor => { e with
      cursorIndex := e.cursorIndex - 1, cmdLen := e.cmdLen - 1 } : Code Editor Unit) e () e₁ :=
    .modify _ e
  have hstart : ∀ {e' : Editor}, Returns (if e₁.cursorIndex ≠ e₁.cmdLen then do
        closeGap (e₁.cmdLen - e₁.cursorIndex).toNat e₁.cursorIndex
        printf " "
        goBack ((e₁.cmdLen - e₁.cursorIndex).toNat + 1)
      else pure ()) e₁ () e' → Returns (backSpace keypress) e () e' := by
    intro e' hrest
    refine (Returns.get e).bind ?_
    rw [if_pos (by omega)]
    exact (printf_returns _ e).bind <| hmodify.bind <|
      (Returns.get e₁).bind hrest
  by_cases hend : r = []
  · -- At the end of the line the character stays in `cmd`, behind the line.
    subst hend
    refine ⟨e₁, hstart ?_, ⟨c :: stale, hbytes⟩, hcursor₁, hlen₁⟩
    rw [if_neg (by simp [hcursor₁, hlen₁])]
    exact .pure () e₁
  · obtain ⟨mem, last, hrun, hmem⟩ := closeGap_returns (e := e₁) l r c stale hbytes
    have hpos := List.length_pos_of_ne_nil hend
    have hclose : closeGap (e₁.cmdLen - e₁.cursorIndex).toNat e₁.cursorIndex =
        closeGap r.length l.length := by
      rw [hcursor₁, hlen₁, add_sub_cancel_left, Int.toNat_natCast]
    refine ⟨{ e₁ with cmd := mem }, hstart ?_, ⟨last :: stale, by simpa using hmem⟩, hcursor₁,
      hlen₁⟩
    rw [if_pos (by omega), hclose]
    exact hrun.bind <| (printf_returns " " _).bind rfl

theorem moveLeft_start (h : LineAt e [] r) : Returns moveLeft e () e := by
  have hstop : ¬ 0 < e.cursorIndex := by simp [h.cursorIndex]
  rw [Returns, moveLeft, bind_ok (get_run e), if_neg hstop]
  rfl

theorem moveLeft_returns (h : LineAt e (l ++ [c]) r) :
    ∃ e', Returns moveLeft e () e' ∧ LineAt e' l (c :: r) := by
  obtain ⟨⟨stale, hbytes⟩, hcursor, hlen⟩ := h
  rw [List.length_append, List.length_singleton] at hcursor hlen
  refine ⟨{ e with cursorIndex := e.cursorIndex - 1 }, ?_, ⟨stale, by simpa using hbytes⟩, ?_, ?_⟩
  · refine (Returns.get e).bind ?_
    rw [if_pos (by omega)]
    exact (printf_returns _ e).bind rfl
  · simp [hcursor]
  · rw [hlen, List.length_cons]
    omega

theorem moveRight_end (h : LineAt e l []) : Returns moveRight e () e := by
  have hstop : ¬ e.cursorIndex < e.cmdLen := by simp [h.cursorIndex, h.cmdLen]
  rw [Returns, moveRight, bind_ok (get_run e), if_neg hstop]
  rfl

theorem moveRight_returns (h : LineAt e l (c :: r)) :
    ∃ e', Returns moveRight e () e' ∧ LineAt e' (l ++ [c]) r := by
  obtain ⟨⟨stale, hbytes⟩, hcursor, hlen⟩ := h
  rw [List.length_cons] at hlen
  refine ⟨{ e with cursorIndex := e.cursorIndex + 1 }, ?_, ⟨stale, by simpa using hbytes⟩, ?_, ?_⟩
  · refine (Returns.get e).bind ?_
    rw [if_pos (by omega)]
    exact (readCmd_returns _).bind <| (printf_returns _ e).bind (.modify _ e)
  · simp [hcursor]
  · rw [hlen, List.length_append, List.length_singleton]
    omega

/-- The cell at the cursor may be anything when the character is entered. -/
theorem lineAt_of_entered {e : Editor} {mem : Memory CMD_LIMIT} {old : Byte} {stale : List Byte}
    (h : LineAt e l r) (hmem : mem.bytes = l ++ old :: (r ++ stale)) (c : Byte) :
    LineAt ⟨mem.store l.length c, e.cursorIndex + 1, e.cmdLen + 1⟩ (l ++ [c]) r := by
  refine ⟨⟨stale, ?_⟩, ?_, ?_⟩
  · rw [Memory.store_natCast, hmem, set_append_cons]
    simp
  · simp [h.cursorIndex]
  · simp only [h.cmdLen, List.length_append, List.length_singleton]
    omega

theorem insertKey_returns (h : LineAt e l r) (hroom : l.length + r.length + 1 < CMD_LIMIT)
    {keypress : Keysym} (hprintable : Printable keypress) :
    ∃ e', Returns (insertKey keypress) e () e' ∧ LineAt e' (l ++ [keyByte keypress]) r := by
  obtain ⟨stale, hbytes⟩ := h.bytes
  have hcursor := h.cursorIndex
  have hlen := h.cmdLen
  -- There is room for two more characters behind the line.
  obtain ⟨s₀, s₁, rest, rfl⟩ : ∃ s₀ s₁ rest, stale = s₀ :: s₁ :: rest := by
    have hsize := e.cmd.size_le
    rw [hbytes, List.length_append, List.length_append] at hsize
    match stale, hsize with
    | [], hsize => simp at hsize; omega
    | [_], hsize => simp at hsize; omega
    | s₀ :: s₁ :: rest, _ => exact ⟨s₀, s₁, rest, rfl⟩
  have hwrite : writeCmd e.cursorIndex (keyByte keypress) =
      writeCmd l.length (keyByte keypress) := by
    rw [hcursor]
  have hstart : ∀ mem : Memory CMD_LIMIT, Returns (when (e.cursorIndex ≠ e.cmdLen) do
        openGap (e.cmdLen - e.cursorIndex + 1).toNat e.cmdLen
        printCells (e.cmdLen - e.cursorIndex).toNat (e.cursorIndex + 1)
        goBack ((e.cmdLen - e.cursorIndex + 1).toNat - 1)) e () { e with cmd := mem } →
      Returns (insertKey keypress) e ()
        ⟨mem.store l.length (keyByte keypress), e.cursorIndex + 1, e.cmdLen + 1⟩ := by
    intro mem hgap
    refine (Returns.get e).bind ?_
    rw [if_pos ⟨by omega, hprintable⟩]
    refine (printf_returns _ e).bind <| hgap.bind <| (Returns.modify _ _).bind ?_
    rw [hwrite]
    exact (writeCmd_returns l.length _).bind (.modify _ _)
  by_cases hend : r = []
  · subst hend
    refine ⟨_, hstart e.cmd ?_, lineAt_of_entered h (by simpa using hbytes) _⟩
    rw [Program.when, if_neg (by simp [hcursor, hlen])]
    exact .pure () e
  · have hpos := List.length_pos_of_ne_nil hend
    obtain ⟨mem, first, hrun, hmem⟩ := openGap_returns (e := e) l (r ++ [s₀]) s₁ rest
      (by simpa using hbytes)
    have hopen : openGap (e.cmdLen - e.cursorIndex + 1).toNat e.cmdLen =
        openGap (r ++ [s₀]).length (l.length + (r ++ [s₀]).length - 1) := by
      have hlength : (r ++ [s₀]).length = r.length + 1 := by simp
      congr 1 <;> omega
    refine ⟨_, hstart mem ?_,
      lineAt_of_entered h (by simpa using hmem : _ = l ++ first :: (r ++ s₀ :: rest)) _⟩
    rw [Program.when, if_pos (by omega), hopen]
    exact hrun.bind <| (printCells_returns _ _).bind rfl

variable {t : TextCursor Byte}

theorem backSpace_shows (h : Shows e t) (keypress : Keysym) :
    ∃ e', Returns (backSpace keypress) e () e' ∧ Shows e' t.backspace := by
  rcases t with ⟨_ | ⟨c, front⟩, behind⟩
  · exact ⟨e, backSpace_start h keypress, h⟩
  · rw [Shows, List.reverse_cons] at h
    exact backSpace_returns h keypress

theorem moveLeft_shows (h : Shows e t) : ∃ e', Returns moveLeft e () e' ∧ Shows e' t.moveLeft := by
  rcases t with ⟨_ | ⟨c, front⟩, behind⟩
  · exact ⟨e, moveLeft_start h, h⟩
  · rw [Shows, List.reverse_cons] at h
    exact moveLeft_returns h

theorem moveRight_shows (h : Shows e t) :
    ∃ e', Returns moveRight e () e' ∧ Shows e' t.moveRight := by
  rcases t with ⟨front, _ | ⟨c, behind⟩⟩
  · exact ⟨e, moveRight_end h, h⟩
  · obtain ⟨e', hrun, hline⟩ := moveRight_returns h
    exact ⟨e', hrun, by simpa [Shows, TextCursor.moveRight] using hline⟩

theorem insertKey_shows (h : Shows e t) (hroom : t.text.length + 1 < CMD_LIMIT)
    {keypress : Keysym} (hprintable : Printable keypress) :
    ∃ e', Returns (insertKey keypress) e () e' ∧ Shows e' (t.insert (keyByte keypress)) := by
  have hlength : t.front.reverse.length + t.behind.length + 1 < CMD_LIMIT := by
    rwa [TextCursor.length_text, TextCursor.cursor, ← List.length_reverse] at hroom
  obtain ⟨e', hrun, hline⟩ := insertKey_returns h hlength hprintable
  exact ⟨e', hrun, by simpa [Shows, TextCursor.insert] using hline⟩

end Keys

end Sel4Xhci.Shell
