import Sel4Xhci.Shell.Notified
import Sel4Xhci.Shell.Reset

/-!
# The modes of the console

`console_state` is set by six commands, by a key in the mouse test, and by two notifications.
Nothing else that the shell does changes it.

## Main definitions

* `Command.enters` — the state behind a command
* `nextKey`, `nextCommand` — what the next round of the loop makes of the oldest report

## Main results

* `runCommand_consoleState` — the state behind a line, whether its command returns or not
* `round_consoleState` — the state behind a round, in all six states
-/

set_option autoImplicit false

namespace Sel4Xhci.Shell

open Semantics Semantics.CString Semantics.Program Umass Devices Sel4Xhci.Ring

variable {RQ : Fifo BlkReq} {SQ : Fifo Answer} {σ τ : Type} {f : σ → τ}

/-! ## What keeps the state -/

theorem printf_keeps (text : String) : Program.Keeps f (printf text) := .emit _

theorem resetPrompt_keeps : Program.Keeps f resetPrompt := printf_keeps _

theorem passTo_keeps (callee : Callee) (arg : Option (List Byte)) :
    Program.Keeps f (passTo callee arg) := by
  refine .bind (.emit _) fun _ => ?_
  cases arg with
  | none => exact .stop _
  | some s => exact .pure s

theorem atoiArg_keeps (arg : Option (List Byte)) : Program.Keeps f (atoiArg arg) :=
  .bind (passTo_keeps _ _) fun _ => .pure _

theorem printInvalid_keeps (usage : String) : Program.Keeps f (printInvalid usage) :=
  .bind (printf_keeps _) fun _ => .bind (printf_keeps _) fun _ => resetPrompt_keeps

section Commands

variable {w : World RQ SQ} {args : List (List Byte)}

theorem blksizeOf_keeps (devId : BitVec 32) :
    Program.Keeps (·.consoleState) (blksizeOf devId : Code (Periphery RQ SQ) (BitVec 32)) := by
  refine .bind .get fun d => ?_
  split
  · exact .pure _
  · exact .stop _

theorem enqueueRequest_keeps (serve : Serve RQ SQ) (call : Call) :
    Program.Keeps (·.consoleState) (enqueueRequest serve call) := by
  refine .bind (.emit _) fun _ => .bind .get fun d => .bind (.emit _) fun _ => ?_
  refine .bind (.modify fun _ => rfl) fun _ => ?_
  split
  · exact .pure ()
  · exact .stop _
  · exact .stop _

theorem strncpyBuffer_keeps (val : BitVec 64) (s : List Byte) :
    Program.Keeps (·.consoleState) (strncpyBuffer val s : Code (Periphery RQ SQ) Unit) :=
  .bind (.emit _) fun _ => .bind (.when fun _ => .stop _) fun _ => .modify fun _ => rfl

theorem readCommand_keeps : Program.Keeps (·.consoleState) (readCommand w args) := by
  refine .ite (fun _ => printInvalid_keeps _) fun _ => ?_
  refine .bind (atoiArg_keeps _) fun _ => .bind (atoiArg_keeps _) fun _ => ?_
  refine .bind (atoiArg_keeps _) fun _ => .bind (blksizeOf_keeps _) fun _ => ?_
  refine .ite (fun _ => .bind (.bind (.emit _) fun _ => .pure _) fun _ => ?_) fun _ => ?_
  · exact .bind (atoiArg_keeps _) fun _ => enqueueRequest_keeps _ _
  · exact .bind (atoiArg_keeps _) fun _ => printf_keeps _

theorem writeCommand_keeps : Program.Keeps (·.consoleState) (writeCommand w args) := by
  refine .ite (fun _ => printInvalid_keeps _) fun _ => ?_
  refine .bind (atoiArg_keeps _) fun _ => .bind (atoiArg_keeps _) fun _ => ?_
  refine .bind (atoiArg_keeps _) fun _ => .bind (blksizeOf_keeps _) fun _ => ?_
  refine .ite (fun _ => .bind (.bind (.emit _) fun _ => .pure _) fun _ => ?_) fun _ => ?_
  · refine .bind (printf_keeps _) fun _ => .bind (passTo_keeps _ _) fun _ => ?_
    refine .bind (passTo_keeps _ _) fun _ => .bind (strncpyBuffer_keeps _ _) fun _ => ?_
    exact .bind (atoiArg_keeps _) fun _ => enqueueRequest_keeps _ _
  · exact .bind (atoiArg_keeps _) fun _ => printf_keeps _

theorem fatlsCommand_keeps : Program.Keeps (·.consoleState) (fatlsCommand w args) := by
  refine .bind (printf_keeps _) fun _ => .bind (.emit _) fun _ => .bind (.emit _) fun _ => ?_
  exact .ite (fun _ => .bind (.emit _) fun _ => .emit _) fun _ => printf_keeps _

theorem fatreadCommand_keeps : Program.Keeps (·.consoleState) (fatreadCommand w args) := by
  refine .bind (.emit _) fun _ => .bind (.emit _) fun _ => ?_
  refine .ite (fun _ => printf_keeps _) fun _ => ?_
  refine .bind (printf_keeps _) fun _ => .bind (.emit _) fun _ => .bind (.emit _) fun _ => ?_
  exact printf_keeps _

theorem fatwriteCommand_keeps : Program.Keeps (·.consoleState) (fatwriteCommand w args) := by
  refine .bind (.when fun _ => printInvalid_keeps _) fun _ => .bind (printf_keeps _) fun _ => ?_
  refine .bind (passTo_keeps _ _) fun _ => .bind (passTo_keeps _ _) fun _ => ?_
  refine .bind (passTo_keeps _ _) fun _ => .bind (.emit _) fun _ => .bind (.emit _) fun _ => ?_
  refine .bind (.when fun _ => printf_keeps _) fun _ => .bind (passTo_keeps _ _) fun _ => ?_
  refine .bind (.emit _) fun _ => .bind (.when fun _ => printf_keeps _) fun _ => ?_
  exact .bind (.emit _) fun _ => printf_keeps _

theorem getdevCommand_keeps :
    Program.Keeps (·.consoleState) (getdevCommand args : Code (Periphery RQ SQ) Unit) := by
  refine .bind (atoiArg_keeps _) fun _ => .bind .get fun d => ?_
  split
  · exact .emit _
  · exact .stop _

theorem lsdevCommand_keeps :
    Program.Keeps (·.consoleState) (lsdevCommand : Code (Periphery RQ SQ) Unit) := by
  refine .bind .get fun d => ?_
  split
  · exact .emit _
  · exact .stop _

/-- The state of the console behind a command. -/
def Command.enters (now : ConsoleState) : Command → ConsoleState
  | .init => .console
  | .disable => if now = .disabled then .console else .disabled
  | .mousetest => .mouseTest
  | .utstest => .utsTest
  | .kbdtest => .keyboardTest
  | .snake => .snake
  | _ => now

theorem disableCommand_state (d : Periphery RQ SQ) :
    (disableCommand d).state.consoleState =
      if d.consoleState = .disabled then .console else .disabled := by
  rw [disableCommand, bind_ok (get_run d), after_nil]
  by_cases hdisabled : d.consoleState = .disabled
  · rw [if_neg (not_not.mpr hdisabled), if_pos hdisabled]
    rfl
  · rw [if_pos hdisabled, if_neg hdisabled]
    rfl

/-- A command enters its state, even if it does not return. -/
theorem act_state (c : Command) (d : Periphery RQ SQ) :
    (c.act w args d).state.consoleState = c.enters d.consoleState := by
  cases c with
  | init => rfl
  | disable => exact disableCommand_state d
  | snake => rfl
  | mousetest => rfl
  | utstest => rfl
  | kbdtest => rfl
  | history => rfl
  | help => rfl
  | unknown => rfl
  -- The other commands print and transfer, and leave the state alone.
  | read => exact readCommand_keeps d
  | write => exact writeCommand_keeps d
  | fatls => exact fatlsCommand_keeps d
  | fatread => exact fatreadCommand_keeps d
  | fatwrite => exact fatwriteCommand_keeps d
  | getdev => exact getdevCommand_keeps d
  | lsdev => exact lsdevCommand_keeps d

end Commands

/-! ## Lines -/

section Lines

variable {w : World RQ SQ} {args : List (List Byte)} {hist : Memory HIST_SIZE}

theorem onEditor_keeps {α : Type} (p : Code Editor α) :
    Program.Keeps (·.consoleState) (onEditor p : Code (ShellState RQ SQ) α) :=
  .focus p fun _ _ => rfl

theorem onHistory_keeps {α : Type} (p : Code History α) :
    Program.Keeps (·.consoleState) (onHistory p : Code (ShellState RQ SQ) α) :=
  .focus p fun _ _ => rfl

theorem commonEnd_keeps : Program.Keeps (·.consoleState) (commonEnd w hist) :=
  .bind (onHistory_keeps _) fun _ => .bind (onEditor_keeps _) fun _ => printf_keeps _

theorem onPeriphery_act_state (c : Command) (s : ShellState RQ SQ) :
    (onPeriphery (c.act w args) s).state.consoleState = c.enters s.consoleState :=
  act_state c s.toPeriphery

theorem carryOut_state (c : Command) (s : ShellState RQ SQ) :
    (carryOut w args c s).state.consoleState = c.enters s.consoleState := by
  unfold carryOut
  split_ifs with hhistory
  · rw [hhistory]
    rfl
  · exact onPeriphery_act_state c s

theorem bind_consoleState {α β : Type} {p : Code (ShellState RQ SQ) α}
    {g : α → Code (ShellState RQ SQ) β} {s : ShellState RQ SQ} {c : ConsoleState}
    (hp : (p s).state.consoleState = c) (hg : ∀ a, Program.Keeps (·.consoleState) (g a)) :
    ((p >>= g) s).state.consoleState = c :=
  (Program.Keeps.bind_state hg s).trans hp

/-- A line leaves the console in the state of its command. -/
theorem runCommand_consoleState (c : Command) (s : ShellState RQ SQ) :
    (runCommand w args hist c s).state.consoleState = c.enters s.consoleState := by
  -- The command comes first, and nothing behind it looks at the state.
  have hcommon : ((do
      carryOut w args c
      commonEnd w hist
      resetPrompt
      onEditor resetLine : Code (ShellState RQ SQ) Unit) s).state.consoleState =
        c.enters s.consoleState := by
    refine bind_consoleState (carryOut_state c s) fun _ => ?_
    exact .bind commonEnd_keeps fun _ => .bind resetPrompt_keeps fun _ => onEditor_keeps _
  cases c with
  | mousetest =>
    refine bind_consoleState (onPeriphery_act_state .mousetest s) fun _ => ?_
    refine .bind (onHistory_keeps _) fun _ => .bind (printf_keeps _) fun _ => ?_
    exact .bind (onEditor_keeps _) fun _ => .emit _
  | utstest =>
    refine bind_consoleState (onPeriphery_act_state .utstest s) fun _ => ?_
    exact .bind commonEnd_keeps fun _ => .bind (onEditor_keeps _) fun _ => .emit _
  | kbdtest => rfl
  | _ => exact hcommon

/-- The command that Return would carry out. -/
def enteredCommand (s : ShellState RQ SQ) : Option Command :=
  if 0 < s.cmdLen then selected s.toEditor else none

/-- The state of the console behind a command, if there is one. -/
def entersOf (now : ConsoleState) : Option Command → ConsoleState
  | some c => c.enters now
  | none => now

theorem decodeCommand_consoleState (s : ShellState RQ SQ) :
    (decodeCommand s).state.consoleState = entersOf s.consoleState (enteredCommand s) := by
  unfold enteredCommand
  by_cases hlen : 0 < s.cmdLen
  · rw [if_pos hlen, selected]
    cases hword : parsedArg (lineArgs s.toEditor) 0 with
    -- The shell stops at the null word, in the state it was in.
    | none =>
      rw [decodeCommand_none hlen hword]
      rfl
    | some word =>
      rw [decodeCommand_some hlen hword]
      exact runCommand_consoleState (commandOf word) (prepared s)
  · rw [if_neg hlen, decodeCommand_empty hlen]
    rfl

end Lines

/-! ## Keys -/

theorem scrollHist_keeps (direction : ℤ) :
    Program.Keeps (·.consoleState) (scrollHist direction : Code (ShellState RQ SQ) Unit) := by
  refine .bind .get fun s => .ite (fun _ => .pure ()) fun _ => ?_
  refine .bind (onEditor_keeps _) fun _ => .ite (fun _ => ?_) fun _ => ?_
  · refine .bind (onHistory_keeps _) fun _ => .bind (.emit _) fun _ => ?_
    exact .bind (onEditor_keeps _) fun _ => onEditor_keeps _
  · refine .bind (onHistory_keeps _) fun _ => ?_
    exact .bind (onEditor_keeps _) fun _ => onEditor_keeps _

theorem handleWheel_keeps (movement : ℤ) :
    Program.Keeps (·.consoleState) (handleWheel movement : Code (ShellState RQ SQ) Unit) :=
  .ite (fun _ => scrollHist_keeps _) fun _ => .ite (fun _ => scrollHist_keeps _) fun _ => .pure ()

theorem handleConsoleKey_consoleState (keypress : Keysym) (s : ShellState RQ SQ) :
    (handleConsoleKey keypress s).state.consoleState =
      entersOf s.consoleState (if keypress = KS_Return then enteredCommand s else none) := by
  by_cases hreturn : keypress = KS_Return
  · rw [hreturn, if_pos rfl, handleConsoleKey_return]
    exact decodeCommand_consoleState s
  · have hkeeps : Program.Keeps (·.consoleState)
        (handleConsoleKey keypress : Code (ShellState RQ SQ) Unit) := by
      refine .ite (fun _ => onEditor_keeps _) fun _ =>
        .ite (fun heq => absurd heq hreturn) fun _ => ?_
      refine .ite (fun _ => scrollHist_keeps _) fun _ =>
        .ite (fun _ => scrollHist_keeps _) fun _ => ?_
      exact .ite (fun _ => onEditor_keeps _) fun _ =>
        .ite (fun _ => onEditor_keeps _) fun _ => onEditor_keeps _
    rw [if_neg hreturn]
    exact hkeeps s

/-- The state of the console behind a keysym; `modifiers` is byte 0 of its report. -/
def keyEnters (s : ShellState RQ SQ) (modifiers : Byte) (keypress : Keysym) : ConsoleState :=
  match s.consoleState with
  | .console => if keypress = KS_Return then entersOf .console (enteredCommand s) else .console
  | .mouseTest => if modifiers &&& 0x01#8 ≠ 0#8 ∧ keypress = KS_c then .console else .mouseTest
  | now => now

theorem keyEnters_mouseTest {s : ShellState RQ SQ} (h : s.consoleState = .mouseTest)
    (modifiers : Byte) (keypress : Keysym) : keyEnters s modifiers keypress =
      if modifiers &&& 0x01#8 ≠ 0#8 ∧ keypress = KS_c then .console else .mouseTest := by
  rw [keyEnters, h]

/-- The state of the console behind a keysym, whether the shell returns or not. -/
theorem handleKeysym_consoleState (report : Report) (keypress : Keysym) (s : ShellState RQ SQ) :
    (handleKeysym report keypress s).state.consoleState = keyEnters s (report 0) keypress := by
  rw [handleKeysym, bind_ok (get_run s), after_nil, keyEnters]
  rcases hstate : s.consoleState with _ | _ | _ | _ | _ | _
  case console =>
    refine (handleConsoleKey_consoleState keypress s).trans ?_
    rw [hstate]
    by_cases hreturn : keypress = KS_Return
    · rw [if_pos hreturn, if_pos hreturn]
    · rw [if_neg hreturn, if_neg hreturn]
      rfl
  case mouseTest =>
    dsimp only
    rw [bind_ok (readReport_run report 0 s)]
    by_cases hleave : report 0 &&& 0x01#8 ≠ 0#8 ∧ keypress = KS_c
    · rw [Program.when, if_pos hleave, if_pos hleave]
      rfl
    · rw [Program.when, if_neg hleave, if_neg hleave]
      exact hstate
  all_goals exact hstate

/-- Away from the prompt a keysym never stops the shell. -/
theorem handleKeysym_returns {s : ShellState RQ SQ} (h : s.consoleState ≠ .console)
    (report : Report) (keypress : Keysym) :
    ∃ t, Returns (handleKeysym report keypress) s () t := by
  refine ⟨_, .of_result ?_⟩
  rw [handleKeysym, bind_ok (get_run s), after_nil]
  rcases hstate : s.consoleState with _ | _ | _ | _ | _ | _
  case console => exact absurd hstate h
  case mouseTest =>
    dsimp only
    rw [bind_ok (readReport_run report 0 s), Program.when]
    split_ifs
    · rfl
    · rfl
  all_goals rfl

/-! ## Rounds -/

/-- The keysym that the next round hands on, with byte 0 of its report: there is none if the ring
is empty, if the report is of too many keys, or if no key is read from it. -/
def nextKey (kb : Keyboard) (k : KeyState RQ SQ) : Option (Byte × Keysym) :=
  let report := kb.reportAt (k.ring.entry k.ring.readIdx).encodedAddr
  if ringEmpty k.ring = true ∨ report 2 = 0x01#8 ∨ pressedKey k.keysDown report = 0#8 then none
  else some (report 0, keysymOf kb.uk kb.us kb.layout (pressedKey k.keysDown report) (report 0))

/-- The state of the console behind the next round. -/
def roundEnters (kb : Keyboard) (k : KeyState RQ SQ) : ConsoleState :=
  match nextKey kb k with
  | some (modifiers, keypress) => keyEnters k.shell modifiers keypress
  | none => k.shell.consoleState

theorem round_consoleState {kb : Keyboard} {k k' : KeyState RQ SQ} {goesOn : Bool}
    (h : Returns (keypressRound kb) k goesOn k') : k'.shell.consoleState = roundEnters kb k := by
  rw [roundEnters, nextKey]
  by_cases hempty : ringEmpty k.ring = true
  · obtain ⟨-, rfl⟩ := h.unique (.of_run (keypressRound_empty hempty kb))
    rw [if_pos (.inl hempty)]
  -- The three ways through the body are the three cases of `nextKey`.
  rw [Returns, keypressRound_taken hempty] at h
  cases examineReport_returns_iff.mp (.of_run h) with
  | rollOver hroll => rw [if_pos (.inr (.inl hroll))]
  | silent _ hzero => rw [if_pos (.inr (.inr hzero))]
  | handled hroll hzero hshell =>
    rw [if_neg (by simp [hempty, hroll, hzero])]
    exact hshell.state ▸ handleKeysym_consoleState _ _ k.shell

/-- What a round leaves behind a report that is not of too many keys. -/
theorem keypressRound_pressed {kb : Keyboard} {k k' : KeyState RQ SQ} {goesOn : Bool} {d : BuffDesc}
    {rest : List BuffDesc} (h : Returns (keypressRound kb) k goesOn k')
    (hring : k.ring.Stores (d :: rest)) (hroll : kb.reportAt d.encodedAddr 2 ≠ 0x01#8) :
    k'.keysDown = nextKeys (kb.reportAt d.encodedAddr) k.keysDown ∧
      k'.shell.consoleState =
        if pressedKey k.keysDown (kb.reportAt d.encodedAddr) = 0#8 then k.shell.consoleState
        else keyEnters k.shell (kb.reportAt d.encodedAddr 0) (keysymOf kb.uk kb.us kb.layout
          (pressedKey k.keysDown (kb.reportAt d.encodedAddr)) (kb.reportAt d.encodedAddr 0)) := by
  obtain ⟨ring, -, htaken⟩ := keypressRound_cons hring
  rw [Returns, htaken] at h
  cases examineReport_returns_iff.mp (.of_run h) with
  | rollOver heq => exact absurd heq hroll
  | silent _ hzero => exact ⟨rfl, (if_pos hzero).symm⟩
  | handled _ hzero hshell =>
    rw [if_neg hzero]
    exact ⟨rfl, hshell.state ▸ handleKeysym_consoleState _ _ k.shell⟩

/-- Away from the prompt every round returns. -/
theorem keypressRound_returns {k : KeyState RQ SQ} (h : k.shell.consoleState ≠ .console)
    (kb : Keyboard) : ∃ goesOn k', Returns (keypressRound kb) k goesOn k' := by
  by_cases hempty : ringEmpty k.ring = true
  · exact ⟨false, k, .of_run (keypressRound_empty hempty kb)⟩
  simp only [Returns, keypressRound_taken hempty]
  by_cases hroll : kb.reportAt (k.ring.entry k.ring.readIdx).encodedAddr 2 = 0x01#8
  · exact ⟨_, _, examineReport_returns_iff.mpr (.rollOver hroll)⟩
  by_cases hzero : pressedKey k.keysDown
      (kb.reportAt (k.ring.entry k.ring.readIdx).encodedAddr) = 0#8
  · exact ⟨_, _, examineReport_returns_iff.mpr (.silent hroll hzero)⟩
  obtain ⟨shell, hshell⟩ := handleKeysym_returns h
    (kb.reportAt (k.ring.entry k.ring.readIdx).encodedAddr) _
  exact ⟨_, _, examineReport_returns_iff.mpr (.handled hroll hzero hshell)⟩

/-! ## Notifications -/

section Notified

variable {f : Terminal RQ SQ → τ}

theorem handleMouseTest_keeps (hf : ∀ t ring, f { t with mouseRing := ring } = f t) :
    Program.Keeps f handleMouseTest := by
  rw [handleMouseTest, drainMouse]
  exact drainLoop_keeps hf (fun _ => .bind .get fun _ => showPointer_keeps _ _ _) SIZE

theorem handleUtsEvent_keeps (hf : ∀ t ring, f { t with touchRing := ring } = f t) :
    Program.Keeps f handleUtsEvent := by
  rw [handleUtsEvent]
  exact drainLoop_keeps hf (fun _ => .bind .get fun _ => showPointer_keeps _ _ _) SIZE

theorem handleMouseEvent_keeps (hf : ∀ t ring, f { t with mouseRing := ring } = f t)
    (hwheel : ∀ movement, Program.Keeps f (onKeys (onShell (handleWheel movement)))) :
    Program.Keeps f handleMouseEvent := by
  rw [handleMouseEvent, drainMouse]
  exact drainLoop_keeps hf (fun _ => .bind .get fun _ => hwheel _) SIZE

theorem enterDevices_keeps (setup : Setup)
    (hf : ∀ t ring registry, f { t with deviceRing := ring, shell.registry := registry } = f t) :
    Program.Keeps f (enterDevices setup) := by
  refine .bind .get fun t => ?_
  split
  · exact .modify fun t => hf t _ _
  · exact .stop _

end Notified

/-- Notifications that are not of the keyboard leave its reports alone. -/
theorem notified_ring (setup : Setup) {ch : ℕ} (hch : ch ≠ KEYBOARD_EVENT) (t : Terminal RQ SQ) :
    (notified setup ch t).state.ring = t.ring := by
  have hkeeps : Program.Keeps (·.ring) (notified setup ch : Code (Terminal RQ SQ) Unit) := by
    refine .bind .get fun t => .ite (fun heq => absurd heq hch) fun _ => ?_
    refine .ite (fun _ => .ite (fun _ => handleMouseTest_keeps fun _ _ => rfl) fun _ =>
      handleMouseEvent_keeps (fun _ _ => rfl) fun _ => fun _ => rfl) fun _ => ?_
    refine .ite (fun _ => .when fun _ => handleUtsEvent_keeps fun _ _ => rfl) fun _ => ?_
    refine .ite (fun _ => enterDevices_keeps setup fun _ _ _ => rfl) fun _ => ?_
    refine .ite (fun _ => fun _ => rfl) fun _ => .ite (fun _ => fun _ => rfl) fun _ => ?_
    exact .bind (printf_keeps _) fun _ => printf_keeps _
  exact hkeeps t

/-- The state of the console behind a notification that is not of the keyboard: two of them end
every mode, and the others keep it. -/
theorem notified_consoleState (setup : Setup) {ch : ℕ} (hch : ch ≠ KEYBOARD_EVENT)
    (t : Terminal RQ SQ) : (notified setup ch t).state.shell.consoleState =
      if ch = INIT ∨ ch = SNAKE_NOTIFY then .console else t.shell.consoleState := by
  rw [notified, bind_ok (get_run t), after_nil, if_neg hch]
  -- Case by case in the order of the `switch`.
  by_cases hmouse : ch = MOUSE_EVENT
  · have hstays : ¬ (ch = INIT ∨ ch = SNAKE_NOTIFY) := by subst hmouse; decide
    rw [if_pos hmouse, if_neg hstays]
    split_ifs
    · exact handleMouseTest_keeps (f := (·.shell.consoleState)) (fun _ _ => rfl) t
    · exact handleMouseEvent_keeps (f := (·.shell.consoleState)) (fun _ _ => rfl)
        (fun _ t => handleWheel_keeps _ t.shell) t
  by_cases htouch : ch = TOUCHSCREEN_EVENT
  · have hstays : ¬ (ch = INIT ∨ ch = SNAKE_NOTIFY) := by subst htouch; decide
    rw [if_neg hmouse, if_pos htouch, if_neg hstays, Program.when]
    split_ifs
    · exact handleUtsEvent_keeps (f := (·.shell.consoleState)) (fun _ _ => rfl) t
    · rfl
  by_cases hdevice : ch = NEW_DEVICE_EVENT
  · have hstays : ¬ (ch = INIT ∨ ch = SNAKE_NOTIFY) := by subst hdevice; decide
    rw [if_neg hmouse, if_neg htouch, if_pos hdevice, if_neg hstays]
    exact enterDevices_keeps (f := (·.shell.consoleState)) setup (fun _ _ _ => rfl) t
  rw [if_neg hmouse, if_neg htouch, if_neg hdevice]
  by_cases hinit : ch = INIT
  · rw [if_pos hinit, if_pos (.inl hinit)]
    rfl
  by_cases hsnake : ch = SNAKE_NOTIFY
  · rw [if_neg hinit, if_pos hsnake, if_pos (.inr hsnake)]
    rfl
  · rw [if_neg hinit, if_neg hsnake, if_neg (by simp [hinit, hsnake])]
    rfl

/-! ## Moves -/

/-- The state of the console behind a move. -/
def moveEnters (setup : Setup) (t : Running RQ SQ) : Move → ConsoleState
  | .arrives _ _ _ => t.shell.consoleState
  | .notified ch => if ch = INIT ∨ ch = SNAKE_NOTIFY then .console else t.shell.consoleState
  | .round => roundEnters (setup.keyboard t.mem) t.toKeyState

section Moves

variable {setup : Setup} {t t' : Running RQ SQ} {move : Move}

theorem step_consoleState (h : (shellRun RQ SQ setup).step t move = some t') :
    t'.shell.consoleState = moveEnters setup t move := by
  cases move with
  | arrives source d bytes =>
    rw [step_arrives, Option.some.injEq] at h
    rw [← h]
    cases source <;> rfl
  | notified ch =>
    by_cases hch : ch = KEYBOARD_EVENT
    · subst hch
      rw [(step_keyboard.mp h).2]
      rfl
    · obtain ⟨-, hreturns, -⟩ := (step_notified hch).mp h
      rw [← hreturns.state]
      exact notified_consoleState setup hch t.toTerminal
  | round =>
    obtain ⟨-, k, hround, hterminal⟩ := step_round.mp h
    rw [hterminal]
    exact round_consoleState hround

/-- The ring of the keyboard stays in order. -/
theorem step_stores (h : (shellRun RQ SQ setup).step t move = some t')
    (hring : ∃ q, t.ring.Stores q) : ∃ q, t'.ring.Stores q := by
  obtain ⟨q, hq⟩ := hring
  cases move with
  | arrives source d bytes =>
    rw [step_arrives, Option.some.injEq] at h
    rw [← h]
    cases source with
    | keyboard =>
      -- A full ring refuses the report and stays as it is.
      rcases hq.enqueue d with ⟨-, hfull⟩ | ⟨-, -, hstores⟩
      · refine ⟨q, ?_⟩
        change (enqueue t.ring d).2.Stores q
        rwa [hfull]
      · exact ⟨_, hstores⟩
    | mouse => exact ⟨q, hq⟩
    | touchscreen => exact ⟨q, hq⟩
    | newDevice => exact ⟨q, hq⟩
  | notified ch =>
    by_cases hch : ch = KEYBOARD_EVENT
    · subst hch
      rw [(step_keyboard.mp h).2]
      exact ⟨q, hq⟩
    · obtain ⟨-, hreturns, -⟩ := (step_notified hch).mp h
      rw [← hreturns.state, notified_ring setup hch]
      exact ⟨q, hq⟩
  | round =>
    obtain ⟨-, k, hround, hterminal⟩ := step_round.mp h
    rw [hterminal]
    exact ⟨_, keypressRound_stores hround hq⟩

end Moves

end Sel4Xhci.Shell
