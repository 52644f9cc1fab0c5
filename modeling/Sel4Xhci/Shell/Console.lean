import Sel4Xhci.Semantics.Machine
import Sel4Xhci.Shell.CommandLine
import Sel4Xhci.Shell.Editor
import Sel4Xhci.Shell.Scroll

/-!
# The prompt

What `handle_keypress` makes of a keysym when the console is at its prompt.

## Main definitions

* `handleConsoleKey` — the code
* `consoleRun` — the shell under a sequence of keysyms
-/

set_option autoImplicit false

namespace Sel4Xhci.Shell

open Semantics Semantics.CString Semantics.Program Umass

variable {RQ : Fifo BlkReq} {SQ : Fifo Answer}

/-- `KS_BackSpace`. -/
abbrev KS_BackSpace : Keysym := 0x08#16

/-- `KS_Return`. -/
abbrev KS_Return : Keysym := 0x0d#16

/-- `KS_Up`. -/
abbrev KS_Up : Keysym := 0xf384#16

/-- `KS_Down`. -/
abbrev KS_Down : Keysym := 0xf385#16

/-- `KS_Left`. -/
abbrev KS_Left : Keysym := 0xf386#16

/-- `KS_Right`. -/
abbrev KS_Right : Keysym := 0xf387#16

/-- The `switch` on the keysym at the prompt. -/
def handleConsoleKey (keypress : Keysym) : Code (ShellState RQ SQ) Unit :=
  if keypress = KS_BackSpace then onEditor (backSpace keypress)
  else if keypress = KS_Return then do
    printf "\n"
    decodeCommand
  else if keypress = KS_Up then scrollHist (-1)
  else if keypress = KS_Down then scrollHist 1
  else if keypress = KS_Left then onEditor moveLeft
  else if keypress = KS_Right then onEditor moveRight
  else onEditor (insertKey keypress)

theorem handleConsoleKey_return (s : ShellState RQ SQ) :
    handleConsoleKey KS_Return s = (decodeCommand s).after [.printf "\n"] := rfl

/-- The state that a function of the shell leaves if it returns. -/
def stateOf {σ α : Type} (o : Outcome σ Event Stop α) : Option σ :=
  match o.result with
  | .ok _ => some o.state
  | .error _ => none

theorem stateOf_eq_some {σ α : Type} {o : Outcome σ Event Stop α} {s : σ} :
    stateOf o = some s ↔ (∃ a, o.result = .ok a) ∧ o.state = s := by
  unfold stateOf
  split <;> simp_all

/-- The shell at its prompt, under keysyms. -/
def consoleRun : Machine (ShellState RQ SQ) Keysym where
  start := fun s => s.cursorIndex = 0 ∧ s.cmdLen = 0
  step := fun s keypress => stateOf (handleConsoleKey keypress s)

end Sel4Xhci.Shell
