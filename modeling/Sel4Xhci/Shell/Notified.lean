import Sel4Xhci.Semantics.Machine
import Sel4Xhci.Shell.Pointer

/-!
# Notifications

`notified` is what the shell does at a notification. Meanwhile the driver goes on: it may put
further reports in the rings between any two that the shell takes, so in the runs of the shell the
loop over keyboard reports is taken apart into its rounds.

## Main definitions

* `notified` — the code
* `shellRun` — the shell and the driver's reports

## Main results

* `notified_keyboard_rounds` — a call of the handler for the keyboard is a run of its rounds
-/

set_option autoImplicit false

namespace Sel4Xhci.Shell

open Semantics Semantics.CString Semantics.Program Semantics.Machine Umass Devices Sel4Xhci.Ring

variable {RQ : Fifo BlkReq} {SQ : Fifo Answer}

/-- `NEW_DEVICE_EVENT`. -/
abbrev NEW_DEVICE_EVENT : ℕ := 45

/-- `KEYBOARD_EVENT`. -/
abbrev KEYBOARD_EVENT : ℕ := 46

/-- `MOUSE_EVENT`. -/
abbrev MOUSE_EVENT : ℕ := 48

/-- `TOUCHSCREEN_EVENT`. -/
abbrev TOUCHSCREEN_EVENT : ℕ := 50

/-- `INIT`. -/
abbrev INIT : ℕ := 60

/-- What does not change while the shell runs: the two keymaps, `LAYOUT`, and what the pointers in
the ring of new devices point to. -/
structure Setup where
  uk : ℕ → Keysym
  us : ℕ → Keysym
  layout : Layout
  devices : BitVec 64 → UsbDevice

/-- The keyboard, with its reports in memory. -/
def Setup.keyboard (setup : Setup) (mem : BitVec 64 → Byte) : Keyboard where
  uk := setup.uk
  us := setup.us
  layout := setup.layout
  reportAt := fun address i => mem (address + BitVec.ofInt 64 i)

/-- `print_warn`. -/
def printWarn {σ : Type} (message : String) : Code σ Unit := do
  printf "shell|WARN: "
  printf message

/-- The case of `NEW_DEVICE_EVENT`. -/
def enterDevices (setup : Setup) : Code (Terminal RQ SQ) Unit := do
  let t ← Program.get
  match handleNewDevice setup.devices SIZE t.deviceRing t.shell.registry with
  | some (_, s) =>
    Program.modify fun t => { t with deviceRing := s.ring, shell.registry := s.registry }
  | none => Program.stop .spins

/-- The case of `INIT`. -/
def initialise : Code (ShellState RQ SQ) Unit := do
  onHistory (Program.modify fun h => { h with cmdHistCursor := 0 })
  onHistory (Program.modify fun h => { h with cmdHist := -1 })
  onPeriphery initShell

/-- The case of `SNAKE_NOTIFY`: the game is over. -/
def endSnake : Code (ShellState RQ SQ) Unit := do
  onPeriphery (setConsole .console)
  onEditor clearPrompt

/-- `notified`. -/
def notified (setup : Setup) (ch : ℕ) : Code (Terminal RQ SQ) Unit := do
  let t ← Program.get
  if ch = KEYBOARD_EVENT then
    Program.when (t.shell.consoleState ≠ .disabled)
      (onKeys (handleKeypress (setup.keyboard t.mem)))
  else if ch = MOUSE_EVENT then
    if t.shell.consoleState = .mouseTest then handleMouseTest else handleMouseEvent
  else if ch = TOUCHSCREEN_EVENT then
    Program.when (t.shell.consoleState = .utsTest) handleUtsEvent
  else if ch = NEW_DEVICE_EVENT then enterDevices setup
  else if ch = INIT then onKeys (onShell initialise)
  else if ch = SNAKE_NOTIFY then onKeys (onShell endSnake)
  else printWarn ("Unexpected channel " ++ toString ch ++ "\n")

/-! ## Runs -/

/-- The devices that have a ring. -/
inductive Source
  | keyboard
  | mouse
  | touchscreen
  | newDevice
  deriving DecidableEq, Repr

/-- The driver has put the bytes of a report in memory, and a descriptor of it in a ring, unless
the ring is full. -/
def Terminal.arrive (t : Terminal RQ SQ) (source : Source) (d : BuffDesc) (bytes : List Byte) :
    Terminal RQ SQ :=
  let t := { t with mem := storeAt t.mem d.encodedAddr bytes }
  match source with
  | .keyboard => { t with ring := (enqueue t.ring d).2 }
  | .mouse => { t with mouseRing := (enqueue t.mouseRing d).2 }
  | .touchscreen => { t with touchRing := (enqueue t.touchRing d).2 }
  | .newDevice => { t with deviceRing := (enqueue t.deviceRing d).2 }

/-- What may happen next: a report arrives, the shell is notified, or the loop over the keyboard
reports makes a round. -/
inductive Move
  | arrives (source : Source) (d : BuffDesc) (bytes : List Byte)
  | notified (ch : ℕ)
  | round

variable (RQ SQ) in
/-- The shell in a run: whether it is in the loop over the keyboard reports. -/
structure Running extends Terminal RQ SQ where
  inLoop : Bool

/-- One round: what it leaves if it returns. -/
def Running.round (setup : Setup) (t : Running RQ SQ) : Option (Running RQ SQ) :=
  let o := onKeys (keypressRound (setup.keyboard t.mem)) t.toTerminal
  match o.result with
  | .ok goesOn => some ⟨o.state, goesOn⟩
  | .error _ => none

/-- The shell is about to serve its first notification. -/
structure AtStartUp (t : Running RQ SQ) : Prop where
  editor : t.shell.toEditor = .typed []
  history : t.shell.toHistory = .empty
  consoleState : t.shell.consoleState = .console
  registry : t.shell.registry = .empty
  keysDown : t.keysDown = fun _ => 0#8
  ring : t.ring.Stores []
  mouseRing : t.mouseRing.Stores []
  touchRing : t.touchRing.Stores []
  deviceRing : t.deviceRing.Stores []
  inLoop : t.inLoop = false

variable (RQ SQ) in
/-- Shell and driver. A function of the shell that does not return has no next state, and there
are no notifications while the shell is in a loop. -/
def shellRun (setup : Setup) : Machine (Running RQ SQ) Move where
  start := AtStartUp
  step := fun t move =>
    match move with
    | .arrives source d bytes => some ⟨t.toTerminal.arrive source d bytes, t.inLoop⟩
    | .notified ch =>
      if t.inLoop then none
      else if ch = KEYBOARD_EVENT then some ⟨t.toTerminal, t.shell.consoleState ≠ .disabled⟩
      else (stateOf (notified setup ch t.toTerminal)).map fun terminal => ⟨terminal, false⟩
    | .round => if t.inLoop then t.round setup else none

theorem arrive_mem (t : Terminal RQ SQ) (source : Source) (d : BuffDesc) (bytes : List Byte) :
    (t.arrive source d bytes).mem = storeAt t.mem d.encodedAddr bytes := by
  cases source <;> rfl

/-- A report is read as it has arrived. -/
theorem reportAt_arrive (setup : Setup) (t : Terminal RQ SQ) (source : Source) (d : BuffDesc)
    {bytes : List Byte} (hsmall : bytes.length < 2 ^ 64) {i : ℕ} (hi : i < bytes.length) :
    (setup.keyboard (t.arrive source d bytes).mem).reportAt d.encodedAddr i = bytes[i] := by
  have hindex : (d.encodedAddr + BitVec.ofInt 64 i - d.encodedAddr).toNat = i := by
    rw [BitVec.add_comm, BitVec.add_sub_cancel, BitVec.ofInt_natCast, BitVec.toNat_ofNat,
      Nat.mod_eq_of_lt (by omega)]
  rw [arrive_mem]
  change (bytes[(d.encodedAddr + BitVec.ofInt 64 i - d.encodedAddr).toNat]?).getD _ = _
  rw [hindex, List.getElem?_eq_getElem hi, Option.getD_some]

section Steps

variable {setup : Setup} {t t' : Running RQ SQ}

theorem step_arrives (source : Source) (d : BuffDesc) (bytes : List Byte) :
    (shellRun RQ SQ setup).step t (.arrives source d bytes) =
      some ⟨t.toTerminal.arrive source d bytes, t.inLoop⟩ := rfl

/-- A notification for the keyboard starts the loop, unless the keyboard is disabled. -/
theorem step_keyboard : (shellRun RQ SQ setup).step t (.notified KEYBOARD_EVENT) = some t' ↔
    t.inLoop = false ∧ t' = ⟨t.toTerminal, t.shell.consoleState ≠ .disabled⟩ := by
  cases hloop : t.inLoop with
  | true => simp [shellRun, hloop]
  | false =>
    have hstep : (shellRun RQ SQ setup).step t (.notified KEYBOARD_EVENT) =
        some ⟨t.toTerminal, t.shell.consoleState ≠ .disabled⟩ := by
      simp [shellRun, hloop]
    rw [hstep, Option.some.injEq]
    exact ⟨fun h => ⟨rfl, h.symm⟩, fun h => h.2.symm⟩

/-- All other notifications are served at once. -/
theorem step_notified {ch : ℕ} (hch : ch ≠ KEYBOARD_EVENT) :
    (shellRun RQ SQ setup).step t (.notified ch) = some t' ↔ t.inLoop = false ∧
      Returns (notified setup ch) t.toTerminal () t'.toTerminal ∧ t'.inLoop = false := by
  cases hloop : t.inLoop with
  | true => simp [shellRun, hloop]
  | false =>
    have hstep : (shellRun RQ SQ setup).step t (.notified ch) =
        (stateOf (notified setup ch t.toTerminal)).map fun terminal => ⟨terminal, false⟩ := by
      simp [shellRun, hloop, hch]
    rw [hstep, Option.map_eq_some_iff]
    constructor
    · rintro ⟨terminal, hstate, rfl⟩
      obtain ⟨⟨⟨⟩, hresult⟩, rfl⟩ := stateOf_eq_some.mp hstate
      exact ⟨rfl, .of_result hresult, rfl⟩
    · rintro ⟨-, hreturns, hloop'⟩
      refine ⟨t'.toTerminal, stateOf_eq_some.mpr ⟨⟨(), hreturns.result⟩, hreturns.state⟩, ?_⟩
      rw [← hloop']

/-- A round of the loop. -/
theorem step_round : (shellRun RQ SQ setup).step t .round = some t' ↔ t.inLoop = true ∧
    ∃ k, Returns (keypressRound (setup.keyboard t.mem)) t.toKeyState t'.inLoop k ∧
      t'.toTerminal = { t.toTerminal with toKeyState := k } := by
  cases hloop : t.inLoop with
  | false => simp [shellRun, hloop]
  | true =>
    have hstep : (shellRun RQ SQ setup).step t .round = t.round setup := by
      simp [shellRun, hloop]
    rw [hstep, Running.round]
    rcases hround : keypressRound (setup.keyboard t.mem) t.toKeyState with ⟨result, events, k⟩
    have hrun : onKeys (keypressRound (setup.keyboard t.mem)) t.toTerminal =
        ⟨result, events, { t.toTerminal with toKeyState := k }⟩ := focus_run hround
    rw [hrun]
    cases result with
    | error stop =>
      refine iff_of_false nofun ?_
      rintro ⟨-, k', hreturns, -⟩
      have hresult := hreturns.result
      rw [hround] at hresult
      cases hresult
    | ok goesOn =>
      constructor
      · rintro ⟨⟩
        exact ⟨rfl, k, .of_run hround, rfl⟩
      · rintro ⟨-, k', hreturns, hterminal⟩
        obtain ⟨rfl, rfl⟩ := hreturns.unique (.of_run hround)
        rw [← hterminal]

end Steps

/-- The loop, from any of its rounds on, as a run. -/
theorem keypressLoop_exec {setup : Setup} {t : Terminal RQ SQ} {k k' : KeyState RQ SQ} {rounds : ℕ}
    (h : Returns (keypressLoop (setup.keyboard t.mem) rounds) k () k') :
    ∃ n, (shellRun RQ SQ setup).exec ⟨{ t with toKeyState := k }, true⟩
        (List.replicate n .round) = some ⟨{ t with toKeyState := k' }, false⟩ := by
  induction rounds generalizing k with
  | zero => cases h
  | succ rounds ih =>
    rw [keypressLoop_succ] at h
    obtain ⟨goesOn, k₁, hround, hrest⟩ := h.of_bind
    have hstep : (shellRun RQ SQ setup).step ⟨{ t with toKeyState := k }, true⟩ .round =
        some ⟨{ t with toKeyState := k₁ }, goesOn⟩ := step_round.mpr ⟨rfl, k₁, hround, rfl⟩
    -- A round that goes on is followed by the rest of the loop, the last one by nothing.
    cases goesOn with
    | true =>
      obtain ⟨n, hexec⟩ := ih hrest
      exact ⟨n + 1, exec_cons_eq_some.mpr ⟨_, hstep, hexec⟩⟩
    | false =>
      obtain ⟨-, rfl⟩ := hrest.unique (.pure () k₁)
      exact ⟨1, exec_singleton.mpr hstep⟩

/-- A call of `notified` for the keyboard is a run: the loop starts, makes its rounds, and ends. -/
theorem notified_keyboard_rounds {setup : Setup} {t t' : Terminal RQ SQ}
    (h : Returns (notified setup KEYBOARD_EVENT) t () t') :
    ∃ n, (shellRun RQ SQ setup).exec ⟨t, false⟩
        (.notified KEYBOARD_EVENT :: List.replicate n .round) = some ⟨t', false⟩ := by
  rw [notified, (Returns.get t).bind_iff, if_pos rfl, Program.when] at h
  by_cases henabled : t.shell.consoleState ≠ .disabled
  · rw [if_pos henabled] at h
    obtain ⟨k', hreturns, rfl⟩ := Returns.focus_iff.mp h
    obtain ⟨n, hexec⟩ := keypressLoop_exec hreturns
    exact ⟨n, exec_cons_eq_some.mpr ⟨_, step_keyboard.mpr ⟨rfl, by simp [henabled]⟩, hexec⟩⟩
  · rw [if_neg henabled] at h
    obtain ⟨-, rfl⟩ := h.unique (.pure () t)
    exact ⟨0, exec_singleton.mpr (step_keyboard.mpr ⟨rfl, by simp [henabled]⟩)⟩

end Sel4Xhci.Shell
