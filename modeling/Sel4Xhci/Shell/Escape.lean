import Sel4Xhci.Semantics.Reachability
import Sel4Xhci.Shell.Modes

/-!
# Ways back to the prompt

Ctrl-C ends the mouse test, and the end of the game ends `snake`. The keyboard test, the test of the
touchscreen and the disabled keyboard have no such way out: no report of keyboard or mouse changes
`console_state` there, although the command table promises that the wheel enables the keyboard
again.

## Main definitions

* `Recoverable` — events of keyboard and mouse can bring the prompt back
* `HasWayOut` — the states that can be left
* `KeepsWayOut` — a move does not enter one of the others

## Main results

* `not_recoverable` — the other states are traps
* `recoverable_of_wayOut` — from the states with a way out there is a run to the prompt
* `always_recoverable_iff` — the prompt can be brought back all along exactly the runs that enter
  no trap
-/

set_option autoImplicit false

namespace Sel4Xhci.Shell

open Semantics Semantics.CString Semantics.Program Semantics.Machine Umass Sel4Xhci.Ring

variable {RQ : Fifo BlkReq} {SQ : Fifo Answer}

/-! ## What is asked for -/

/-- The moves that may bring the prompt back: reports of keyboard and mouse, what comes of them,
and in the game the signal of its end. -/
def Allowed (t : Running RQ SQ) : Move → Prop
  | .arrives source _ _ => source = .keyboard ∨ source = .mouse
  | .notified ch => ch = KEYBOARD_EVENT ∨ ch = MOUSE_EVENT ∨
      ch = SNAKE_NOTIFY ∧ t.shell.consoleState = .snake
  | .round => True

/-- The console is at its prompt. -/
abbrev AtPrompt (t : Running RQ SQ) : Prop := t.shell.consoleState = .console

/-- Some run of allowed moves leads to the prompt. -/
def Recoverable (setup : Setup) (t : Running RQ SQ) : Prop :=
  (shellRun RQ SQ setup).CanReach Allowed AtPrompt t

/-- The states that keyboard, mouse and the game can leave. -/
def HasWayOut (c : ConsoleState) : Prop := c = .console ∨ c = .snake ∨ c = .mouseTest

instance : DecidablePred HasWayOut := fun _ => inferInstanceAs (Decidable (_ ∨ _))

/-- The command that the next round carries out. -/
def nextCommand (kb : Keyboard) (k : KeyState RQ SQ) : Option Command :=
  match nextKey kb k with
  | some (_, keypress) =>
    if k.shell.consoleState = .console ∧ keypress = KS_Return then enteredCommand k.shell else none
  | none => none

/-- A round does not carry out `disable`, `utstest` or `kbdtest`. -/
def KeepsWayOut (setup : Setup) (t : Running RQ SQ) (move : Move) : Prop :=
  move = .round → ∀ c ∈ nextCommand (setup.keyboard t.mem) t.toKeyState,
    c ≠ .disable ∧ c ≠ .utstest ∧ c ≠ .kbdtest

/-- Some key is a `c` under Ctrl. -/
def TypesCtrlC (setup : Setup) : Prop := ∃ key : Byte, key ≠ 0#8 ∧ key ≠ 0x01#8 ∧
  keysymOf setup.uk setup.us setup.layout key 0x01#8 = KS_c

/-! ## Traps -/

section Traps

variable {setup : Setup} {t t' : Running RQ SQ} {move : Move}

/-- Outside the prompt and the mouse test a round changes nothing about the state. -/
theorem roundEnters_of_ne {kb : Keyboard} {k : KeyState RQ SQ}
    (hconsole : k.shell.consoleState ≠ .console) (hmouse : k.shell.consoleState ≠ .mouseTest) :
    roundEnters kb k = k.shell.consoleState := by
  unfold roundEnters keyEnters
  split
  · split
    · contradiction
    · contradiction
    · rfl
  · rfl

/-- What is allowed does not leave a trap. -/
theorem trap_step (htrap : ¬ HasWayOut t.shell.consoleState) (hallowed : Allowed t move)
    (h : (shellRun RQ SQ setup).step t move = some t') : ¬ HasWayOut t'.shell.consoleState := by
  simp only [HasWayOut, not_or] at htrap
  obtain ⟨hconsole, hsnake, hmouse⟩ := htrap
  -- The signal of the game is allowed in the game only.
  have hkeep : t'.shell.consoleState = t.shell.consoleState := by
    rw [step_consoleState h]
    cases move with
    | arrives source d bytes => rfl
    | notified ch =>
      refine if_neg ?_
      rcases hallowed with rfl | rfl | ⟨-, hin⟩
      · decide
      · decide
      · exact absurd hin hsnake
    | round => exact roundEnters_of_ne hconsole hmouse
  rw [hkeep]
  simp [HasWayOut, hconsole, hsnake, hmouse]

/-- From a trap no events of keyboard and mouse lead back to the prompt. -/
theorem not_recoverable (h : ¬ HasWayOut t.shell.consoleState) : ¬ Recoverable setup t :=
  not_canReach (fun _ _ _ htrap hallowed hstep => trap_step htrap hallowed hstep)
    (fun _ htrap hprompt => htrap (.inl hprompt)) h

end Traps

/-! ## Ways out -/

section WaysOut

variable {setup : Setup} {t : Running RQ SQ} {c : ConsoleState}

/-- Away from the prompt a round stays in the state or goes to the prompt. -/
theorem roundEnters_of_ne_console {k : KeyState RQ SQ} (h : k.shell.consoleState ≠ .console)
    (kb : Keyboard) :
    roundEnters kb k = .console ∨ roundEnters kb k = k.shell.consoleState := by
  by_cases hmouse : k.shell.consoleState = .mouseTest
  · unfold roundEnters keyEnters
    rw [hmouse]
    split
    · dsimp only
      split_ifs
      · exact .inl rfl
      · exact .inr rfl
    · exact .inr rfl
  · exact .inr (roundEnters_of_ne h hmouse)

/-- The console is in state `c`; there may be reports in the ring, and the shell may be in its
loop. -/
structure Busy (c : ConsoleState) (t : Running RQ SQ) : Prop where
  consoleState : t.shell.consoleState = c
  ring : ∃ q, t.ring.Stores q

/-- The console is in state `c`, the loop has ended, and the ring is empty. -/
structure Settled (c : ConsoleState) (t : Running RQ SQ) : Prop where
  consoleState : t.shell.consoleState = c
  ring : t.ring.Stores []
  inLoop : t.inLoop = false

/-- Two for each report, and one for the notification that is due. -/
def pending (t : Running RQ SQ) : ℕ :=
  2 * (ringSize t.ring).toNat + if t.inLoop then 0 else 1

/-- The shell can get through with its reports, unless one of them brings it to the prompt
before. -/
theorem canReach_settled (hprompt : c ≠ .console) (henabled : c ≠ .disabled) (h : Busy c t) :
    (shellRun RQ SQ setup).CanReach Allowed (fun t => AtPrompt t ∨ Settled c t) t := by
  refine canReach_of_variant pending ?_ h
  rintro u ⟨hstate, q, hq⟩
  have hsize := hq.toNat_sub
  cases hloop : u.inLoop with
  | false =>
    cases q with
    | nil => exact .inl (.inr ⟨hstate, hq, hloop⟩)
    | cons d rest =>
      -- The notification is due.
      refine .inr ⟨.notified KEYBOARD_EVENT, _, .inl rfl, step_keyboard.mpr ⟨hloop, rfl⟩, .inr ?_⟩
      refine ⟨⟨hstate, _, hq⟩, ?_⟩
      simp [pending, hstate, henabled, hloop]
  | true =>
    -- The loop goes on, and takes a report if there is one.
    have hne : u.shell.consoleState ≠ .console := hstate ▸ hprompt
    obtain ⟨goesOn, k, hround⟩ := keypressRound_returns hne (setup.keyboard u.mem)
    have hstores := keypressRound_stores hround hq
    refine .inr ⟨.round, ⟨{ u.toTerminal with toKeyState := k }, goesOn⟩, trivial,
      step_round.mpr ⟨hloop, k, hround, rfl⟩, ?_⟩
    rcases roundEnters_of_ne_console hne (setup.keyboard u.mem) with henters | henters
    · exact .inl (.inl ((round_consoleState hround).trans henters))
    have hstate' := (round_consoleState hround).trans (henters.trans hstate)
    cases q with
    | nil =>
      have hempty := keypressRound_empty (hq.ringEmpty_iff.mpr rfl) (setup.keyboard u.mem)
      obtain ⟨rfl, -⟩ := hround.unique (.of_run hempty)
      exact .inl (.inr ⟨hstate', hstores, rfl⟩)
    | cons d rest =>
      refine .inr ⟨⟨hstate', rest, hstores⟩, ?_⟩
      have hsize' := hstores.toNat_sub
      simp only [pending, ringSize, hloop, hsize, hsize', List.length_cons, List.tail_cons]
      split_ifs <;> omega

/-- At the end of the game the prompt is back. -/
theorem recoverable_of_snake (h : Settled .snake t) : Recoverable setup t := by
  have hreturns : Returns (notified setup SNAKE_NOTIFY) t.toTerminal ()
    (notified setup SNAKE_NOTIFY t.toTerminal).state := .of_result rfl
  have hstep : (shellRun RQ SQ setup).step t (.notified SNAKE_NOTIFY) =
    some ⟨(notified setup SNAKE_NOTIFY t.toTerminal).state, false⟩ :=
    (step_notified (by decide)).mpr ⟨h.inLoop, hreturns, rfl⟩
  have henters : moveEnters setup t (.notified SNAKE_NOTIFY) = .console := by
    rw [moveEnters, if_pos (.inr rfl)]
  have hallowed : Allowed t (.notified SNAKE_NOTIFY) := .inr (.inr ⟨rfl, h.consoleState⟩)
  have hprompt := (step_consoleState hstep).trans henters
  exact (canReach_of_holds (P := AtPrompt) hprompt).step hallowed hstep

end WaysOut

/-! ## Ctrl-C -/

section CtrlC

variable {setup : Setup} {t : Running RQ SQ}

/-- A report that has the key `key` in its first slot, under Ctrl or not. -/
def singleKey (modifiers key : Byte) : List Byte :=
  [modifiers, 0#8, key, 0#8, 0#8, 0#8, 0#8, 0#8]

/-- What the handler sees of a report of one key. -/
structure ShowsKey (report : Report) (modifiers key : Byte) : Prop where
  modifiers : report 0 = modifiers
  first : report 2 = key
  others : ∀ i ∈ slots, i ≠ 2 → report (slotOffset i) = 0#8

theorem showsKey_arrive (setup : Setup) (t : Terminal RQ SQ) (d : BuffDesc) (modifiers key : Byte) :
    ShowsKey ((setup.keyboard (t.arrive .keyboard d (singleKey modifiers key)).mem).reportAt
      d.encodedAddr) modifiers key := by
  have hsmall : (singleKey modifiers key).length < 2 ^ 64 := by simp [singleKey]
  have hbyte := @reportAt_arrive _ _ setup t .keyboard d _ hsmall
  refine ⟨hbyte (i := 0) (by simp [singleKey]), hbyte (i := 2) (by simp [singleKey]),
    fun i hi hne => ?_⟩
  rw [slotOffset, hbyte i.isLt]
  have hcases : i = 2 ∨ i = 3 ∨ i = 4 ∨ i = 5 ∨ i = 6 ∨ i = 7 := by simpa [slots] using hi
  rcases hcases with rfl | rfl | rfl | rfl | rfl | rfl
  · contradiction
  all_goals rfl

/-- The key of a report of one key is read if no key was down. -/
theorem pressedKey_showsKey {keysDown : KeysDown} {report : Report} {modifiers key : Byte}
    (h : ShowsKey report modifiers key) (hkey : key ≠ 0#8) (hdown : ∀ j ∈ slots, keysDown j = 0#8) :
    pressedKey keysDown report = key := by
  have hnew : NewIn keysDown report 2 := by
    refine ⟨h.first.trans_ne hkey, fun j hj => ?_⟩
    rw [hdown j hj]
    exact h.first.trans_ne hkey
  rcases notedSlot_spec report keysDown slots (-1) with ⟨i, hi, hin, hnoted⟩ | ⟨hnone, -⟩
  · rw [pressedKey, hnoted]
    by_cases htwo : i = 2
    · rw [htwo]
      exact h.first
    · exact absurd (h.others i hi htwo) hin.1
  · exact absurd hnew (hnone 2 (by decide))

/-- `u` comes behind a report of one key: the handler is done with it, and in the mouse test the
state is what the key makes of it. -/
structure Typed (setup : Setup) (t : Running RQ SQ) (modifiers key : Byte) (u : Running RQ SQ)
    (report : Report) : Prop where
  shows : ShowsKey report modifiers key
  ring : u.ring.Stores []
  inLoop : u.inLoop = false
  keysDown : u.keysDown = nextKeys report t.keysDown
  consoleState : u.shell.consoleState =
    if pressedKey t.keysDown report = 0#8 then t.shell.consoleState
    else keyEnters t.shell modifiers
      (keysymOf setup.uk setup.us setup.layout (pressedKey t.keysDown report) modifiers)

theorem allowed_keyboard (d : BuffDesc) (bytes : List Byte) :
    Allowed t (.arrives .keyboard d bytes) := .inl rfl

theorem allowed_notified : Allowed t (.notified KEYBOARD_EVENT) := .inl rfl

theorem allowed_round : Allowed t .round := trivial

/-- With an empty ring, the loop ends. -/
theorem canReach_idle {P : Running RQ SQ → Prop} (hempty : t.ring.Stores [])
    (h : (shellRun RQ SQ setup).CanReach Allowed P ⟨t.toTerminal, false⟩) :
    (shellRun RQ SQ setup).CanReach Allowed P t := by
  cases hloop : t.inLoop with
  | true =>
    have hround := keypressRound_empty (hempty.ringEmpty_iff.mpr rfl) (setup.keyboard t.mem)
    exact h.step allowed_round (step_round.mpr ⟨hloop, _, .of_run hround, rfl⟩)
  | false => rwa [← hloop] at h

/-- In the mouse test a key can be typed. -/
theorem canReach_typed (h : Settled .mouseTest t) (modifiers key : Byte) (hkey : key ≠ 0x01#8) :
    (shellRun RQ SQ setup).CanReach Allowed
      (fun u => ∃ report, Typed setup t modifiers key u report) t := by
  let d : BuffDesc := ⟨0x1000#64, 8#32, .client 0#64⟩
  let arrived := t.toTerminal.arrive .keyboard d (singleKey modifiers key)
  have hstate : arrived.shell.consoleState = .mouseTest := h.consoleState
  have hstores : arrived.ring.Stores [d] := by
    rcases h.ring.enqueue d with ⟨hfull, -⟩ | ⟨-, -, hstores⟩
    · cases hfull
    · exact hstores
  have hshows := showsKey_arrive setup t.toTerminal d modifiers key
  have hprompt : arrived.shell.consoleState ≠ .console := by rw [hstate]; decide
  obtain ⟨goesOn, k, hround⟩ := keypressRound_returns hprompt (setup.keyboard arrived.mem)
  have hempty := keypressRound_stores hround hstores
  obtain ⟨hkeys, hmode⟩ := keypressRound_pressed hround hstores (hshows.first.trans_ne hkey)
  rw [hshows.modifiers] at hmode
  have htyped : Typed setup t modifiers key ⟨{ arrived with toKeyState := k }, false⟩ _ :=
    ⟨hshows, hempty, rfl, hkeys, hmode⟩
  have hstart : (shellRun RQ SQ setup).step ⟨arrived, t.inLoop⟩ (.notified KEYBOARD_EVENT) =
    some ⟨arrived, true⟩ := step_keyboard.mpr ⟨h.inLoop, by simp [hstate]⟩
  have hexamine : (shellRun RQ SQ setup).step ⟨arrived, true⟩ .round =
    some ⟨{ arrived with toKeyState := k }, goesOn⟩ := step_round.mpr ⟨rfl, k, hround, rfl⟩
  -- The report arrives, the loop starts, makes a round, and ends.
  refine CanReach.step ?_ (allowed_keyboard d _)
    (step_arrives .keyboard d (singleKey modifiers key))
  refine CanReach.step ?_ allowed_notified hstart
  refine CanReach.step ?_ allowed_round hexamine
  exact canReach_idle hempty (canReach_of_holds ⟨_, htyped⟩)

/-- No key is down behind a report without keys. -/
theorem Typed.released {u : Running RQ SQ} {report : Report} {modifiers : Byte}
    (h : Typed setup t modifiers 0#8 u report) : ∀ j ∈ slots, u.keysDown j = 0#8 := by
  intro j hj
  rw [h.keysDown, nextKeys, if_pos hj]
  by_cases htwo : j = 2
  · rw [htwo]
    exact h.shows.first
  · exact h.shows.others j hj htwo

/-- All keys are released, and then Ctrl-C is typed. -/
theorem recoverable_of_mouseTest (hctrl : TypesCtrlC setup) (h : Settled .mouseTest t) :
    Recoverable setup t := by
  obtain ⟨key, hkey, hroll, hsym⟩ := hctrl
  -- A key that is still down would not be new.
  refine (canReach_typed h 0#8 0#8 (by decide)).trans fun u ⟨report, hreleased⟩ => ?_
  have hstate : u.shell.consoleState = .mouseTest := by
    have hstays : ∀ keypress, keyEnters t.shell 0#8 keypress = .mouseTest := fun keypress =>
      (keyEnters_mouseTest h.consoleState _ _).trans (if_neg fun hleave => hleave.1 rfl)
    rw [hreleased.consoleState, hstays, h.consoleState, ite_self]
  refine (canReach_typed ⟨hstate, hreleased.ring, hreleased.inLoop⟩ 0x01#8 key hroll).trans
    fun v ⟨report', htyped⟩ => canReach_of_holds ?_
  have hpressed := pressedKey_showsKey htyped.shows hkey hreleased.released
  change v.shell.consoleState = .console
  rw [htyped.consoleState, hpressed, if_neg hkey, hsym, keyEnters_mouseTest hstate]
  exact if_pos ⟨by decide, rfl⟩

/-- From the states with a way out the prompt can be brought back. -/
theorem recoverable_of_wayOut (hctrl : TypesCtrlC setup) (hout : HasWayOut t.shell.consoleState)
    (hring : ∃ q, t.ring.Stores q) : Recoverable setup t := by
  rcases hout with hprompt | hsnake | hmouse
  · exact canReach_of_holds hprompt
  · refine (canReach_settled (by decide) (by decide) ⟨hsnake, hring⟩).trans fun u hu => ?_
    exact hu.elim canReach_of_holds recoverable_of_snake
  · refine (canReach_settled (by decide) (by decide) ⟨hmouse, hring⟩).trans fun u hu => ?_
    exact hu.elim canReach_of_holds (recoverable_of_mouseTest hctrl)

end CtrlC

/-! ## Whole runs -/

section Runs

variable {setup : Setup} {t t' : Running RQ SQ} {move : Move}

/-- The states at which the commands of a line lead to a trap. -/
theorem hasWayOut_enters_iff (c : Command) :
    HasWayOut (c.enters .console) ↔ c ≠ .disable ∧ c ≠ .utstest ∧ c ≠ .kbdtest := by
  cases c <;> decide

/-- At the prompt a round enters the state of the command that it carries out. -/
theorem roundEnters_console {kb : Keyboard} {k : KeyState RQ SQ}
    (h : k.shell.consoleState = .console) :
    roundEnters kb k = entersOf .console (nextCommand kb k) := by
  unfold roundEnters nextCommand
  cases nextKey kb k with
  | none => exact h
  | some next =>
    obtain ⟨modifiers, keypress⟩ := next
    dsimp only
    rw [keyEnters, h]
    dsimp only
    by_cases hreturn : keypress = KS_Return
    · rw [if_pos hreturn, if_pos ⟨rfl, hreturn⟩]
    · rw [if_neg hreturn, if_neg fun hboth => hreturn hboth.2]
      rfl

/-- A move from a state with a way out leads to another one exactly if it carries out none of the
three commands. -/
theorem hasWayOut_step_iff (hout : HasWayOut t.shell.consoleState)
    (h : (shellRun RQ SQ setup).step t move = some t') :
    HasWayOut t'.shell.consoleState ↔ KeepsWayOut setup t move := by
  rw [step_consoleState h]
  cases move with
  | arrives source d bytes => exact iff_of_true hout nofun
  | notified ch =>
    refine iff_of_true ?_ nofun
    rw [moveEnters]
    split_ifs
    · exact .inl rfl
    · exact hout
  | round =>
    rw [moveEnters, KeepsWayOut]
    -- At the prompt the command decides; elsewhere no command is carried out.
    by_cases hconsole : t.shell.consoleState = .console
    · rw [roundEnters_console hconsole]
      cases nextCommand (setup.keyboard t.mem) t.toKeyState with
      | none => exact iff_of_true (.inl rfl) nofun
      | some c =>
        rw [entersOf, hasWayOut_enters_iff]
        simp
    · have hnone : nextCommand (setup.keyboard t.mem) t.toKeyState = none := by
        unfold nextCommand
        split
        · exact if_neg fun hboth => hconsole hboth.1
        · rfl
      rw [hnone]
      refine iff_of_true ?_ nofun
      rcases roundEnters_of_ne_console hconsole (setup.keyboard t.mem) with heq | heq
      · rw [heq]
        exact .inl rfl
      · rw [heq]
        exact hout

/-- In a run from start-up, the prompt can be brought back from every state exactly if no round
carries out `disable`, `utstest` or `kbdtest`. -/
theorem always_recoverable_iff (hctrl : TypesCtrlC setup) {moves : List Move}
    (hstart : (shellRun RQ SQ setup).start t)
    (hrun : (shellRun RQ SQ setup).exec t moves = some t') :
    (shellRun RQ SQ setup).Always (Recoverable setup) t moves ↔
      (shellRun RQ SQ setup).Along (KeepsWayOut setup) t moves := by
  have hinv : ∀ s : Running RQ SQ, HasWayOut s.shell.consoleState ∧ (∃ q, s.ring.Stores q) →
      Recoverable setup s := fun s hs => recoverable_of_wayOut hctrl hs.1 hs.2
  refine always_iff_along hinv ?_ ?_ ⟨.inl hstart.consoleState, [], hstart.ring⟩ hrun
  · intro s a s' hs hkeeps hstep
    exact ⟨(hasWayOut_step_iff hs.1 hstep).mpr hkeeps, step_stores hstep hs.2⟩
  · intro s a s' hs hloses hstep
    exact not_recoverable fun hout => hloses ((hasWayOut_step_iff hs.1 hstep).mp hout)

end Runs

/-- Keymaps of eight letters and Return, in each group the plain keysym and that of Shift. -/
def sampleSetup : Setup where
  uk := sampleMap
  us := sampleMap
  layout := .uk
  devices := Devices.drivesById
where
  sampleMap (i : ℕ) : Keysym :=
    [0#16, KC 4#8, 0x61#16, 0x41#16, KC 5#8, 0x62#16, 0x42#16, KC 6#8, 0x63#16, 0x43#16,
      KC 7#8, 0x64#16, 0x44#16, KC 8#8, 0x65#16, 0x45#16, KC 12#8, 0x69#16, 0x49#16,
      KC 15#8, 0x6c#16, 0x4c#16, KC 22#8, 0x73#16, 0x53#16, KC 40#8, KS_Return,
      KS_Return].getD i 0#16

/-- The shell before its first notification. -/
def startUp : Running oneReq oneAnswer where
  toKeyState := sampleKeyState []
  mouseRing := ringOf []
  touchRing := ringOf []
  deviceRing := ringOf []
  mem := fun _ => 0#8
  inLoop := false

theorem atStartUp_startUp : AtStartUp startUp where
  editor := rfl
  history := rfl
  consoleState := rfl
  registry := rfl
  keysDown := rfl
  ring := .of_eq rfl
  mouseRing := .of_eq rfl
  touchRing := .of_eq rfl
  deviceRing := .of_eq rfl
  inLoop := rfl

theorem typesCtrlC_sampleSetup : TypesCtrlC sampleSetup :=
  ⟨6#8, by decide, by decide, by decide +kernel⟩

/-- The reports of some keys arrive, and the shell examines them. -/
def typing (keys : List Byte) : List Move :=
  let report (i : ℕ) : BuffDesc := ⟨BitVec.ofNat 64 (0x1000 + 8 * i), 8#32, .client 0#64⟩
  (keys.mapIdx fun i key => .arrives .keyboard (report i) (singleKey 0#8 key)) ++
    .notified KEYBOARD_EVENT :: List.replicate keys.length .round

/-- Two letters and Return. -/
theorem always_recoverable_iff_line : ∃ t,
    (shellRun oneReq oneAnswer sampleSetup).exec startUp (typing [4#8, 5#8, 40#8]) = some t ∧
      ((shellRun oneReq oneAnswer sampleSetup).Always (Recoverable sampleSetup) startUp
          (typing [4#8, 5#8, 40#8]) ↔
        (shellRun oneReq oneAnswer sampleSetup).Along (KeepsWayOut sampleSetup) startUp
          (typing [4#8, 5#8, 40#8])) := by
  have hsome : ((shellRun oneReq oneAnswer sampleSetup).exec startUp
      (typing [4#8, 5#8, 40#8])).isSome = true := by decide +kernel
  obtain ⟨t, hrun⟩ := Option.isSome_iff_exists.mp hsome
  exact ⟨t, hrun, always_recoverable_iff typesCtrlC_sampleSetup atStartUp_startUp hrun⟩

/-- The line `disable` leads to a state in which the wheel does not enable the keyboard, and
nothing else does. -/
theorem disable_is_final : (shellRun oneReq oneAnswer sampleSetup).start startUp ∧ ∃ t,
    (shellRun oneReq oneAnswer sampleSetup).exec startUp
        (typing [7#8, 12#8, 22#8, 4#8, 5#8, 15#8, 8#8, 40#8]) = some t ∧
      t.shell.consoleState = .disabled ∧ ¬ Recoverable sampleSetup t := by
  have hdisabled : ((shellRun oneReq oneAnswer sampleSetup).exec startUp
      (typing [7#8, 12#8, 22#8, 4#8, 5#8, 15#8, 8#8, 40#8])).map (·.shell.consoleState) =
        some .disabled := by decide +kernel
  obtain ⟨t, hrun, hstate⟩ := Option.map_eq_some_iff.mp hdisabled
  refine ⟨atStartUp_startUp, t, hrun, hstate, not_recoverable ?_⟩
  rw [hstate]
  decide

end Sel4Xhci.Shell
