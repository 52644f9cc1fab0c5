import Sel4Xhci.Devices.Accessors
import Sel4Xhci.Semantics.CString
import Sel4Xhci.Semantics.Program

/-!
# The state of the shell

The global variables of `shell.c`, what the shell does that can be seen, and the ways in
which one of its functions may fail to return.

Memory that the shell has not initialised, the blocks that `malloc` returns, FatFs and the
rest of the system are not part of the shell. What they amount to in one call of
`decode_command` is a `World`, and the shell carries the worlds of the calls to come.

## Main definitions

* `ShellState` — the variables: the edit line, the history, and what the commands act on
* `World` — what a call of `decode_command` finds
* `Event`, `Stop` — what a function does, and why it may not return
-/

set_option autoImplicit false

namespace Sel4Xhci.Shell

open Semantics Semantics.CString Umass Devices

/-- `CMD_LIMIT`: the size of `cmd`. -/
abbrev CMD_LIMIT : ℕ := 1024

/-- `CMD_HISTORY`: the number of slots of `history`. -/
abbrev CMD_HISTORY : ℕ := 1024

/-- `ARGMAX`: the number of slots of `parsedArgs`. -/
abbrev ARGMAX : ℕ := 10

/-- `sizeof(hist)`. -/
abbrev HIST_SIZE : ℕ := 100

/-- The states of the console. -/
inductive ConsoleState
  | console
  | snake
  | mouseTest
  | keyboardTest
  | utsTest
  | disabled
  deriving DecidableEq, Repr

/-- A string of ASCII characters in memory. -/
def ascii (chars : List Char) : List Byte := chars.map fun c => BitVec.ofNat 8 c.toNat

/-- What `%s` prints for a string in memory. -/
def text (s : List Byte) : String := String.ofList (s.map fun b => Char.ofNat b.toNat)

/-- What `%c` prints for a character. -/
def char (b : Byte) : String := text [b]

/-- What `%s` prints for an entry of `parsedArgs` or `history`, null or not. -/
def nullableText : Option (List Byte) → String
  | some s => text s
  | none => "(null)"

/-! ## The world of one command -/

/-- What `f_readdir` stores of a directory entry, as far as the shell looks at it. -/
structure FilInfo where
  fname : String
  directory : Bool
  fsize : BitVec 32
  deriving DecidableEq, Repr

/-- What FatFs answers during one command: the results of opening by path, the entries and
lines it hands out until it reports the end, and what becomes of a write. -/
structure FatFs where
  opendir : Option (List Byte) → BitVec 32
  entries : List FilInfo
  openFile : Option (List Byte) → Byte → BitVec 32
  lines : List String
  write : BitVec 32 × BitVec 32

variable (RQ : Fifo BlkReq) (SQ : Fifo Answer)

/-- What one call of `decode_command` finds: the memory in which its array `hist` lies, the
blocks that `malloc` returns for a history entry (`none`: a null pointer) and for a data
buffer (by size), FatFs, and the rest of the system while a request is polled for. The
addresses of the two callbacks and of `*kbd_buffer` belong to the image. The FatFs commands
make requests of their own, but are taken to leave `current_xfer` and the queues as they were,
and neither to fault nor to spin. -/
structure World where
  stack : Memory HIST_SIZE
  entry : Option (List Byte)
  buffer : BitVec 64 → BitVec 64
  fat : FatFs
  serve : Serve RQ SQ
  printBlocks : BitVec 64
  writeComplete : BitVec 64
  kbdPointer : String

/-! ## The variables -/

/-- `cmd`, `cursor_index` and `cmd_len`. -/
structure Editor where
  cmd : Memory CMD_LIMIT
  cursorIndex : ℤ
  cmdLen : ℤ

/-- `history`, `cmd_hist` and `cmd_hist_cursor`. A slot is null, or points to a block. -/
structure History where
  history : Fin CMD_HISTORY → Option (List Byte)
  cmdHist : ℤ
  cmdHistCursor : ℤ

/-- What the commands act on: `console_state`, `*kbd_buffer`, the device table, `current_xfer`
and the memory shared with the driver. -/
structure Periphery where
  consoleState : ConsoleState
  kbdBuffer : Byte
  registry : Registry
  currentXfer : BitVec 32
  shared : Shared RQ SQ

/-- The shell, with the worlds of the commands to come. -/
structure ShellState extends Editor, History, Periphery RQ SQ where
  upcoming : ℕ → World RQ SQ

/-- A line that has just been typed into a clean `cmd`. -/
def Editor.typed (line : List Byte) : Editor :=
  ⟨.ofText CMD_LIMIT line, line.length, line.length⟩

/-- The history at start-up. -/
def History.empty : History := ⟨fun _ => none, -1, 0⟩

/-- Queues of one entry. -/
abbrev oneReq : Fifo BlkReq := .bounded BlkReq 1

/-- Queues of one entry. -/
abbrev oneAnswer : Fifo Answer := .bounded Answer 1

/-- A world of clean memory, an empty drive and a prompt driver, in which `malloc` returns a
block of `block` for a history entry. -/
def calmWorld (stack : Memory HIST_SIZE) (block : List Byte) : World oneReq oneAnswer where
  stack := stack
  entry := some block
  buffer := fun _ => 0x1000#64
  fat := ⟨fun _ => 0#32, [], fun _ _ => 0#32, [], (0#32, 0#32)⟩
  serve := promptServe 1
  printBlocks := 0x2000#64
  writeComplete := 0x3000#64
  kbdPointer := "0x4000"

/-- A world in which all memory is clear at first. -/
def clearWorld : World oneReq oneAnswer :=
  calmWorld (.ofText HIST_SIZE []) (List.replicate HIST_SIZE 0#8)

/-- A shell at its prompt, with a line typed and devices announced. -/
def atPrompt (line : List Byte) (registry : Registry) (world : World oneReq oneAnswer) :
    ShellState oneReq oneAnswer where
  toEditor := .typed line
  toHistory := .empty
  consoleState := .console
  kbdBuffer := 0#8
  registry := registry
  currentXfer := -1#32
  shared := ⟨([] : List BlkReq), ([] : List Answer), false, fun _ => 0#8⟩
  upcoming := fun _ => world

/-! ## What a function does -/

/-- The functions that entries of `parsedArgs` are passed to. -/
inductive Callee
  | strcmp
  | strlen
  | strncpy
  | atoi
  | fOpendir
  | fOpen
  deriving DecidableEq, Repr

/-- The calls of FatFs. -/
inductive FatOp
  | mount
  | opendir
  | readdir
  | closedir
  | openFile (mode : Byte)
  | gets
  | write (text : List Byte)
  | close
  deriving DecidableEq, Repr

/-- What the shell does that others can see, and the accesses to its own arrays and to the
bytes of a keyboard report. -/
inductive Event
  | printf (text : String)
  | splashScreen
  | cmd (i : ℤ)
  | hist (i : ℤ)
  | slot (i : ℤ) (entry : Option (List Byte))
  | report (i : ℤ)
  | split (buffer : List Byte)
  | passes (f : Callee) (arg : Option (List Byte))
  | buffer (size val : BitVec 64)
  | copies (val : BitVec 64) (n : ℕ)
  | enqueueUmassRequest (call : Call)
  | api (event : ApiEvent)
  | fatfs (op : FatOp)
  | notify (channel : ℕ)
  deriving DecidableEq

/-- Why a function does not return: it follows a bad pointer, or polls for ever. -/
inductive Stop
  | fault
  | spins
  deriving DecidableEq, Repr

/-- A function of the shell on a part `σ` of its variables. -/
abbrev Code (σ α : Type) := Program σ Event Stop α

/-- `printf`. -/
def printf {σ : Type} (text : String) : Code σ Unit := Program.emit [.printf text]

/-- The text of the prompt. -/
def prompt : String := "\x1b[32;1mseL4 test>>> \x1b[0m"

/-- `reset_prompt`. -/
def resetPrompt {σ : Type} : Code σ Unit := printf ("\n" ++ prompt)

variable {RQ SQ}

/-- A function that uses the edit line only. -/
def onEditor {α : Type} (p : Code Editor α) : Code (ShellState RQ SQ) α :=
  Program.focus (·.toEditor) (fun s e => { s with toEditor := e }) p

/-- A function that leaves edit line and history alone. -/
def onPeriphery {α : Type} (p : Code (Periphery RQ SQ) α) : Code (ShellState RQ SQ) α :=
  Program.focus (·.toPeriphery) (fun s d => { s with toPeriphery := d }) p

theorem onEditor_run {α : Type} {p : Code Editor α} {s : ShellState RQ SQ}
    {o : Outcome Editor Event Stop α} (h : p s.toEditor = o) :
    onEditor p s = ⟨o.result, o.events, { s with toEditor := o.state }⟩ :=
  Program.focus_run h

theorem onEditor_returns {α : Type} {p : Code Editor α} {s : ShellState RQ SQ} {a : α} {e : Editor}
    (h : Program.Returns p s.toEditor a e) :
    Program.Returns (onEditor p) s a { s with toEditor := e } := h.focus

/-! ## Access to `cmd` -/

/-- Accesses to the first `n` bytes of `cmd`. -/
def touches (n : ℕ) : List Event := (List.range n).map fun i : ℕ => .cmd i

theorem mem_touches {n : ℕ} {e : Event} : e ∈ touches n ↔ ∃ i < n, e = .cmd i := by
  simp [touches, eq_comm]

/-- The first `n` bytes of `cmd` are accessed. -/
def touchCmd (n : ℕ) : Code Editor Unit := Program.emit (touches n)

/-- `cmd[i]`. -/
def readCmd (i : ℤ) : Code Editor Byte := do
  Program.emit [.cmd i]
  let e ← Program.get
  pure (e.cmd.load i)

/-- `cmd[i] = b`. -/
def writeCmd (i : ℤ) (b : Byte) : Code Editor Unit := do
  Program.emit [.cmd i]
  Program.modify fun e => { e with cmd := e.cmd.store i b }

/-- `strlen(cmd)`. -/
def strlenCmd : Code Editor ℕ := do
  let e ← Program.get
  touchCmd (strlen e.cmd.bytes + 1)
  pure (strlen e.cmd.bytes)

/-- The bytes `new` are stored to `cmd`, by `strncpy` or `memset`. -/
def fillCmd (new : List Byte) : Code Editor Unit := do
  touchCmd new.length
  Program.modify fun e => { e with cmd := e.cmd.fill new }

/-- What `memset(cmd, '\0', sizeof(cmd))` stores. -/
def nuls : List Byte := List.replicate CMD_LIMIT 0#8

theorem length_nuls : nuls.length = CMD_LIMIT := List.length_replicate

theorem fillCmd_run (new : List Byte) (e : Editor) :
    fillCmd new e = ⟨.ok (), touches new.length, { e with cmd := e.cmd.fill new }⟩ := by
  have hrun : fillCmd new e =
      ⟨.ok (), touches new.length ++ [], { e with cmd := e.cmd.fill new }⟩ := rfl
  rw [hrun, List.append_nil]

theorem fillCmd_events {new : List Byte} {e : Editor} {event : Event}
    (h : event ∈ (fillCmd new e).events) : ∃ i < new.length, event = .cmd (i : ℕ) := by
  rw [fillCmd_run] at h
  exact mem_touches.mp h

theorem fillCmd_returns (new : List Byte) (e : Editor) :
    Program.Returns (fillCmd new) e () { e with cmd := e.cmd.fill new } := rfl

end Sel4Xhci.Shell
