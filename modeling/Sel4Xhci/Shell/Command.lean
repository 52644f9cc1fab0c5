import Sel4Xhci.Shell.Basic
import Sel4Xhci.Shell.Split

/-!
# The commands of the shell

`decode_command` of `shell.c`: the line is terminated, a copy is kept for the history, the
words are looked up in a chain of comparisons, and the command that was found is carried out
on the devices and files. Most commands then run into a common end that enters the copy in the
history and clears the line; three of them return by themselves.

## Main definitions

* `Command`, `commandOf` — the commands, and the chain of comparisons
* `readCommand`, `writeCommand`, ... — what each command does outside the edit line
* `decodeCommand` — the code
-/

set_option autoImplicit false

namespace Sel4Xhci.Shell

open Semantics Semantics.CString Semantics.Format Umass Devices

variable {RQ : Fifo BlkReq} {SQ : Fifo Answer}

/-- What a line may select. -/
inductive Command
  | init
  | disable
  | history
  | mousetest
  | utstest
  | read
  | write
  | fatls
  | fatread
  | fatwrite
  | kbdtest
  | snake
  | getdev
  | lsdev
  | help
  | unknown
  deriving DecidableEq, Repr

/-- The chain of `strcmp`s on the first word. -/
def commandOf (word : List Byte) : Command :=
  if word = ascii ['i', 'n', 'i', 't'] then .init
  else if word = ascii ['d', 'i', 's', 'a', 'b', 'l', 'e'] then .disable
  else if word = ascii ['h', 'i', 's', 't', 'o', 'r', 'y'] then .history
  else if word = ascii ['m', 'o', 'u', 's', 'e', 't', 'e', 's', 't'] then .mousetest
  else if word = ascii ['u', 't', 's', 't', 'e', 's', 't'] then .utstest
  else if word = ascii ['r', 'e', 'a', 'd'] then .read
  else if word = ascii ['w', 'r', 'i', 't', 'e'] then .write
  else if word = ascii ['f', 'a', 't', 'l', 's'] then .fatls
  else if word = ascii ['f', 'a', 't', 'r', 'e', 'a', 'd'] then .fatread
  else if word = ascii ['f', 'a', 't', 'w', 'r', 'i', 't', 'e'] then .fatwrite
  else if word = ascii ['k', 'b', 'd', 't', 'e', 's', 't'] then .kbdtest
  else if word = ascii ['s', 'n', 'a', 'k', 'e'] then .snake
  else if word = ascii ['g', 'e', 't', 'd', 'e', 'v'] then .getdev
  else if word = ascii ['l', 's', 'd', 'e', 'v'] then .lsdev
  else if word = ascii ['h', 'e', 'l', 'p'] then .help
  else if word = ascii ['?'] then .help
  else .unknown

/-- `parsedArgs[i]`: null behind the last word. -/
abbrev parsedArg (args : List (List Byte)) (i : ℕ) : Option (List Byte) := args[i]?

/-- The checks that three commands make of their own arguments. -/
def Command.rejects (c : Command) (args : List (List Byte)) : Bool :=
  match c with
  | .read => parsedArg args 3 == none || parsedArg args 1 == none || parsedArg args 2 == none ||
      parsedArg args 4 != none
  | .write => parsedArg args 4 == none || parsedArg args 3 == none || parsedArg args 1 == none ||
      parsedArg args 2 == none || parsedArg args 5 != none
  | .fatwrite => parsedArg args 3 != none || parsedArg args 1 == none || parsedArg args 2 == none
  | _ => false

/-! ## Entries of `parsedArgs` as arguments -/

section Arguments

variable {σ : Type}

/-- A function of the C library gets an entry of `parsedArgs`; it follows the pointer. -/
def passTo (f : Callee) (arg : Option (List Byte)) : Code σ (List Byte) := do
  Program.emit [.passes f arg]
  match arg with
  | some s => pure s
  | none => Program.stop .fault

/-- `atoi` of an entry. -/
def atoiArg (arg : Option (List Byte)) : Code σ (BitVec 32) := do
  let s ← passTo .atoi arg
  pure (atoi s)

/-- A FatFs function gets an entry; a null path is answered, not followed. -/
def passPath (f : Callee) (arg : Option (List Byte)) (op : FatOp) : Code σ Unit :=
  Program.emit [.passes f arg, .fatfs op]

/-- What a command prints that rejects its arguments. -/
def printInvalid (usage : String) : Code σ Unit := do
  printf "Invalid Args\n"
  printf usage
  resetPrompt

end Arguments

/-! ## Devices -/

/-- `get_blksize`. -/
def blksizeOf (devId : BitVec 32) : Code (Periphery RQ SQ) (BitVec 32) := do
  let d ← Program.get
  match getBlksize d.registry devId with
  | some blksize => pure blksize
  | none => Program.stop .fault

/-- The device table after the API has been at work on its records. -/
def Registry.absorb (r : Registry) (table : Fin MAX_DEVICES → Option SelUsbDevice) : Registry :=
  { r with
    usbDevices := fun i =>
      match r.usbDevices i, table i with
      | some dev, some record => some { dev with toSelUsbDevice := record }
      | entry, _ => entry }

/-- The API's view of the table and the other variables. -/
def Periphery.apiState (d : Periphery RQ SQ) : ApiState RQ SQ :=
  ⟨⟨d.registry.apiDevices, d.currentXfer⟩, d.shared⟩

/-- The variables after a call of the API. -/
def Periphery.afterCall (d : Periphery RQ SQ) (s : ApiState RQ SQ) : Periphery RQ SQ :=
  { d with
    registry := Registry.absorb d.registry s.vars.usbDevices
    currentXfer := s.vars.currentXfer
    shared := s.shared }

/-- `enqueue_umass_request`; the shell drops what it returns. -/
def enqueueRequest (serve : Serve RQ SQ) (call : Call) : Code (Periphery RQ SQ) Unit := do
  Program.emit [.enqueueUmassRequest call]
  let d ← Program.get
  let answer := enqueueUmassRequest serve d.apiState call
  Program.emit (answer.2.1.map .api)
  Program.modify fun d => d.afterCall answer.2.2
  match answer.1 with
  | .returns _ => pure ()
  | .spins => Program.stop .spins
  | .fault => Program.stop .fault

/-- The argument of `malloc` for `nblks` blocks: an `int` product that becomes a `size_t`. -/
def bufferSize (blksize nblks : BitVec 32) : BitVec 64 := (blksize * nblks).signExtend 64

/-- `malloc` of a data buffer. -/
def mallocBuffer (w : World RQ SQ) (size : BitVec 64) : Code (Periphery RQ SQ) (BitVec 64) := do
  Program.emit [.buffer size (w.buffer size)]
  pure (w.buffer size)

/-- The memory with the bytes `new` at `val`. -/
def storeAt (heap : BitVec 64 → Byte) (val : BitVec 64) (new : List Byte) : BitVec 64 → Byte :=
  fun a => (new[(a - val).toNat]?).getD (heap a)

/-- `strncpy(val, s, strlen(s))` to a data buffer. -/
def strncpyBuffer (val : BitVec 64) (s : List Byte) : Code (Periphery RQ SQ) Unit := do
  Program.emit [.copies val s.length]
  Program.when (val = 0#64 ∧ s ≠ []) (Program.stop .fault)
  Program.modify fun d => { d with shared.heap := storeAt d.shared.heap val s }

/-- `read`. -/
def readCommand (w : World RQ SQ) (args : List (List Byte)) : Code (Periphery RQ SQ) Unit := do
  if Command.read.rejects args then
    printInvalid "Usage: read [devid] [blkno] [nblks]\n"
  else
    let blkno ← atoiArg (parsedArg args 2)
    let nblks ← atoiArg (parsedArg args 3)
    let devId ← atoiArg (parsedArg args 1)
    let blksize ← blksizeOf devId
    if 0 < blksize.toInt then
      let val ← mallocBuffer w (bufferSize blksize nblks)
      let devId ← atoiArg (parsedArg args 1)
      enqueueRequest w.serve ⟨devId, true, blkno, nblks, val, w.printBlocks⟩
    else
      let devId ← atoiArg (parsedArg args 1)
      printf ("Device " ++ decimal devId ++ " not mass storage\n")

/-- `write`. -/
def writeCommand (w : World RQ SQ) (args : List (List Byte)) : Code (Periphery RQ SQ) Unit := do
  if Command.write.rejects args then
    printInvalid "Usage: write [devid] [blkno] [nblks] [text]\n"
  else
    let blkno ← atoiArg (parsedArg args 2)
    let nblks ← atoiArg (parsedArg args 3)
    let devId ← atoiArg (parsedArg args 1)
    let blksize ← blksizeOf devId
    if 0 < blksize.toInt then
      let val ← mallocBuffer w (bufferSize blksize nblks)
      printf ("size of write " ++ decimal (blksize * nblks) ++ "\n")
      let _ ← passTo .strlen (parsedArg args 4)
      let s ← passTo .strncpy (parsedArg args 4)
      strncpyBuffer val s
      let devId ← atoiArg (parsedArg args 1)
      enqueueRequest w.serve ⟨devId, false, blkno, nblks, val, w.writeComplete⟩
    else
      let devId ← atoiArg (parsedArg args 1)
      printf ("Device " ++ decimal devId ++ " not mass storage\n")

/-- `getdev`. -/
def getdevCommand (args : List (List Byte)) : Code (Periphery RQ SQ) Unit := do
  let devId ← atoiArg (parsedArg args 1)
  let d ← Program.get
  match printDevice d.registry devId with
  | some texts => Program.emit (texts.map .printf)
  | none => Program.stop .fault

/-- `lsdev`. -/
def lsdevCommand : Code (Periphery RQ SQ) Unit := do
  let d ← Program.get
  match printDevs d.registry with
  | some texts => Program.emit (texts.map .printf)
  | none => Program.stop .fault

/-! ## Files -/

/-- `%10u`. -/
def padded (n : BitVec 32) : String :=
  let digits := Nat.toDigits 10 n.toNat
  String.ofList (List.replicate (10 - digits.length) ' ' ++ digits)

/-- The line that `fatls` prints for an entry. -/
def FilInfo.line (entry : FilInfo) : String :=
  if entry.directory then "   <DIR>   " ++ entry.fname ++ "\n"
  else padded entry.fsize ++ " " ++ entry.fname ++ "\n"

/-- `fatls`. -/
def fatlsCommand (w : World RQ SQ) (args : List (List Byte)) : Code (Periphery RQ SQ) Unit := do
  printf ("listing from " ++ nullableText (parsedArg args 1) ++ "\n")
  Program.emit [.fatfs .mount]
  passPath .fOpendir (parsedArg args 1) .opendir
  let res := w.fat.opendir (parsedArg args 1)
  if res = 0#32 then
    Program.emit (w.fat.entries.flatMap fun entry => [.fatfs .readdir, .printf entry.line])
    Program.emit [.fatfs .readdir, .fatfs .closedir]
  else
    printf ("Failed to open \"" ++ nullableText (parsedArg args 1) ++ "\". (" ++ decimal res ++
      ")\n")

/-- `FA_READ`. -/
def FA_READ : Byte := 0x01#8

/-- `FA_WRITE | FA_CREATE_ALWAYS | FA_READ`. -/
def FA_WRITE_ALWAYS : Byte := 0x0b#8

/-- `fatread`. -/
def fatreadCommand (w : World RQ SQ) (args : List (List Byte)) : Code (Periphery RQ SQ) Unit := do
  Program.emit [.fatfs .mount]
  passPath .fOpen (parsedArg args 1) (.openFile FA_READ)
  let fr := w.fat.openFile (parsedArg args 1) FA_READ
  if fr ≠ 0#32 then
    printf ("file error " ++ decimal fr ++ "\n")
  else
    printf ("======= SOF " ++ nullableText (parsedArg args 1) ++ " =======\n")
    Program.emit (w.fat.lines.flatMap fun line => [.fatfs .gets, .printf (line ++ "\n")])
    Program.emit [.fatfs .gets, .fatfs .close]
    printf ("======= EOF " ++ nullableText (parsedArg args 1) ++ " =======\n")

/-- `fatwrite`. A rejected command goes on like any other. -/
def fatwriteCommand (w : World RQ SQ) (args : List (List Byte)) :
    Code (Periphery RQ SQ) Unit := do
  Program.when (Command.fatwrite.rejects args) (printInvalid "Usage: fatwrite [filename] [text]\n")
  printf ("writing to file '" ++ nullableText (parsedArg args 1) ++ "'\n")
  -- Once for the size of the copy, once for the number of bytes copied.
  let _ ← passTo .strlen (parsedArg args 2)
  let _ ← passTo .strlen (parsedArg args 2)
  let teststr ← passTo .strncpy (parsedArg args 2)
  Program.emit [.fatfs .mount]
  passPath .fOpen (parsedArg args 1) (.openFile FA_WRITE_ALWAYS)
  let fr := w.fat.openFile (parsedArg args 1) FA_WRITE_ALWAYS
  Program.when (fr ≠ 0#32) (printf ("file error open " ++ decimal fr ++ "\n"))
  let _ ← passTo .strlen (parsedArg args 2)
  Program.emit [.fatfs (.write teststr)]
  Program.when (w.fat.write.1 ≠ 0#32)
    (printf ("file error write " ++ decimal w.fat.write.1 ++ "\n"))
  Program.emit [.fatfs .close]
  printf ("wrote " ++ decimal w.fat.write.2 ++ " to file " ++ nullableText (parsedArg args 1) ++
    "\n")

/-! ## The console -/

/-- A change of `console_state`. -/
def setConsole (c : ConsoleState) : Code (Periphery RQ SQ) Unit :=
  Program.modify fun d => { d with consoleState := c }

/-- `init_shell`. -/
def initShell : Code (Periphery RQ SQ) Unit := do
  Program.emit [.splashScreen]
  setConsole .console
  resetPrompt

/-- `init_mousetest`. -/
def initMousetest {σ : Type} : Code σ Unit :=
  Program.emit (["\n", "\n", "x: 0000\n", "y: 0000\n", "w: 0000\n", "\n\n\n"].map .printf)

/-- `disable`. -/
def disableCommand : Code (Periphery RQ SQ) Unit := do
  let d ← Program.get
  if d.consoleState ≠ .disabled then
    setConsole .disabled
    printf "keyboard disabled!!!\n"
  else
    setConsole .console
    printf "keyboard enabled!!!\n"

/-- `SNAKE_NOTIFY`. -/
def SNAKE_NOTIFY : ℕ := 10

/-- `snake`. -/
def snakeCommand (w : World RQ SQ) : Code (Periphery RQ SQ) Unit := do
  Program.modify fun d => { d with kbdBuffer := 0x63#8 }
  printf ("set kbd_buffer to c " ++ w.kbdPointer ++ "\n")
  setConsole .snake
  Program.emit [.notify SNAKE_NOTIFY]

/-- `keyword` and `short_description` of `command_list`. -/
def commandList : List (String × String) :=
  [("disable", "toggle keyboard"), ("kbdtest", "enter keyboard test"),
    ("fatls", "list files at filepath"), ("fatread", "read file"), ("fatwrite", "write file"),
    ("getdev", "print device information"), ("history", "display history"),
    ("init", "display splash"), ("lsdev", "list all connected devices"),
    ("mousetest", "enter mouse test"), ("read", "read blocks from connected device"),
    ("snake", "play snake"), ("write", "write blocks to connected device")]

/-- `help`. -/
def help {σ : Type} : Code σ Unit := do
  Program.emit (commandList.map fun (keyword, description) =>
    .printf (keyword ++ String.ofList (List.replicate (10 - keyword.length) ' ') ++ "- " ++
      description ++ "\n"))
  resetPrompt

/-- What a command does that leaves edit line and history alone. -/
def Command.act (w : World RQ SQ) (args : List (List Byte)) : Command → Code (Periphery RQ SQ) Unit
  | .init => initShell
  | .disable => disableCommand
  | .read => readCommand w args
  | .write => writeCommand w args
  | .fatls => fatlsCommand w args
  | .fatread => fatreadCommand w args
  | .fatwrite => fatwriteCommand w args
  | .snake => snakeCommand w
  | .getdev => getdevCommand args
  | .lsdev => lsdevCommand
  | .help => Sel4Xhci.Shell.help
  | .unknown => printf (nullableText (parsedArg args 0) ++ " is not a recognised command!\n")
  | .history => pure ()
  | .mousetest => setConsole .mouseTest
  | .utstest => setConsole .utsTest
  | .kbdtest => setConsole .keyboardTest

/-! ## The line and the history -/

/-- `history[i]`, if there is such a slot. -/
def History.slot (h : History) (i : ℤ) : Option (List Byte) :=
  if hi : 0 ≤ i ∧ i < CMD_HISTORY then h.history ⟨i.toNat, by omega⟩ else none

/-- `history[i] = entry`. A store outside the table hits something else, which is not part
of the history. -/
def History.put (h : History) (i : ℤ) (entry : Option (List Byte)) : History :=
  { h with history := fun slot => if (slot.val : ℤ) = i then entry else h.history slot }

/-- A function that uses the history only. -/
def onHistory {α : Type} (p : Code History α) : Code (ShellState RQ SQ) α :=
  Program.focus (·.toHistory) (fun s h => { s with toHistory := h }) p

theorem onHistory_returns {α : Type} {p : Code History α} {s : ShellState RQ SQ} {a : α}
    {h : History} (hrun : Program.Returns p s.toHistory a h) :
    Program.Returns (onHistory p) s a { s with toHistory := h } := hrun.focus

/-- Stores to the first `n` bytes of `hist`. -/
def histStores (n : ℕ) : List Event := (List.range n).map fun i : ℕ => .hist i

/-- `strncpy(hist, cmd, strlen(cmd))`: the local copy of the line. A line of more than
`HIST_SIZE` characters overruns `hist`; the overrun is recorded, and taken to change nothing
else. -/
def copyLine (stack : Memory HIST_SIZE) : Code Editor (Memory HIST_SIZE) := do
  let n ← strlenCmd
  touchCmd n
  Program.emit (histStores n)
  let e ← Program.get
  pure (stack.fill (copied e.cmd.bytes n))

/-- The memory after `split`. -/
def splitMemory {size : ℕ} (mem : Memory size) (argvSize : ℕ) : Memory size where
  bytes := (split mem.bytes argvSize).buffer
  size_le := by
    rw [split_length]
    exact mem.size_le

/-- The accesses of a reader who follows the pointers that `split` has left, up to the NUL
behind each word. -/
def wordAccesses (r : Scanned) : List Event :=
  r.argv.flatMap fun start =>
    (List.range (strlen (r.buffer.drop start) + 1)).map fun i : ℕ => .cmd (start + i : ℕ)

/-- `split(cmd, parsedArgs, ARGMAX)`, and the words that `parsedArgs` points to then. -/
def splitLine : Code Editor (List (List Byte)) := do
  let e ← Program.get
  Program.emit [.split e.cmd.bytes]
  let r := split e.cmd.bytes ARGMAX
  touchCmd r.examined
  Program.modify fun e => { e with cmd := splitMemory e.cmd ARGMAX }
  Program.emit (wordAccesses r)
  pure r.strings

/-- The world of this call. -/
def nextWorld : Code (ShellState RQ SQ) (World RQ SQ) := do
  let s ← Program.get
  Program.modify fun s => { s with upcoming := fun n => s.upcoming (n + 1) }
  pure (s.upcoming 0)

/-- `history`. -/
def historyCommand : Code (ShellState RQ SQ) Unit := do
  let s ← Program.get
  printf ("cmd_hist " ++ toString s.cmdHist ++ "\n")
  Program.emit ((List.range s.cmdHist.toNat).flatMap fun c : ℕ =>
    [.slot c (s.slot c), .printf ("hist " ++ toString c ++ ": " ++
      nullableText ((s.slot c).map string) ++ "\n")])

/-- The copy of the line is entered in the history. -/
def enterHistory (entry : Option (List Byte)) (hist : Memory HIST_SIZE) : Code History Unit := do
  Program.modify fun h => { h with cmdHist := h.cmdHist + 1 }
  match entry with
  | some block =>
    Program.modify fun h =>
      h.put h.cmdHist (some (strncpy block hist.bytes (strlen hist.bytes)))
  | none =>
    Program.modify fun h => h.put h.cmdHist none
    Program.when (strlen hist.bytes ≠ 0) (Program.stop .fault)
  Program.modify fun h => { h with cmdHistCursor := h.cmdHist + 1 }

/-- The line is entered in the history and cleared. -/
def commonEnd (w : World RQ SQ) (hist : Memory HIST_SIZE) : Code (ShellState RQ SQ) Unit := do
  onHistory (enterHistory w.entry hist)
  onEditor (fillCmd nuls)
  printf "\n"

/-- `cursor_index = cmd_len = 0`. -/
def resetLine : Code Editor Unit :=
  Program.modify fun e => { e with cursorIndex := 0, cmdLen := 0 }

/-- The part of a command before the common end. -/
def carryOut (w : World RQ SQ) (args : List (List Byte)) (c : Command) :
    Code (ShellState RQ SQ) Unit :=
  if c = .history then historyCommand else onPeriphery (c.act w args)

/-- What becomes of a line, by the command it selects. -/
def runCommand (w : World RQ SQ) (args : List (List Byte)) (hist : Memory HIST_SIZE)
    (c : Command) : Code (ShellState RQ SQ) Unit :=
  match c with
  | .mousetest => do
    onPeriphery (c.act w args)
    onHistory (Program.modify fun h => { h with cmdHist := h.cmdHist + 1 })
    printf "\n"
    onEditor resetLine
    initMousetest
  | .utstest => do
    onPeriphery (c.act w args)
    commonEnd w hist
    onEditor resetLine
    initMousetest
  | .kbdtest => do
    printf "\n"
    onPeriphery (c.act w args)
  | _ => do
    carryOut w args c
    commonEnd w hist
    resetPrompt
    onEditor resetLine

/-- `decode_command`. -/
def decodeCommand : Code (ShellState RQ SQ) Unit := do
  let s ← Program.get
  if 0 < s.cmdLen then
    let w ← nextWorld
    onEditor (writeCmd s.cmdLen 0#8)
    let hist ← onEditor (copyLine w.stack)
    let args ← onEditor splitLine
    let word ← passTo .strcmp (parsedArg args 0)
    runCommand w args hist (commandOf word)
  else
    resetPrompt
    onEditor resetLine

end Sel4Xhci.Shell
