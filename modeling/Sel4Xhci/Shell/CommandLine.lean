import Sel4Xhci.Shell.Command

/-!
# What a command line does

Whatever command a line selects, `decode_command` does three things in a row: it prepares the
line, it lets the command act on devices and files, and it puts the editor in order. Most of
what goes wrong goes wrong in commands that leave the row.

## Main definitions

* `typedLine`, `lineArgs` — the line that is handed to the parser, and its words
* `Emitted` — what a command may do, with the arguments it uses
* `Ending` — what a command leaves of line and history

## Main results

* `decodeCommand_eq` — a line is prepared in the same way for all commands
* `act_emits` — what each command may do
* `runCommand_ensures` — how a line ends, by the command it selects
* `lineEvent_of_mem` — what a line does
-/

set_option autoImplicit false

namespace Sel4Xhci.Shell

open Semantics Semantics.CString Semantics.Program Umass Devices

variable {RQ : Fifo BlkReq} {SQ : Fifo Answer}

/-! ## What a command may do -/

/-- The event belongs to a device or file operation. -/
def Event.IsOperation : Event → Prop
  | .buffer _ _ => True
  | .copies _ _ => True
  | .enqueueUmassRequest _ => True
  | .api _ => True
  | .fatfs _ => True
  | _ => False

instance (e : Event) : Decidable e.IsOperation := by
  cases e <;> unfold Event.IsOperation <;> infer_instance

/-- The event is about a data buffer and what goes into it. -/
def Event.isTransfer : Event → Bool
  | .buffer _ _ => true
  | .copies _ _ => true
  | .enqueueUmassRequest _ => true
  | _ => false

/-- The arguments that a command uses. -/
def Command.used : Command → List ℕ
  | .read => [1, 2, 3]
  | .write => [1, 2, 3, 4]
  | .fatls => [1]
  | .fatread => [1]
  | .fatwrite => [1, 2]
  | .getdev => [1]
  | _ => []

/-- The command goes on behind its own check; `fatwrite` does so in any case. -/
def Command.Proceeds (c : Command) (args : List (List Byte)) : Prop :=
  c.rejects args = false ∨ c = .fatwrite

/-- What a command may do outside the line and the history: print, and, if it goes on behind
its own check, use its arguments and carry out operations. -/
inductive Emitted (c : Command) (args : List (List Byte)) : Event → Prop
  | printf (text : String) : Emitted c args (.printf text)
  | splashScreen : Emitted c args .splashScreen
  | notify (channel : ℕ) : Emitted c args (.notify channel)
  | passes (f : Callee) {i : ℕ} (hused : i ∈ c.used) (hproceeds : c.Proceeds args) :
      Emitted c args (.passes f (parsedArg args i))
  | operation {e : Event} (he : e.IsOperation) (hproceeds : c.Proceeds args)
      (htransfer : e.isTransfer = true → c = .read ∨ c = .write) : Emitted c args e

section Emits

variable {σ : Type} {E : Event → Prop}

theorem printf_emits {t : String} (h : E (.printf t)) : Emits E (printf t : Code σ Unit) :=
  .emit (by simpa using h)

theorem resetPrompt_emits (h : ∀ t, E (.printf t)) : Emits E (resetPrompt : Code σ Unit) :=
  printf_emits (h _)

theorem printInvalid_emits {usage : String} (h : ∀ t, E (.printf t)) :
    Emits E (printInvalid usage : Code σ Unit) :=
  .bind (printf_emits (h _)) fun _ => .bind (printf_emits (h _)) fun _ => resetPrompt_emits h

theorem passTo_emits {f : Callee} {arg : Option (List Byte)} (h : E (.passes f arg)) :
    Emits E (passTo f arg : Code σ (List Byte)) := by
  refine .bind (.emit (by simpa using h)) fun _ => ?_
  cases arg with
  | none => exact .stop
  | some s => exact .pure s

theorem atoiArg_emits {arg : Option (List Byte)} (h : E (.passes .atoi arg)) :
    Emits E (atoiArg arg : Code σ (BitVec 32)) :=
  .bind (passTo_emits h) fun _ => .pure _

theorem blksizeOf_emits (devId : BitVec 32) :
    Emits E (blksizeOf devId : Code (Periphery RQ SQ) (BitVec 32)) := by
  refine .bind .get fun d => ?_
  split
  · exact .pure _
  · exact .stop

theorem enqueueRequest_emits {serve : Serve RQ SQ} {call : Call} (h : ∀ e, e.IsOperation → E e) :
    Emits E (enqueueRequest serve call) := by
  refine .bind (.emit (by simpa using h (.enqueueUmassRequest call) trivial)) fun _ =>
    .bind .get fun d => .bind ?_ fun _ => .bind .modify fun _ => ?_
  · refine .emit fun e he => ?_
    obtain ⟨event, -, rfl⟩ := List.mem_map.mp he
    exact h (.api event) trivial
  · split
    · exact .pure _
    · exact .stop
    · exact .stop

theorem strncpyBuffer_emits {val : BitVec 64} {s : List Byte} (h : ∀ e, e.IsOperation → E e) :
    Emits E (strncpyBuffer val s : Code (Periphery RQ SQ) Unit) := by
  refine .bind (.emit (by simpa using h (.copies val s.length) trivial)) fun _ => ?_
  exact .bind (.when fun _ => .stop) fun _ => .modify

end Emits

section Acts

variable (w : World RQ SQ) {args : List (List Byte)}

/-- An argument that a command uses behind its own check. -/
theorem atoiArg_used {σ : Type} {c : Command} {i : ℕ} (hproceeds : c.Proceeds args)
    (hused : i ∈ c.used) :
    Emits (Emitted c args) (atoiArg (parsedArg args i) : Code σ (BitVec 32)) :=
  atoiArg_emits (.passes .atoi hused hproceeds)

theorem readCommand_emits : Emits (Emitted .read args) (readCommand w args) := by
  refine .ite (fun _ => printInvalid_emits .printf) fun hargs => ?_
  have hproceeds : Command.read.Proceeds args := .inl (by simpa using hargs)
  refine .bind (atoiArg_used hproceeds (by decide)) fun blkno => ?_
  refine .bind (atoiArg_used hproceeds (by decide)) fun nblks => ?_
  refine .bind (atoiArg_used hproceeds (by decide)) fun devId => ?_
  refine .bind (blksizeOf_emits devId) fun blksize => .ite (fun _ => ?_) fun _ => ?_
  · refine .bind (.bind (.emit ?_) fun _ => .pure _) fun val => ?_
    · simpa using Emitted.operation (e := .buffer _ _) trivial hproceeds fun _ => .inl rfl
    · exact .bind (atoiArg_used hproceeds (by decide)) fun _ =>
        enqueueRequest_emits fun e he => .operation he hproceeds fun _ => .inl rfl
  · exact .bind (atoiArg_used hproceeds (by decide)) fun _ => printf_emits (.printf _)

theorem writeCommand_emits : Emits (Emitted .write args) (writeCommand w args) := by
  refine .ite (fun _ => printInvalid_emits .printf) fun hargs => ?_
  have hproceeds : Command.write.Proceeds args := .inl (by simpa using hargs)
  refine .bind (atoiArg_used hproceeds (by decide)) fun blkno => ?_
  refine .bind (atoiArg_used hproceeds (by decide)) fun nblks => ?_
  refine .bind (atoiArg_used hproceeds (by decide)) fun devId => ?_
  refine .bind (blksizeOf_emits devId) fun blksize => .ite (fun _ => ?_) fun _ => ?_
  · refine .bind (.bind (.emit ?_) fun _ => .pure _) fun val => ?_
    · simpa using Emitted.operation (e := .buffer _ _) trivial hproceeds fun _ => .inr rfl
    refine .bind (printf_emits (.printf _)) fun _ => ?_
    refine .bind (passTo_emits (.passes .strlen (by decide) hproceeds)) fun _ => ?_
    refine .bind (passTo_emits (.passes .strncpy (by decide) hproceeds)) fun s => ?_
    refine .bind (strncpyBuffer_emits fun e he => .operation he hproceeds fun _ => .inr rfl)
      fun _ => ?_
    exact .bind (atoiArg_used hproceeds (by decide)) fun _ =>
      enqueueRequest_emits fun e he => .operation he hproceeds fun _ => .inr rfl
  · exact .bind (atoiArg_used hproceeds (by decide)) fun _ => printf_emits (.printf _)

/-- Calls of FatFs, and what is printed between them. -/
theorem fatfs_emits {σ : Type} {c : Command} {events : List Event} (hproceeds : c.Proceeds args)
    (h : ∀ e ∈ events, (∃ op, e = .fatfs op) ∨ ∃ t, e = .printf t) :
    Emits (Emitted c args) (emit events : Code σ Unit) := by
  refine .emit fun e he => ?_
  rcases h e he with ⟨op, rfl⟩ | ⟨t, rfl⟩
  · exact .operation trivial hproceeds nofun
  · exact .printf t

theorem passPath_emits {σ : Type} {c : Command} {f : Callee} {i : ℕ} {op : FatOp}
    (hproceeds : c.Proceeds args) (hused : i ∈ c.used) :
    Emits (Emitted c args) (passPath f (parsedArg args i) op : Code σ Unit) := by
  refine .emit fun e he => ?_
  simp only [List.mem_cons, List.not_mem_nil, or_false] at he
  rcases he with rfl | rfl
  · exact .passes f hused hproceeds
  · exact .operation trivial hproceeds Bool.noConfusion

theorem fatlsCommand_emits : Emits (Emitted .fatls args) (fatlsCommand w args) := by
  have hproceeds : Command.fatls.Proceeds args := .inl rfl
  refine .bind (printf_emits (.printf _)) fun _ => .bind (fatfs_emits hproceeds ?_) fun _ =>
    .bind (passPath_emits hproceeds (by decide)) fun _ => .ite (fun _ => ?_) fun _ => ?_
  · simp
  · refine .bind (fatfs_emits hproceeds ?_) fun _ => fatfs_emits hproceeds ?_
    · intro e he
      obtain ⟨entry, -, he⟩ := List.mem_flatMap.mp he
      simp only [List.mem_cons, List.not_mem_nil, or_false] at he
      rcases he with rfl | rfl
      · exact .inl ⟨_, rfl⟩
      · exact .inr ⟨_, rfl⟩
    · simp
  · exact printf_emits (.printf _)

theorem fatreadCommand_emits : Emits (Emitted .fatread args) (fatreadCommand w args) := by
  have hproceeds : Command.fatread.Proceeds args := .inl rfl
  refine .bind (fatfs_emits hproceeds (by simp)) fun _ =>
    .bind (passPath_emits hproceeds (by decide)) fun _ => .ite (fun _ => ?_) fun _ => ?_
  · exact printf_emits (.printf _)
  · refine .bind (printf_emits (.printf _)) fun _ => .bind (fatfs_emits hproceeds ?_) fun _ =>
      .bind (fatfs_emits hproceeds (by simp)) fun _ =>
        printf_emits (.printf _)
    intro e he
    obtain ⟨line, -, he⟩ := List.mem_flatMap.mp he
    simp only [List.mem_cons, List.not_mem_nil, or_false] at he
    rcases he with rfl | rfl
    · exact .inl ⟨_, rfl⟩
    · exact .inr ⟨_, rfl⟩

theorem fatwriteCommand_emits : Emits (Emitted .fatwrite args) (fatwriteCommand w args) := by
  have hproceeds : Command.fatwrite.Proceeds args := .inr rfl
  refine .bind (.when fun _ => printInvalid_emits .printf) fun _ => ?_
  refine .bind (printf_emits (.printf _)) fun _ => ?_
  refine .bind (passTo_emits (.passes .strlen (by decide) hproceeds)) fun _ => ?_
  refine .bind (passTo_emits (.passes .strlen (by decide) hproceeds)) fun _ => ?_
  refine .bind (passTo_emits (.passes .strncpy (by decide) hproceeds)) fun teststr => ?_
  refine .bind (fatfs_emits hproceeds (by simp)) fun _ => ?_
  refine .bind (passPath_emits hproceeds (by decide)) fun _ => ?_
  refine .bind (.when fun _ => printf_emits (.printf _)) fun _ => ?_
  refine .bind (passTo_emits (.passes .strlen (by decide) hproceeds)) fun _ => ?_
  refine .bind (fatfs_emits hproceeds (by simp)) fun _ => ?_
  refine .bind (.when fun _ => printf_emits (.printf _)) fun _ => ?_
  refine .bind (fatfs_emits hproceeds (by simp)) fun _ => ?_
  exact printf_emits (.printf _)

/-- A list of texts is printed. -/
theorem printfs_emits {σ : Type} {c : Command} (texts : List String) :
    Emits (Emitted c args) (emit (texts.map .printf) : Code σ Unit) := by
  refine .emit fun e he => ?_
  obtain ⟨t, -, rfl⟩ := List.mem_map.mp he
  exact .printf t

theorem getdevCommand_emits :
    Emits (Emitted .getdev args) (getdevCommand args : Code (Periphery RQ SQ) Unit) := by
  refine .bind (atoiArg_used (.inl rfl) (by decide)) fun devId => .bind .get fun d => ?_
  split
  · exact printfs_emits _
  · exact .stop

theorem lsdevCommand_emits :
    Emits (Emitted .lsdev args) (lsdevCommand : Code (Periphery RQ SQ) Unit) := by
  refine .bind .get fun d => ?_
  split
  · exact printfs_emits _
  · exact .stop

theorem disableCommand_emits :
    Emits (Emitted .disable args) (disableCommand : Code (Periphery RQ SQ) Unit) :=
  .bind .get fun _ => .ite (fun _ => .bind .modify fun _ => printf_emits (.printf _)) fun _ =>
    .bind .modify fun _ => printf_emits (.printf _)

theorem snakeCommand_emits : Emits (Emitted .snake args) (snakeCommand w) :=
  .bind .modify fun _ => .bind (printf_emits (.printf _)) fun _ => .bind .modify fun _ =>
    .emit (by simpa using .notify SNAKE_NOTIFY)

theorem help_emits {σ : Type} : Emits (Emitted .help args) (help : Code σ Unit) := by
  refine .bind (.emit fun e he => ?_) fun _ => resetPrompt_emits .printf
  obtain ⟨entry, -, rfl⟩ := List.mem_map.mp he
  exact .printf _

/-- What a command does outside the line and the history. -/
theorem act_emits (args : List (List Byte)) (c : Command) :
    Emits (Emitted c args) (c.act w args) := by
  cases c with
  | init =>
    exact .bind (.emit (by simpa using .splashScreen)) fun _ => .bind .modify fun _ =>
      resetPrompt_emits .printf
  | disable => exact disableCommand_emits
  | read => exact readCommand_emits w
  | write => exact writeCommand_emits w
  | fatls => exact fatlsCommand_emits w
  | fatread => exact fatreadCommand_emits w
  | fatwrite => exact fatwriteCommand_emits w
  | snake => exact snakeCommand_emits w
  | getdev => exact getdevCommand_emits
  | lsdev => exact lsdevCommand_emits
  | help => exact help_emits
  | unknown => exact printf_emits (.printf _)
  | history => exact .pure ()
  | mousetest => exact .modify
  | utstest => exact .modify
  | kbdtest => exact .modify

end Acts

/-! ## How a line is prepared -/

/-- The line with its terminator. -/
def terminated (e : Editor) : Editor := { e with cmd := e.cmd.store e.cmdLen 0#8 }

/-- The line that is handed to the parser. -/
def typedLine (e : Editor) : List Byte := string (terminated e).cmd.bytes

/-- What `parsedArgs` points to behind `split`. -/
def lineArgs (e : Editor) : List (List Byte) := (lineWords (typedLine e)).take ARGMAX

/-- The local copy of the line. -/
def keptCopy (stack : Memory HIST_SIZE) (e : Editor) : Memory HIST_SIZE :=
  stack.fill (typedLine e)

/-- The shell when the command is selected. -/
def prepared (s : ShellState RQ SQ) : ShellState RQ SQ :=
  { s with
    cmd := splitMemory (terminated s.toEditor).cmd ARGMAX
    upcoming := fun n => s.upcoming (n + 1) }

/-- What happens before a command is selected: the terminator is written, the line is copied,
and it is cut into words. -/
def preparation (e : Editor) : List Event :=
  let n := (typedLine e).length
  let r := split (terminated e).cmd.bytes ARGMAX
  Event.cmd e.cmdLen :: (touches (n + 1) ++ touches n ++ histStores n) ++
    Event.split (terminated e).cmd.bytes :: (touches r.examined ++ wordAccesses r)

/-- The preparation stays in the line and its copy. -/
inductive Prepares (e : Editor) : Event → Prop
  | terminator : Prepares e (.cmd e.cmdLen)
  | cmd {i : ℕ} (hi : i ≤ (typedLine e).length) : Prepares e (.cmd i)
  | hist {i : ℕ} (hi : i < (typedLine e).length) : Prepares e (.hist i)
  | split : Prepares e (.split (terminated e).cmd.bytes)

/-- The copy is as long as the line, whatever the size of its array. -/
theorem hist_mem_preparation {e : Editor} {i : ℕ} (hi : i < (typedLine e).length) :
    .hist i ∈ preparation e := by
  refine List.mem_append_left _ <| List.mem_cons_of_mem _ <| List.mem_append_right _ ?_
  exact List.mem_map_of_mem (List.mem_range.mpr hi)

theorem prepares_of_mem {e : Editor} {event : Event} (h : event ∈ preparation e) :
    Prepares e event := by
  obtain ⟨-, -, -, -, -, -, hexamined, -⟩ := split_frame (terminated e).cmd.bytes ARGMAX
  have htouches : ∀ n ≤ (typedLine e).length + 1, event ∈ touches n → Prepares e event := by
    intro n hn hevent
    obtain ⟨i, hi, rfl⟩ := mem_touches.mp hevent
    exact .cmd (by omega)
  simp only [preparation, List.cons_append, List.mem_cons, List.mem_append, or_assoc] at h
  rcases h with rfl | h | h | h | rfl | h | h
  · exact .terminator
  · exact htouches _ le_rfl h
  · exact htouches _ (Nat.le_succ _) h
  · obtain ⟨i, hi, rfl⟩ := List.mem_map.mp h
    exact .hist (List.mem_range.mp hi)
  · exact .split
  · exact htouches _ hexamined h
  · -- A word ends where the line ends, at the latest.
    obtain ⟨start, hstart, h⟩ := List.mem_flatMap.mp h
    obtain ⟨i, hi, rfl⟩ := List.mem_map.mp h
    have hword := strlen_drop_split hstart
    have hlt := List.mem_range.mp hi
    have hline : start + i ≤ (typedLine e).length := (by omega : _ ≤ strlen _)
    exact .cmd hline

theorem copyLine_run (stack : Memory HIST_SIZE) (e : Editor) :
    copyLine stack e = ⟨.ok (stack.fill (string e.cmd.bytes)),
      touches (strlen e.cmd.bytes + 1) ++ touches (strlen e.cmd.bytes) ++
        histStores (strlen e.cmd.bytes), e⟩ := by
  have hrun : copyLine stack e = ⟨.ok (stack.fill (copied e.cmd.bytes (strlen e.cmd.bytes))),
      [] ++ (touches (strlen e.cmd.bytes + 1) ++ []) ++ (touches (strlen e.cmd.bytes) ++
        (histStores (strlen e.cmd.bytes) ++ ([] ++ []))), e⟩ := rfl
  rw [hrun, copied_strlen]
  simp only [List.nil_append, List.append_nil, List.append_assoc]

theorem splitLine_run (e : Editor) :
    splitLine e = ⟨.ok ((lineWords (string e.cmd.bytes)).take ARGMAX),
      Event.split e.cmd.bytes :: (touches (split e.cmd.bytes ARGMAX).examined ++
        wordAccesses (split e.cmd.bytes ARGMAX)),
      { e with cmd := splitMemory e.cmd ARGMAX }⟩ := by
  have hrun : splitLine e = ⟨.ok (split e.cmd.bytes ARGMAX).strings,
      [] ++ ([Event.split e.cmd.bytes] ++ (touches (split e.cmd.bytes ARGMAX).examined ++
        ([] ++ (wordAccesses (split e.cmd.bytes ARGMAX) ++ [])))),
      { e with cmd := splitMemory e.cmd ARGMAX }⟩ := rfl
  rw [hrun, split_strings]
  simp only [List.nil_append, List.append_nil, List.singleton_append]

/-- A line that is not empty is prepared in the same way whatever command it selects. -/
theorem decodeCommand_eq {s : ShellState RQ SQ} (h : 0 < s.cmdLen) :
    decodeCommand s =
      ((passTo .strcmp (parsedArg (lineArgs s.toEditor) 0) >>= fun word =>
        runCommand (s.upcoming 0) (lineArgs s.toEditor)
          (keptCopy (s.upcoming 0).stack s.toEditor) (commandOf word))
        (prepared s)).after (preparation s.toEditor) := by
  have hworld : nextWorld s = ⟨.ok (s.upcoming 0), [],
      { s with upcoming := fun n => s.upcoming (n + 1) }⟩ := rfl
  have hwrite : onEditor (writeCmd s.cmdLen 0#8)
        { s with upcoming := fun n => s.upcoming (n + 1) } =
      ⟨.ok (), [Event.cmd s.cmdLen], { s with
        toEditor := terminated s.toEditor, upcoming := fun n => s.upcoming (n + 1) }⟩ := rfl
  unfold decodeCommand
  rw [bind_ok (get_run s), if_pos h, bind_ok hworld, bind_ok hwrite,
    bind_ok (onEditor_run (copyLine_run _ _)), bind_ok (onEditor_run (splitLine_run _))]
  simp only [after_after, List.nil_append]
  rfl

/-- The first word is compared with the names of the commands. -/
theorem decodeCommand_some {s : ShellState RQ SQ} (h : 0 < s.cmdLen) {word : List Byte}
    (hword : parsedArg (lineArgs s.toEditor) 0 = some word) :
    decodeCommand s =
      (runCommand (s.upcoming 0) (lineArgs s.toEditor)
        (keptCopy (s.upcoming 0).stack s.toEditor) (commandOf word) (prepared s)).after
        (preparation s.toEditor ++ [.passes .strcmp (some word)]) := by
  have hpass : (passTo .strcmp (some word) : Code (ShellState RQ SQ) (List Byte)) (prepared s) =
      ⟨.ok word, [.passes .strcmp (some word)], prepared s⟩ := rfl
  rw [decodeCommand_eq h, hword, bind_ok hpass, after_after]

/-- A line without words has no first word to compare. -/
theorem decodeCommand_none {s : ShellState RQ SQ} (h : 0 < s.cmdLen)
    (hnone : parsedArg (lineArgs s.toEditor) 0 = none) :
    decodeCommand s = ⟨.error .fault, preparation s.toEditor ++ [.passes .strcmp none],
      prepared s⟩ := by
  have hpass : (passTo .strcmp none : Code (ShellState RQ SQ) (List Byte)) (prepared s) =
      ⟨.error .fault, [.passes .strcmp none], prepared s⟩ := rfl
  rw [decodeCommand_eq h, hnone, bind_error hpass]
  rfl

/-- Without a line there is nothing but a new prompt. -/
theorem decodeCommand_empty {s : ShellState RQ SQ} (h : ¬ 0 < s.cmdLen) :
    decodeCommand s =
      ⟨.ok (), [.printf ("\n" ++ prompt)], { s with cursorIndex := 0, cmdLen := 0 }⟩ := by
  unfold decodeCommand
  rw [bind_ok (get_run s), if_neg h]
  rfl

section Word

variable {e : Editor} {word : List Byte}

/-- A line with a word in it is not empty. -/
theorem typedLine_ne_nil (hword : parsedArg (lineArgs e) 0 = some word) :
    typedLine e ≠ [] := by
  intro hnil
  rw [lineArgs, hnil] at hword
  cases hword

/-- Nor is its local copy. -/
theorem strlen_keptCopy_ne_zero (stack : Memory HIST_SIZE)
    (hword : parsedArg (lineArgs e) 0 = some word) : strlen (keptCopy stack e).bytes ≠ 0 := by
  have hline := typedLine_ne_nil hword
  have hstack := stack.bytes_ne_nil (by decide)
  rw [ne_eq, strlen_eq_zero_iff, keptCopy, Memory.fill_bytes, head?_overwrite hstack hline]
  intro hnul
  obtain ⟨b, line, hcons⟩ := List.exists_cons_of_ne_nil hline
  have hb : b = 0#8 := hnul b (by rw [hcons]; rfl)
  apply nul_notMem_string (terminated e).cmd.bytes
  change 0#8 ∈ typedLine e
  rw [hcons, hb]
  exact List.mem_cons_self

end Word

/-! ## How a line ends -/

/-- The history with one more entry. -/
def History.enter (h : History) (entry : List Byte) : History :=
  { h.put (h.cmdHist + 1) (some entry) with
    cmdHist := h.cmdHist + 1
    cmdHistCursor := h.cmdHist + 1 + 1 }

/-- The editor with a cleared line. -/
def Editor.cleared (e : Editor) : Editor := ⟨e.cmd.fill nuls, 0, 0⟩

/-- The entry that the local copy becomes, in the block `block`. -/
def entryOf (block : List Byte) (hist : Memory HIST_SIZE) : List Byte :=
  strncpy block hist.bytes (strlen hist.bytes)

/-- `strncpy` follows the null pointer of a failed `malloc`. -/
theorem enterHistory_none {hist : Memory HIST_SIZE} (hne : strlen hist.bytes ≠ 0) (h : History) :
    ∃ h', enterHistory none hist h = ⟨.error .fault, [], h'⟩ := by
  have hstop : (when (strlen hist.bytes ≠ 0) (stop .fault) : Code History Unit) = stop .fault :=
    if_pos hne
  refine ⟨({ h with cmdHist := h.cmdHist + 1 } : History).put (h.cmdHist + 1) none, ?_⟩
  unfold enterHistory
  simp only [hstop]
  rfl

/-- The editor and the history are as given. -/
def HasLine (e : Editor) (h : History) (s : ShellState RQ SQ) : Prop :=
  s.toEditor = e ∧ s.toHistory = h

/-- The copy `hist` of the line has become an entry, in the block that `malloc` has returned. -/
def Entered (w : World RQ SQ) (hist : Memory HIST_SIZE) (h h' : History) : Prop :=
  ∃ block, w.entry = some block ∧ h' = h.enter (entryOf block hist)

/-- What a command leaves of the line and the history when it returns. Two commands leave by
themselves and do less than the others. -/
def Ending (c : Command) (w : World RQ SQ) (hist : Memory HIST_SIZE) (e : Editor) (h : History)
    (t : ShellState RQ SQ) : Prop :=
  match c with
  | .mousetest =>
    HasLine { e with cursorIndex := 0, cmdLen := 0 } { h with cmdHist := h.cmdHist + 1 } t
  | .kbdtest => HasLine e h t
  | _ => t.toEditor = e.cleared ∧ Entered w hist h t.toHistory

theorem Ending.common {c : Command} {w : World RQ SQ} {hist : Memory HIST_SIZE} {e : Editor}
    {h : History} {t : ShellState RQ SQ} (hending : Ending c w hist e h t) (hmouse : c ≠ .mousetest)
    (hkbd : c ≠ .kbdtest) : t.toEditor = e.cleared ∧ Entered w hist h t.toHistory := by
  cases c <;> first | exact hending | contradiction

/-- What happens once a command is selected: the command acts, one command looks through the
history, and the line is cleared. -/
inductive CommandEvent (c : Command) (args : List (List Byte)) (h : History) : Event → Prop
  | acts {e : Event} (he : Emitted c args e) : CommandEvent c args h e
  | slot (i : ℕ) (hc : c = .history) (hi : (i : ℤ) < h.cmdHist) :
      CommandEvent c args h (.slot i (h.slot i))
  | clears {i : ℕ} (hi : i < CMD_LIMIT) : CommandEvent c args h (.cmd i)

section Ends

variable {w : World RQ SQ} {args : List (List Byte)} {hist : Memory HIST_SIZE} {e : Editor}
  {h : History} {c : Command}

theorem runCommand_of_common (hmouse : c ≠ .mousetest) (huts : c ≠ .utstest)
    (hkbd : c ≠ .kbdtest) :
    runCommand w args hist c = (do
      carryOut w args c
      commonEnd w hist
      resetPrompt
      onEditor resetLine) := by
  cases c <;> first | rfl | contradiction

theorem CommandEvent.printf (text : String) : CommandEvent c args h (.printf text) :=
  .acts (.printf text)

theorem onPeriphery_keeps {p : Code (Periphery RQ SQ) Unit} (hp : Emits (Emitted c args) p) :
    Ensures (HasLine e h) (onPeriphery p) (fun _ => HasLine e h) (CommandEvent c args h) :=
  fun s hs => ⟨fun event he => .acts (hp s.toPeriphery event he), fun _ _ => hs⟩

theorem historyCommand_keeps :
    Ensures (HasLine e h) (historyCommand : Code (ShellState RQ SQ) Unit) (fun _ => HasLine e h)
      (CommandEvent .history args h) := by
  rintro s ⟨he, hh⟩
  refine ⟨fun event hevent => ?_, fun _ _ => ⟨he, hh⟩⟩
  rcases mem_bind_events.mp hevent with hnone | ⟨s', hs', hevent⟩
  · cases hnone
  obtain rfl := Except.ok.inj hs'
  rcases mem_bind_events.mp hevent with hprint | ⟨-, -, hevent⟩
  · obtain rfl := List.mem_singleton.mp hprint
    exact .printf _
  obtain ⟨i, hi, hevent⟩ := List.mem_flatMap.mp hevent
  simp only [List.mem_cons, List.not_mem_nil, or_false] at hevent
  rcases hevent with rfl | rfl
  · have hlt := List.mem_range.mp hi
    have hslot : s.slot = h.slot := by rw [hh]
    have hcmd : s.cmdHist = h.cmdHist := by rw [hh]
    rw [hslot]
    exact .slot i rfl (by omega)
  · exact .printf _

theorem carryOut_keeps (c : Command) :
    Ensures (HasLine e h) (carryOut w args c) (fun _ => HasLine e h) (CommandEvent c args h) := by
  unfold carryOut
  split_ifs with hhistory
  · subst hhistory
    exact historyCommand_keeps
  · exact onPeriphery_keeps (act_emits w args c)

/-- The common end enters the copy in the history and clears the line. -/
theorem commonEnd_ensures (hne : strlen hist.bytes ≠ 0) :
    Ensures (HasLine e h) (commonEnd w hist)
      (fun _ t => t.toEditor = { e with cmd := e.cmd.fill nuls } ∧
        Entered w hist h t.toHistory) (CommandEvent c args h) := by
  have henter : Ensures (· = h) (enterHistory w.entry hist) (fun _ h' => Entered w hist h h')
      (CommandEvent c args h) := by
    rintro _ rfl
    -- Without a block the copy follows a null pointer, so there is nothing to show.
    cases hentry : w.entry with
    | some block => exact ⟨nofun, fun _ _ => ⟨block, hentry, rfl⟩⟩
    | none =>
      obtain ⟨h', hrun⟩ := enterHistory_none hne _
      rw [hrun]
      exact ⟨nofun, nofun⟩
  have hclear : Ensures (· = e) (fillCmd nuls)
      (fun _ e' => e' = { e with cmd := e.cmd.fill nuls })
      (CommandEvent c args h) := by
    rintro _ rfl
    rw [fillCmd_run, length_nuls]
    refine ⟨fun event hevent => ?_, fun _ _ => rfl⟩
    dsimp only at hevent
    obtain ⟨i, hi, rfl⟩ := mem_touches.mp hevent
    exact .clears hi
  refine .bind (henter.focus (R := fun _ t => t.toEditor = e ∧ Entered w hist h t.toHistory)
    (fun _ hs => hs.2) fun s _ h' hs hh => ⟨hs.1, hh⟩) fun _ => ?_
  refine .bind (hclear.focus (R := fun _ t => t.toEditor = { e with cmd := e.cmd.fill nuls } ∧
    Entered w hist h t.toHistory) (fun _ hs => hs.1) fun s _ e' hs he => ⟨he, hs.2⟩) fun _ => ?_
  refine .emit (fun event hevent => ?_) fun _ hs => hs
  obtain rfl := List.mem_singleton.mp hevent
  exact .printf _

/-- What a selected command does to the line and the history, and what happens meanwhile. -/
theorem runCommand_ensures (w : World RQ SQ) (args : List (List Byte))
    (hne : strlen hist.bytes ≠ 0) (c : Command) :
    Ensures (HasLine e h) (runCommand w args hist c) (fun _ => Ending c w hist e h)
      (CommandEvent c args h) := by
  have hreset : ∀ {e' : Editor} {P : History → Prop},
      Ensures (fun t : ShellState RQ SQ => t.toEditor = e' ∧ P t.toHistory) (onEditor resetLine)
        (fun _ t => t.toEditor = { e' with cursorIndex := 0, cmdLen := 0 } ∧ P t.toHistory)
        (CommandEvent c args h) := by
    rintro e' P s ⟨rfl, hP⟩
    exact ⟨nofun, fun _ _ => ⟨rfl, hP⟩⟩
  have hprints : ∀ {σ : Type} {P : σ → Prop} (texts : List String),
      Ensures P (emit (texts.map .printf) : Code σ Unit) (fun _ => P) (CommandEvent c args h) := by
    intro σ P texts
    refine .emit (fun event hevent => ?_) fun _ hs => hs
    obtain ⟨t, -, rfl⟩ := List.mem_map.mp hevent
    exact .printf t
  -- `mousetest` and `kbdtest` return by themselves, before the common end.
  by_cases hmouse : c = .mousetest
  · subst hmouse
    refine .bind (onPeriphery_keeps (act_emits w args _)) fun _ => ?_
    refine .bind (Q := fun _ => HasLine e { h with cmdHist := h.cmdHist + 1 }) ?_ fun _ => ?_
    · rintro s ⟨he, rfl⟩
      exact ⟨nofun, fun _ _ => ⟨he, rfl⟩⟩
    exact .bind (hprints ["\n"]) fun _ =>
      .bind (hreset (P := (· = { h with cmdHist := h.cmdHist + 1 }))) fun _ => hprints _
  by_cases hkbd : c = .kbdtest
  · subst hkbd
    exact .bind (hprints ["\n"]) fun _ => onPeriphery_keeps (act_emits w args _)
  have hending : ∀ t : ShellState RQ SQ, t.toEditor = e.cleared ∧ Entered w hist h t.toHistory →
      Ending c w hist e h t := by
    intro t ht
    cases c <;> first | exact ht | contradiction
  -- `utstest` has the common end, but no new prompt.
  by_cases huts : c = .utstest
  · subst huts
    refine .bind (onPeriphery_keeps (act_emits w args _)) fun _ =>
      .bind (commonEnd_ensures hne) fun _ => .bind hreset fun _ => hprints _
  · rw [runCommand_of_common hmouse huts hkbd]
    exact .bind (carryOut_keeps c) fun _ => .bind (commonEnd_ensures hne) fun _ =>
      .bind (hprints ["\n" ++ prompt]) fun _ => hreset.mono (fun _ hs => hs)
        (fun _ => hending) fun _ he => he

end Ends

/-! ## What a line does -/

/-- What happens when Return is pressed. -/
inductive LineEvent (s : ShellState RQ SQ) : Event → Prop
  | prompt : LineEvent s (.printf ("\n" ++ prompt))
  | prepares {e : Event} (hlen : 0 < s.cmdLen) (he : Prepares s.toEditor e) : LineEvent s e
  | compares (hlen : 0 < s.cmdLen) :
      LineEvent s (.passes .strcmp (parsedArg (lineArgs s.toEditor) 0))
  | runs {e : Event} {word : List Byte} (hlen : 0 < s.cmdLen)
      (hword : parsedArg (lineArgs s.toEditor) 0 = some word)
      (he : CommandEvent (commandOf word) (lineArgs s.toEditor) s.toHistory e) : LineEvent s e

theorem lineEvent_of_mem {s : ShellState RQ SQ} {e : Event} (he : e ∈ (decodeCommand s).events) :
    LineEvent s e := by
  by_cases hlen : 0 < s.cmdLen
  case neg =>
    rw [decodeCommand_empty hlen] at he
    rw [List.mem_singleton.mp he]
    exact .prompt
  -- What comes before the comparison is the same with and without a word.
  cases hword : parsedArg (lineArgs s.toEditor) 0 with
  | none =>
    rw [decodeCommand_none hlen hword] at he
    rcases List.mem_append.mp he with he | he
    · exact .prepares hlen (prepares_of_mem he)
    · rw [List.mem_singleton.mp he, ← hword]
      exact .compares hlen
  | some word =>
    rw [decodeCommand_some hlen hword] at he
    rcases List.mem_append.mp he with he | he
    · rcases List.mem_append.mp he with he | he
      · exact .prepares hlen (prepares_of_mem he)
      · rw [List.mem_singleton.mp he, ← hword]
        exact .compares hlen
    · exact .runs hlen hword ((runCommand_ensures _ _ (strlen_keptCopy_ne_zero _ hword)
        (commandOf word) (prepared s) ⟨rfl, rfl⟩).1 e he)

end Sel4Xhci.Shell
