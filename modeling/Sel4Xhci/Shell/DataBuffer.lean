import Sel4Xhci.Disk.Transfer
import Sel4Xhci.Shell.CommandLine

/-!
# The buffers of raw transfers

`read` and `write` allocate a buffer for the blocks they are asked for. Its size is an `int`
product of the block size of the device and a number that the user has typed; the driver sees
the low 16 bits of that number; and the text that `write` copies is as long as it is. The
commands reconcile none of the three, and do not look at what `malloc` returns.

## Main definitions

* `Asks`, `Transfer` — what a line asks for that is carried out
* `BuffersFit` — every text that is copied and every request has a buffer that is large enough

## Main results

* `transfers_of_asks`, `exists_asks` — what a line does with data buffers
* `buffersFit_iff` — which lines keep to their buffers
-/

set_option autoImplicit false

namespace Sel4Xhci.Shell

open Semantics Semantics.CString Semantics.Program Umass Devices Disk

variable {RQ : Fifo BlkReq} {SQ : Fifo Answer}

/-- What `read dev blk n` or `write dev blk n text` asks for. -/
structure Transfer where
  read : Bool
  devId : BitVec 32
  blkno : BitVec 32
  nblks : BitVec 32
  blksize : BitVec 32
  text : Option (List Byte)
  deriving DecidableEq, Repr

/-- The size of the buffer that is allocated. -/
def Transfer.size (t : Transfer) : BitVec 64 := bufferSize t.blksize t.nblks

/-- The number of bytes that the driver moves: it sees 16 bits of the number of blocks. -/
def Transfer.bytes (t : Transfer) : ℕ := t.blksize.toNat * (t.nblks.setWidth 16).toNat

/-- There is a buffer, and all that goes there has room in it. -/
structure Transfer.Fits (malloc : BitVec 64 → BitVec 64) (t : Transfer) : Prop where
  allocated : malloc t.size ≠ 0#64
  blocks : t.bytes ≤ t.size.toNat
  text : ∀ text ∈ t.text, text.length ≤ t.size.toNat

/-- A line is an accepted `read` or `write` of a device with a positive block size. -/
inductive Asks (s : ShellState RQ SQ) : Transfer → Prop
  | read {word dev blkno nblks : List Byte} {blksize : BitVec 32} (hlen : 0 < s.cmdLen)
      (hargs : lineArgs s.toEditor = [word, dev, blkno, nblks]) (hword : commandOf word = .read)
      (hblksize : getBlksize s.registry (atoi dev) = some blksize) (hpos : 0 < blksize.toInt) :
      Asks s ⟨true, atoi dev, atoi blkno, atoi nblks, blksize, none⟩
  | write {word dev blkno nblks text : List Byte} {blksize : BitVec 32} (hlen : 0 < s.cmdLen)
      (hargs : lineArgs s.toEditor = [word, dev, blkno, nblks, text])
      (hword : commandOf word = .write)
      (hblksize : getBlksize s.registry (atoi dev) = some blksize) (hpos : 0 < blksize.toInt) :
      Asks s ⟨false, atoi dev, atoi blkno, atoi nblks, blksize, some text⟩

/-- Whatever is copied goes to a buffer that is large enough, and so does whatever the driver
is asked to move. -/
structure BuffersFit (s : ShellState RQ SQ) : Prop where
  requests : ∀ call, .enqueueUmassRequest call ∈ (decodeCommand s).events →
    ∃ size blksize, .buffer size call.val ∈ (decodeCommand s).events ∧ call.val ≠ 0#64 ∧
      getBlksize s.registry call.devId = some blksize ∧
      blockBytes blksize.toNat (callOp call) ≤ size.toNat
  texts : ∀ val n, .copies val n ∈ (decodeCommand s).events →
    ∃ size, .buffer size val ∈ (decodeCommand s).events ∧ val ≠ 0#64 ∧ n ≤ size.toNat

/-! ## What a line does with data buffers -/

/-- What `decode_command` does with data buffers. -/
def transfers (s : ShellState RQ SQ) : List Event :=
  (decodeCommand s).events.filter Event.isTransfer

/-- The request of an accepted line. -/
def Transfer.call (w : World RQ SQ) (t : Transfer) : Call where
  devId := t.devId
  read := t.read
  blkno := t.blkno
  nblks := t.nblks
  val := w.buffer t.size
  cb := if t.read then w.printBlocks else w.writeComplete

/-- What an accepted line does with its buffer. `strncpy` to a null pointer faults. -/
def Transfer.events (w : World RQ SQ) (t : Transfer) : List Event :=
  Event.buffer t.size (w.buffer t.size) ::
    match t.text with
    | none => [.enqueueUmassRequest (t.call w)]
    | some text => Event.copies (w.buffer t.size) text.length ::
        if w.buffer t.size = 0#64 ∧ text ≠ [] then [] else [.enqueueUmassRequest (t.call w)]

section Commands

variable (w : World RQ SQ) (d : Periphery RQ SQ) {word dev blkno nblks text : List Byte}

theorem blksizeOf_eq (devId : BitVec 32) :
    blksizeOf devId d = match getBlksize d.registry devId with
      | some blksize => ⟨.ok blksize, [], d⟩
      | none => ⟨.error .fault, [], d⟩ := by
  unfold blksizeOf
  rw [bind_ok (get_run d)]
  cases getBlksize d.registry devId <;> rfl

theorem mallocBuffer_run (size : BitVec 64) :
    mallocBuffer w size d = ⟨.ok (w.buffer size), [.buffer size (w.buffer size)], d⟩ := rfl

/-- Only the call itself is about the buffer, not what the API does then. -/
theorem enqueueRequest_transfers (serve : Serve RQ SQ) (call : Call) :
    (enqueueRequest serve call d).events.filter Event.isTransfer =
      [.enqueueUmassRequest call] := by
  unfold enqueueRequest
  rw [filter_bind fun _ => .bind .get fun d => .bind (.emit ?_) fun _ => .bind .modify fun _ => ?_]
  · rfl
  · intro e he
    obtain ⟨event, -, rfl⟩ := List.mem_map.mp he
    rfl
  · split
    · exact .pure _
    · exact .stop
    · exact .stop

theorem readCommand_transfers :
    (readCommand w [word, dev, blkno, nblks] d).events.filter Event.isTransfer =
      match getBlksize d.registry (atoi dev) with
      | none => []
      | some blksize => if 0 < blksize.toInt then
          Transfer.events w ⟨true, atoi dev, atoi blkno, atoi nblks, blksize, none⟩ else [] := by
  have hblkno : atoiArg (parsedArg [word, dev, blkno, nblks] 2) d =
      ⟨.ok (atoi blkno), [.passes .atoi (some blkno)], d⟩ := rfl
  have hnblks : atoiArg (parsedArg [word, dev, blkno, nblks] 3) d =
      ⟨.ok (atoi nblks), [.passes .atoi (some nblks)], d⟩ := rfl
  have hdev : atoiArg (parsedArg [word, dev, blkno, nblks] 1) d =
      ⟨.ok (atoi dev), [.passes .atoi (some dev)], d⟩ := rfl
  unfold readCommand
  rw [if_neg (by simp [Command.rejects]), bind_ok hblkno, filter_after rfl, bind_ok hnblks,
    filter_after rfl,
    bind_ok hdev, filter_after rfl]
  have hblksize := blksizeOf_eq d (atoi dev)
  cases hget : getBlksize d.registry (atoi dev) with
  | none =>
    rw [hget] at hblksize
    rw [bind_error hblksize]
    rfl
  | some blksize =>
    rw [hget] at hblksize
    rw [bind_ok hblksize, filter_after rfl]
    dsimp only
    split_ifs with hpos
    · rw [bind_ok (mallocBuffer_run w d _), Outcome.after, List.filter_append, bind_ok hdev,
        filter_after rfl, enqueueRequest_transfers]
      rfl
    · rw [bind_ok hdev, filter_after rfl]
      rfl

theorem strncpyBuffer_run (val : BitVec 64) (text : List Byte) :
    ∃ d', strncpyBuffer val text d = if val = 0#64 ∧ text ≠ [] then
      ⟨.error .fault, [.copies val text.length], d⟩ else
      ⟨.ok (), [.copies val text.length], d'⟩ := by
  have hcopies : (emit [Event.copies val text.length] : Code (Periphery RQ SQ) Unit) d =
      ⟨.ok (), [.copies val text.length], d⟩ := rfl
  refine ⟨{ d with shared.heap := storeAt d.shared.heap val text }, ?_⟩
  unfold strncpyBuffer
  rw [bind_ok hcopies]
  split_ifs with hnull
  · rw [show when (val = 0#64 ∧ text ≠ []) (stop .fault) =
      (stop .fault : Code (Periphery RQ SQ) Unit) from if_pos hnull]
    rfl
  · rw [show when (val = 0#64 ∧ text ≠ []) (stop .fault) =
      (pure () : Code (Periphery RQ SQ) Unit) from if_neg hnull]
    rfl

theorem writeCommand_transfers :
    (writeCommand w [word, dev, blkno, nblks, text] d).events.filter Event.isTransfer =
      match getBlksize d.registry (atoi dev) with
      | none => []
      | some blksize => if 0 < blksize.toInt then
          Transfer.events w ⟨false, atoi dev, atoi blkno, atoi nblks, blksize, some text⟩
        else [] := by
  have hblkno : atoiArg (parsedArg [word, dev, blkno, nblks, text] 2) d =
      ⟨.ok (atoi blkno), [.passes .atoi (some blkno)], d⟩ := rfl
  have hnblks : atoiArg (parsedArg [word, dev, blkno, nblks, text] 3) d =
      ⟨.ok (atoi nblks), [.passes .atoi (some nblks)], d⟩ := rfl
  have hdev : ∀ d : Periphery RQ SQ, atoiArg (parsedArg [word, dev, blkno, nblks, text] 1) d =
      ⟨.ok (atoi dev), [.passes .atoi (some dev)], d⟩ := fun _ => rfl
  have htext : ∀ f, passTo f (parsedArg [word, dev, blkno, nblks, text] 4) d =
      ⟨.ok text, [.passes f (some text)], d⟩ := fun _ => rfl
  unfold writeCommand
  rw [if_neg (by simp [Command.rejects]), bind_ok hblkno, filter_after rfl, bind_ok hnblks,
    filter_after rfl, bind_ok (hdev d), filter_after rfl]
  have hblksize := blksizeOf_eq d (atoi dev)
  -- Everything up to the buffer is no part of the transfer.
  cases hget : getBlksize d.registry (atoi dev) with
  | none =>
    rw [hget] at hblksize
    rw [bind_error hblksize]
    rfl
  | some blksize =>
    rw [hget] at hblksize
    rw [bind_ok hblksize, filter_after rfl]
    dsimp only
    split_ifs with hpos
    · let size := bufferSize blksize (atoi nblks)
      have hprint : (printf ("size of write " ++ Format.decimal (blksize * atoi nblks) ++ "\n") :
          Code (Periphery RQ SQ) Unit) d = ⟨.ok (), [.printf _], d⟩ := rfl
      rw [bind_ok (mallocBuffer_run w d size), Outcome.after, List.filter_append, bind_ok hprint,
        filter_after rfl, bind_ok (htext .strlen), filter_after rfl, bind_ok (htext .strncpy),
        filter_after rfl]
      obtain ⟨d', hcopy⟩ := strncpyBuffer_run d (w.buffer size) text
      by_cases hnull : w.buffer size = 0#64 ∧ text ≠ []
      · rw [if_pos hnull] at hcopy
        rw [bind_error hcopy]
        exact congrArg (fun l => Event.buffer _ _ :: Event.copies _ _ :: l) (if_pos hnull).symm
      · rw [if_neg hnull] at hcopy
        rw [bind_ok hcopy, Outcome.after, List.filter_append, bind_ok (hdev d'), filter_after rfl,
          enqueueRequest_transfers]
        exact congrArg (fun l => Event.buffer _ _ :: Event.copies _ _ :: l) (if_neg hnull).symm
    · rw [bind_ok (hdev d), filter_after rfl]
      rfl

end Commands

section Line

variable {s : ShellState RQ SQ} {args : List (List Byte)} {t : Transfer}

theorem read_accepts (h : Command.read.rejects args = false) :
    ∃ word dev blkno nblks, args = [word, dev, blkno, nblks] := by
  rcases args with _ | ⟨word, _ | ⟨dev, _ | ⟨blkno, _ | ⟨nblks, _ | ⟨more, rest⟩⟩⟩⟩⟩
  case cons.cons.cons.cons.nil => exact ⟨word, dev, blkno, nblks, rfl⟩
  all_goals simp [Command.rejects] at h

theorem write_accepts (h : Command.write.rejects args = false) :
    ∃ word dev blkno nblks text, args = [word, dev, blkno, nblks, text] := by
  rcases args with
    _ | ⟨word, _ | ⟨dev, _ | ⟨blkno, _ | ⟨nblks, _ | ⟨text, _ | ⟨more, rest⟩⟩⟩⟩⟩⟩
  case cons.cons.cons.cons.cons.nil => exact ⟨word, dev, blkno, nblks, text, rfl⟩
  all_goals simp [Command.rejects] at h

/-- The common end is not about data buffers. -/
theorem commonEnd_emits (w : World RQ SQ) (hist : Memory HIST_SIZE) :
    Emits (fun e => e.isTransfer = false) (commonEnd w hist) := by
  have henter : Emits (fun e => e.isTransfer = false) (enterHistory w.entry hist) := by
    refine .bind .modify fun _ => ?_
    cases w.entry with
    | some block => exact .bind .modify fun _ => .modify
    | none => exact .bind .modify fun _ => .bind (.when fun _ => .stop) fun _ => .modify
  have hclear : Emits (fun e => e.isTransfer = false) (fillCmd nuls) := by
    refine .bind (.emit fun e he => ?_) fun _ => .modify
    obtain ⟨i, -, rfl⟩ := mem_touches.mp he
    rfl
  exact .bind henter.focus fun _ => .bind hclear.focus fun _ => printf_emits rfl

/-- Nor is what comes before the command is selected. -/
theorem preparation_transfers (e : Editor) (word : Option (List Byte)) :
    (preparation e ++ [Event.passes .strcmp word]).filter Event.isTransfer = [] := by
  refine List.filter_eq_nil_iff.mpr fun event hevent => ?_
  rcases List.mem_append.mp hevent with hevent | hevent
  · cases prepares_of_mem hevent <;> exact Bool.false_ne_true
  · obtain rfl := List.mem_singleton.mp hevent
    exact Bool.false_ne_true

theorem transfers_some (hlen : 0 < s.cmdLen) {word : List Byte}
    (hword : parsedArg (lineArgs s.toEditor) 0 = some word) :
    transfers s = (runCommand (s.upcoming 0) (lineArgs s.toEditor)
      (keptCopy (s.upcoming 0).stack s.toEditor) (commandOf word) (prepared s)).events.filter
        Event.isTransfer := by
  rw [transfers, decodeCommand_some hlen hword, filter_after (preparation_transfers _ _)]

/-- What `read` and `write` do with data buffers, the line does, and nothing more. -/
theorem transfers_eq_act (hlen : 0 < s.cmdLen) {word : List Byte}
    (hword : parsedArg (lineArgs s.toEditor) 0 = some word)
    (hc : commandOf word = .read ∨ commandOf word = .write) :
    transfers s = ((commandOf word).act (s.upcoming 0) (lineArgs s.toEditor)
      s.toPeriphery).events.filter Event.isTransfer := by
  have hcommon : commandOf word ≠ .mousetest ∧ commandOf word ≠ .utstest ∧
      commandOf word ≠ .kbdtest ∧ commandOf word ≠ .history := by
    rcases hc with hc | hc <;> simp [hc]
  obtain ⟨hmouse, huts, hkbd, hhistory⟩ := hcommon
  have hend : Emits (fun e => e.isTransfer = false) (do
      commonEnd (s.upcoming 0) (keptCopy (s.upcoming 0).stack s.toEditor)
      resetPrompt
      onEditor resetLine) :=
    .bind (commonEnd_emits _ _) fun _ => .bind (resetPrompt_emits fun _ => rfl) fun _ =>
      Emits.modify.focus
  rw [transfers_some hlen hword, runCommand_of_common hmouse huts hkbd, filter_bind fun _ => hend,
    carryOut, if_neg hhistory]
  rfl

/-- A line that has to do with data buffers selects `read` or `write`, and is accepted. -/
theorem accepted_of_mem_transfers {e : Event} (he : e ∈ transfers s) :
    0 < s.cmdLen ∧ ∃ word, parsedArg (lineArgs s.toEditor) 0 = some word ∧
      (commandOf word = .read ∨ commandOf word = .write) ∧
      (commandOf word).rejects (lineArgs s.toEditor) = false := by
  obtain ⟨he, htransfer⟩ := List.mem_filter.mp he
  cases lineEvent_of_mem he with
  | prompt => cases htransfer
  | prepares _ he => cases he <;> cases htransfer
  | compares _ => cases htransfer
  | runs hlen hword he =>
    refine ⟨hlen, _, hword, ?_⟩
    cases he with
    | acts hemitted =>
      cases hemitted with
      | operation _ hproceeds honly =>
        have hc := honly htransfer
        refine ⟨hc, hproceeds.resolve_right fun hfat => ?_⟩
        rw [hfat] at hc
        rcases hc with hc | hc <;> cases hc
      | _ => cases htransfer
    | _ => cases htransfer

/-- What a line has to do with data buffers, by what it asks for. -/
theorem transfers_of_asks (h : Asks s t) : transfers s = t.events (s.upcoming 0) := by
  cases h with
  | @read word dev blkno nblks blksize hlen hargs hword hblksize hpos =>
    have hfirst : parsedArg (lineArgs s.toEditor) 0 = some word := by rw [hargs]; rfl
    rw [transfers_eq_act hlen hfirst (.inl hword), hword, hargs]
    refine (readCommand_transfers (s.upcoming 0) s.toPeriphery).trans ?_
    rw [hblksize]
    exact if_pos hpos
  | @write word dev blkno nblks text blksize hlen hargs hword hblksize hpos =>
    have hfirst : parsedArg (lineArgs s.toEditor) 0 = some word := by rw [hargs]; rfl
    rw [transfers_eq_act hlen hfirst (.inr hword), hword, hargs]
    refine (writeCommand_transfers (s.upcoming 0) s.toPeriphery).trans ?_
    rw [hblksize]
    exact if_pos hpos

/-- There is a transfer only on a drive with blocks. -/
theorem blksize_of_mem {e : Event} {entry : Option (BitVec 32)} {events : BitVec 32 → List Event}
    (he : e ∈ match entry with
      | none => []
      | some blksize => if 0 < blksize.toInt then events blksize else []) :
    ∃ blksize, entry = some blksize ∧ 0 < blksize.toInt := by
  cases entry with
  | none => cases he
  | some blksize =>
    dsimp only at he
    split_ifs at he with hpos
    · exact ⟨blksize, rfl, hpos⟩
    · cases he

/-- A line that asks for nothing has nothing to do with them. -/
theorem exists_asks {e : Event} (he : e ∈ transfers s) : ∃ t, Asks s t := by
  obtain ⟨hlen, word, hword, hc, haccepts⟩ := accepted_of_mem_transfers he
  rw [transfers_eq_act hlen hword hc] at he
  rcases hc with hc | hc <;> rw [hc] at haccepts he
  · obtain ⟨first, dev, blkno, nblks, hargs⟩ := read_accepts haccepts
    have hfirst : first = word := by
      rw [hargs] at hword
      exact Option.some.inj hword
    have hmem : e ∈ (readCommand (s.upcoming 0) [first, dev, blkno, nblks]
        s.toPeriphery).events.filter Event.isTransfer := hargs ▸ he
    rw [readCommand_transfers] at hmem
    obtain ⟨blksize, hblksize, hpos⟩ := blksize_of_mem hmem
    exact ⟨_, .read hlen hargs (hfirst ▸ hc) hblksize hpos⟩
  · obtain ⟨first, dev, blkno, nblks, text, hargs⟩ := write_accepts haccepts
    have hfirst : first = word := by
      rw [hargs] at hword
      exact Option.some.inj hword
    have hmem : e ∈ (writeCommand (s.upcoming 0) [first, dev, blkno, nblks, text]
        s.toPeriphery).events.filter Event.isTransfer := hargs ▸ he
    rw [writeCommand_transfers] at hmem
    obtain ⟨blksize, hblksize, hpos⟩ := blksize_of_mem hmem
    exact ⟨_, .write hlen hargs (hfirst ▸ hc) hblksize hpos⟩

/-! ## When the buffers fit -/

theorem mem_events_iff {e : Event} (he : e.isTransfer = true) :
    e ∈ (decodeCommand s).events ↔ e ∈ transfers s := by
  rw [transfers, List.mem_filter, and_iff_left he]

theorem Asks.getBlksize (h : Asks s t) :
    Devices.getBlksize s.registry t.devId = some t.blksize := by
  cases h <;> assumption

/-- The driver moves as many bytes as the line makes it move. -/
theorem blockBytes_call (w : World RQ SQ) (t : Transfer) :
    blockBytes t.blksize.toNat (callOp (t.call w)) = t.bytes := by
  have hwiden : ((t.nblks.setWidth 16).setWidth 32).toNat = (t.nblks.setWidth 16).toNat := by
    rw [BitVec.toNat_setWidth]
    have hsmall := (t.nblks.setWidth 16).isLt
    omega
  exact congrArg (t.blksize.toNat * ·) hwiden

section Events

variable {w : World RQ SQ}

theorem buffer_mem_events {size val : BitVec 64} :
    .buffer size val ∈ t.events w ↔ size = t.size ∧ val = w.buffer t.size := by
  unfold Transfer.events
  cases t.text with
  | none => simp
  | some text =>
    dsimp only
    split_ifs <;> simp

theorem copies_mem_events {val : BitVec 64} {n : ℕ} :
    .copies val n ∈ t.events w ↔ val = w.buffer t.size ∧ ∃ text ∈ t.text, n = text.length := by
  unfold Transfer.events
  cases t.text with
  | none => simp
  | some text =>
    dsimp only
    split_ifs <;> simp

theorem request_mem_events {call : Call} :
    .enqueueUmassRequest call ∈ t.events w ↔
      call = t.call w ∧ ∀ text ∈ t.text, w.buffer t.size = 0#64 → text = [] := by
  unfold Transfer.events
  cases t.text with
  | none => simp
  | some text =>
    dsimp only
    split_ifs with hnull
    · simp [hnull.1, hnull.2]
    · rw [not_and, not_not] at hnull
      simpa using fun _ => hnull

end Events

/-- The buffer of an accepted line has to hold what it is allocated for. -/
theorem buffersFit_of_asks (h : Asks s t) : BuffersFit s ↔ t.Fits (s.upcoming 0).buffer := by
  have hevents : ∀ e : Event, e.isTransfer = true →
      (e ∈ (decodeCommand s).events ↔ e ∈ t.events (s.upcoming 0)) := by
    intro e he
    rw [mem_events_iff he, transfers_of_asks h]
  have hbuffer : .buffer t.size ((s.upcoming 0).buffer t.size) ∈ (decodeCommand s).events :=
    (hevents _ rfl).mpr (buffer_mem_events.mpr ⟨rfl, rfl⟩)
  have hcall : (t.call (s.upcoming 0)).val = (s.upcoming 0).buffer t.size := rfl
  constructor
  · intro hfit
    -- A text is copied before there is a request, and there is one only behind the copy.
    have htext : ∀ text ∈ t.text, (s.upcoming 0).buffer t.size ≠ 0#64 ∧
        text.length ≤ t.size.toNat := by
      intro text ht
      obtain ⟨size, hmem, hnull, hroom⟩ := hfit.texts _ text.length
        ((hevents _ rfl).mpr (copies_mem_events.mpr ⟨rfl, text, ht, rfl⟩))
      obtain ⟨rfl, -⟩ := buffer_mem_events.mp ((hevents _ rfl).mp hmem)
      exact ⟨hnull, hroom⟩
    obtain ⟨size, blksize, hmem, hnull, hblksize, hroom⟩ := hfit.requests (t.call _)
      ((hevents _ rfl).mpr (request_mem_events.mpr ⟨rfl, fun text ht hnull =>
        absurd hnull (htext text ht).1⟩))
    obtain ⟨rfl, -⟩ := buffer_mem_events.mp ((hevents _ rfl).mp hmem)
    obtain rfl := Option.some.inj (h.getBlksize.symm.trans hblksize)
    rw [blockBytes_call] at hroom
    exact ⟨hnull, hroom, fun text ht => (htext text ht).2⟩
  · rintro ⟨hnull, hblocks, htext⟩
    constructor
    case requests =>
      intro call hmem
      obtain ⟨rfl, -⟩ := request_mem_events.mp ((hevents _ rfl).mp hmem)
      exact ⟨t.size, t.blksize, hbuffer, hnull, h.getBlksize,
        (blockBytes_call _ t).trans_le hblocks⟩
    case texts =>
      intro val n hmem
      obtain ⟨rfl, text, ht, rfl⟩ := copies_mem_events.mp ((hevents _ rfl).mp hmem)
      exact ⟨t.size, hbuffer, hnull, htext text ht⟩

/-- For numbers of blocks that the driver sees as they are and products that are no more than
an `int`, the buffer has room for the blocks. -/
theorem bytes_eq_size (hnblks : t.nblks.toNat < 2 ^ 16)
    (hproduct : t.blksize.toNat * t.nblks.toNat < 2 ^ 31) : t.bytes = t.size.toNat := by
  have hseen : (t.nblks.setWidth 16).toNat = t.nblks.toNat := by
    rw [BitVec.toNat_setWidth, Nat.mod_eq_of_lt hnblks]
  have hint : (t.blksize * t.nblks).toNat = t.blksize.toNat * t.nblks.toNat := by
    rw [BitVec.toNat_mul, Nat.mod_eq_of_lt (by omega)]
  have hmsb : (t.blksize * t.nblks).msb = false := by
    rw [BitVec.msb_eq_decide, hint]
    exact decide_eq_false (by omega)
  rw [Transfer.bytes, Transfer.size, bufferSize, hseen, ← hint,
    BitVec.signExtend_eq_setWidth_of_msb_false hmsb, BitVec.toNat_setWidth, hint]
  exact (Nat.mod_eq_of_lt (by omega)).symm

end Line

/-- A line keeps to its buffers exactly when what it asks for does. -/
theorem buffersFit_iff (s : ShellState RQ SQ) :
    BuffersFit s ↔ ∀ t, Asks s t → t.Fits (s.upcoming 0).buffer := by
  by_cases h : ∃ t, Asks s t
  · obtain ⟨t, ht⟩ := h
    constructor
    · exact fun hfit t' ht' => (buffersFit_of_asks ht').mp hfit
    · exact fun hfits => (buffersFit_of_asks ht).mpr (hfits t ht)
  · refine iff_of_true ⟨fun call hcall => ?_, fun val n hcopy => ?_⟩ fun t ht => absurd ⟨t, ht⟩ h
    · exact absurd (exists_asks ((mem_events_iff rfl).mp hcall)) h
    · exact absurd (exists_asks ((mem_events_iff rfl).mp hcopy)) h

/-- Two words of text for no blocks at all. -/
theorem write_nothing_overruns :
    let s := atPrompt (ascii ['w', 'r', 'i', 't', 'e', ' ', '2', ' ', '0', ' ', '0', ' ', 'h', 'i'])
      (Registry.empty.register (announcedDrive 2#32)) clearWorld
    getBlksize s.registry 2#32 = some 512#32 ∧ ¬ BuffersFit s := by
  intro s
  have hlen : 0 < s.cmdLen := by decide
  have hargs : lineArgs s.toEditor = [ascii ['w', 'r', 'i', 't', 'e'], ascii ['2'], ascii ['0'],
      ascii ['0'], ascii ['h', 'i']] := by decide
  have hblksize : getBlksize s.registry (atoi (ascii ['2'])) = some 512#32 := by decide
  have hasks := Asks.write hlen hargs (by decide) hblksize (by decide)
  refine ⟨by decide, fun hfit => ?_⟩
  have htext := ((buffersFit_of_asks hasks).mp hfit).text _ rfl
  exact absurd htext (by decide)

end Sel4Xhci.Shell
