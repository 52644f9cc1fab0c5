import Sel4Xhci.Semantics.Format
import Sel4Xhci.Shell.Keypress

/-!
# Reports of the pointing devices

Mouse and touchscreen have rings of their own. A handler takes all reports from its ring, whatever
they hold: in the two tests it prints them, and otherwise the wheel of the mouse scrolls through
the history.

## Main definitions

* `Terminal` — the shell with the four rings, and the memory that the reports are in
* `drainLoop` — a loop over a ring
* `handleMouseTest`, `handleUtsEvent`, `handleMouseEvent` — the code

## Main results

* `drainLoop_keeps` — what the body of a loop over a ring keeps, the loop keeps
* `drainLoop_returns` — the loop ends, with the ring empty, before its rounds run out
-/

set_option autoImplicit false

namespace Sel4Xhci.Shell

open Semantics Semantics.CString Semantics.Format Semantics.Program Umass Sel4Xhci.Ring

variable {RQ : Fifo BlkReq} {SQ : Fifo Answer}

variable (RQ SQ) in
/-- The shell and its keyboard, the `used_ring`s of `mse_buffer_ring` and `uts_buffer_ring`, the
ring of new devices, and memory. -/
structure Terminal extends KeyState RQ SQ where
  mouseRing : RingBuffer
  touchRing : RingBuffer
  deviceRing : RingBuffer
  mem : BitVec 64 → Byte

/-- A function that uses shell and keyboard only. -/
def onKeys {α : Type} (p : Code (KeyState RQ SQ) α) : Code (Terminal RQ SQ) α :=
  Program.focus (·.toKeyState) (fun t k => { t with toKeyState := k }) p

/-- `buffer[i]`, where `buffer` points to words of eight bytes. -/
def loadWord (mem : BitVec 64 → Byte) (buffer : BitVec 64) (i : ℕ) : BitVec 64 :=
  (List.range 8).foldr
    (fun k rest => rest <<< 8 ||| (mem (buffer + BitVec.ofNat 64 (8 * i + k))).setWidth 64) 0#64

/-! ## Loops over a ring -/

section Drain

variable {σ τ : Type} (ring : σ → RingBuffer) (put : σ → RingBuffer → σ)
  (body : BitVec 64 → Code σ Unit)

/-- `while (!driver_dequeue(ring, &buffer, ...))`, for so many rounds at most. -/
def drainLoop : ℕ → Code σ Unit
  | 0 => Program.stop .spins
  | rounds + 1 => do
    let s ← Program.get
    let (ret, buffer, ring') := driverDequeue (ring s) ⟨0#64, 0#32, .client 0#64⟩
    Program.modify fun s => put s ring'
    if ret = 0 then do
      body buffer.encodedAddr
      drainLoop rounds
    else pure ()

variable {ring put body}

/-- What the body keeps, the loop keeps. -/
theorem drainLoop_keeps {f : σ → τ} (hput : ∀ s r, f (put s r) = f s)
    (hbody : ∀ buffer, Keeps f (body buffer)) (rounds : ℕ) :
    Keeps f (drainLoop ring put body rounds) := by
  induction rounds with
  | zero => exact .stop _
  | succ rounds ih =>
    refine .bind .get fun s => .bind (.modify fun s => hput s _) fun _ => .ite (fun _ => ?_) ?_
    · exact .bind (hbody _) fun _ => ih
    · exact fun _ => .pure _

/-- The rounds do not run out: a loop over a ring of fewer reports, whose rounds return and leave
the ring alone, empties it. -/
theorem drainLoop_returns (hring : ∀ s r, ring (put s r) = r)
    (hbody : ∀ s buffer, ∃ s', Returns (body buffer) s () s' ∧ ring s' = ring s) {s : σ}
    {q : List BuffDesc} (h : (ring s).Stores q) {rounds : ℕ} (hrounds : q.length < rounds) :
    ∃ s', Returns (drainLoop ring put body rounds) s () s' ∧ (ring s').Stores [] := by
  induction q generalizing s rounds with
  | nil =>
    obtain ⟨n, rfl⟩ := Nat.exists_eq_add_of_lt hrounds
    have hdequeue : driverDequeue (ring s) ⟨0#64, 0#32, .client 0#64⟩ = (-1, _, ring s) :=
      take_of_empty (h.ringEmpty_iff.mpr rfl) _ _
    refine ⟨put s (ring s), (Returns.get s).bind ?_, by rwa [hring]⟩
    rw [hdequeue]
    exact (Returns.modify _ s).bind (.pure _ _)
  | cons d rest ih =>
    rw [List.length_cons] at hrounds
    obtain ⟨n, rfl⟩ := Nat.exists_eq_add_of_lt hrounds
    -- The oldest report is taken, and the rest is left to the induction.
    rcases h.take .driverDequeue ⟨0#64, 0#32, .client 0#64⟩ with
      ⟨hnil, -⟩ | ⟨d', rest', hq, hret, -, -, hrest⟩
    · cases hnil
    obtain ⟨rfl, rfl⟩ := List.cons.inj hq
    rcases hdequeue : driverDequeue (ring s) ⟨0#64, 0#32, .client 0#64⟩ with ⟨ret, buffer, ring'⟩
    rw [← driverDequeue, hdequeue] at hret hrest
    obtain ⟨s₁, hrun, hkept⟩ := hbody (put s ring') buffer.encodedAddr
    have hnext : (ring s₁).Stores rest := by rwa [hkept, hring]
    have hfewer : rest.length < rest.length + 1 + n := by omega
    obtain ⟨s', hloop, hempty⟩ := ih hnext hfewer
    refine ⟨s', (Returns.get s).bind ?_, hempty⟩
    rw [hdequeue]
    refine (Returns.modify _ s).bind ?_
    rw [if_pos hret]
    exact hrun.bind hloop

end Drain

/-! ## Handlers -/

/-- What the two tests print of a report: its position, a third word under the name `third`, and
the buttons that are down by word `buttons`. -/
def showPointer {σ : Type} (third : String) (buttons : ℕ) (buffer : ℕ → BitVec 64) :
    Code σ Unit := do
  -- Six times `%c` of 61707, of which the low byte is printed.
  printf "\x0b\x0b\x0b\x0b\x0b\x0b\r"
  printf ("x: " ++ decimalPadded 4 ((buffer 0).setWidth 32) ++ "\n")
  printf ("y: " ++ decimalPadded 4 ((buffer 1).setWidth 32) ++ "\n")
  printf (third ++ ": " ++ decimalPadded 4 ((buffer 2).setWidth 32) ++ "\n")
  Program.when (buffer buttons &&& 0x1#64 ≠ 0#64) (printf "left ")
  Program.when (buffer buttons &&& 0x2#64 ≠ 0#64) (printf "mid ")
  Program.when (buffer buttons &&& 0x4#64 ≠ 0#64) (printf "right ")
  printf "                "
  printf "\n\n\n"

/-- A loop over the reports of the mouse. -/
def drainMouse (body : BitVec 64 → Code (Terminal RQ SQ) Unit) : Code (Terminal RQ SQ) Unit :=
  drainLoop (·.mouseRing) (fun t ring => { t with mouseRing := ring }) body SIZE

/-- `handle_mouseTest`. -/
def handleMouseTest : Code (Terminal RQ SQ) Unit :=
  drainMouse fun buffer => do
    let t ← Program.get
    showPointer "w" 4 (loadWord t.mem buffer)

/-- `handle_utsEvent`. -/
def handleUtsEvent : Code (Terminal RQ SQ) Unit :=
  drainLoop (·.touchRing) (fun t ring => { t with touchRing := ring })
    (fun buffer => do
      let t ← Program.get
      showPointer "z" 3 (loadWord t.mem buffer)) SIZE

/-- `handle_mouseEvent`. -/
def handleMouseEvent : Code (Terminal RQ SQ) Unit :=
  drainMouse fun buffer => do
    let t ← Program.get
    onKeys (onShell (handleWheel ((loadWord t.mem buffer 2).setWidth 32).toInt))

/-- Printing a report changes nothing. -/
theorem showPointer_keeps {σ τ : Type} {f : σ → τ} (third : String) (buttons : ℕ)
    (buffer : ℕ → BitVec 64) : Keeps f (showPointer third buttons buffer) :=
  have hprintf (text : String) : Keeps f (printf text : Code σ Unit) := .emit _
  .bind (hprintf _) fun _ => .bind (hprintf _) fun _ => .bind (hprintf _) fun _ =>
    .bind (hprintf _) fun _ => .bind (.when fun _ => hprintf _) fun _ =>
      .bind (.when fun _ => hprintf _) fun _ => .bind (.when fun _ => hprintf _) fun _ =>
        .bind (hprintf _) fun _ => hprintf _

end Sel4Xhci.Shell
