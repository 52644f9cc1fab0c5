import Sel4Xhci.Semantics.Format
import Sel4Xhci.Semantics.SplitCounter
import Mathlib.Logic.Function.Iterate

/-!
# The system counter

`timer.c` reads time off the 64-bit system counter of the board, two 32-bit words behind
a frame of registers. The counter runs on its own, so the frame is a trace: `frames n` is
what the registers hold at the `n`-th access that the program makes to them.

`get_ticks` names offset 0x00 where it means the high word of the counter. That is the
control register; the high word is at 0x0C.

## Main definitions

* `TimerFrame`, `TimerState` — the registers and the variables of `timer.c`
* `initialiseAndStartTimer`, `getTicks` — the code
* `ticksAfter` — the state after a number of successive calls of `get_ticks`

## Main results

* `getTicks_toNat` — what `get_ticks` makes of the words it reads
* `linearised_iff` — when its result is a value that the counter had during the call
* `all_linearised_iff` — the same for every number of successive calls
-/

set_option autoImplicit false

namespace Sel4Xhci.Timer

open Semantics.SplitCounter Semantics.Format

/-- The registers of a timer frame, laid out as `struct cntl_reg`: the control register,
the status register, the counter in two words and the base frequency. -/
structure TimerFrame where
  cntcr : BitVec 32
  cntsr : BitVec 32
  count : BitVec 64
  cntfid0 : BitVec 32
  others : BitVec 32 → BitVec 32

/-- The register at an offset. -/
def TimerFrame.register (frame : TimerFrame) (offset : BitVec 32) : BitVec 32 :=
  if offset = 0x0#32 then frame.cntcr
  else if offset = 0x4#32 then frame.cntsr
  else if offset = 0x8#32 then frame.count.setWidth 32
  else if offset = 0xc#32 then (frame.count >>> 32).setWidth 32
  else if offset = 0x20#32 then frame.cntfid0
  else frame.others offset

/-- The variables of `timer.c`, with the number of register accesses made, the value last
stored in the control register and the texts printed. -/
structure TimerState where
  tickFrequency : BitVec 64
  accesses : ℕ
  control : BitVec 32
  printed : List String
  deriving DecidableEq

namespace TimerState

def printf (s : TimerState) (text : String) : TimerState :=
  { s with printed := s.printed ++ [text] }

/-- `readl`. -/
def readl (frames : ℕ → TimerFrame) (s : TimerState) (offset : BitVec 32) :
    BitVec 64 × TimerState :=
  (((frames s.accesses).register offset).setWidth 64, { s with accesses := s.accesses + 1 })

/-- `writel`. -/
def writel (s : TimerState) (val offset : BitVec 32) : TimerState :=
  { s with
    accesses := s.accesses + 1
    control := if offset = 0x0#32 then val else s.control }

@[simp] theorem printf_tickFrequency (s : TimerState) (text : String) :
    (s.printf text).tickFrequency = s.tickFrequency := rfl

@[simp] theorem printf_accesses (s : TimerState) (text : String) :
    (s.printf text).accesses = s.accesses := rfl

@[simp] theorem printf_control (s : TimerState) (text : String) :
    (s.printf text).control = s.control := rfl

end TimerState

def CNTCR_EN : BitVec 32 := 0x0b#32

def CNTCR_FCR0 : BitVec 32 := 0x1000b#32

/-- `initialise_and_start_timer`. A frequency that is too low is reported and used. -/
def initialiseAndStartTimer (frames : ℕ → TimerFrame) (s : TimerState) : TimerState :=
  let (frequency, s) := s.readl frames 0x20#32
  let s := { s with tickFrequency := frequency }
  let s := if frequency < 1000000#64 then
      s.printf "Fatal: System counter tick frequency is too low for accurate timing\n"
    else s
  s.writel (CNTCR_EN ||| CNTCR_FCR0) 0x0#32

/-- `get_ticks`. An uninitialised timer is reported and read. -/
def getTicks (frames : ℕ → TimerFrame) (s : TimerState) : BitVec 64 × TimerState :=
  let s := if s.tickFrequency = 0#64 then
      s.printf "Fatal: Attempt to read from uninitialised timer\n"
    else s
  -- The offsets are those of the code; "cntcv1" in its comments would be 0x0c.
  let (initialHigh, s) := s.readl frames 0x00#32
  let (low, s) := s.readl frames 0x08#32
  let (high, s) := s.readl frames 0x00#32
  if high.setWidth 32 ≠ initialHigh.setWidth 32 then
    let (low, s) := s.readl frames 0x08#32
    ((high.setWidth 32).setWidth 64 <<< 32 ||| (low.setWidth 32).setWidth 64,
      s.printf ("Tick over low: " ++ hex (low.setWidth 32) ++ "\n"))
  else
    ((high.setWidth 32).setWidth 64 <<< 32 ||| (low.setWidth 32).setWidth 64, s)

/-- The state after `calls` successive calls of `get_ticks`. -/
def ticksAfter (frames : ℕ → TimerFrame) (s : TimerState) (calls : ℕ) : TimerState :=
  (fun s => (getTicks frames s).2)^[calls] s

@[simp] theorem ticksAfter_zero (frames : ℕ → TimerFrame) (s : TimerState) :
    ticksAfter frames s 0 = s := rfl

theorem ticksAfter_succ (frames : ℕ → TimerFrame) (s : TimerState) (calls : ℕ) :
    ticksAfter frames s (calls + 1) = (getTicks frames (ticksAfter frames s calls)).2 :=
  Function.iterate_succ_apply' _ calls s

/-! ## One call -/

/-- The control register changes between the two reads that `get_ticks` makes of it. -/
def Rereads (frames : ℕ → TimerFrame) (s : TimerState) : Prop :=
  (frames (s.accesses + 2)).cntcr ≠ (frames s.accesses).cntcr

instance (frames : ℕ → TimerFrame) (s : TimerState) : Decidable (Rereads frames s) :=
  inferInstanceAs (Decidable (_ ≠ _))

/-- The access at which `get_ticks` reads the low word that it returns. -/
def sampleAccess (frames : ℕ → TimerFrame) (s : TimerState) : ℕ :=
  if Rereads frames s then s.accesses + 3 else s.accesses + 1

/-- The access at which `get_ticks` makes its last read. -/
def lastAccess (frames : ℕ → TimerFrame) (s : TimerState) : ℕ :=
  if Rereads frames s then s.accesses + 3 else s.accesses + 2

/-- The counter at an access, as a number. -/
def counter (frames : ℕ → TimerFrame) (n : ℕ) : ℕ := (frames n).count.toNat

theorem joined_toNat (high low : BitVec 32) :
    (high.setWidth 64 <<< 32 ||| low.setWidth 64).toNat = joined 32 high.toNat low.toNat := by
  have hhigh := high.isLt
  have hlow := low.isLt
  have hshift : (high.setWidth 64 <<< 32).toNat = high.toNat * 2 ^ 32 := by
    simp only [BitVec.toNat_shiftLeft, BitVec.toNat_setWidth, Nat.shiftLeft_eq]
    omega
  have hwide : (low.setWidth 64).toNat = low.toNat := by
    rw [BitVec.toNat_setWidth]
    omega
  -- The low word stays below the bits of the high word, so the two are added.
  rw [BitVec.toNat_or, hshift, hwide, joined, Nat.mul_comm, Nat.two_pow_add_eq_or_of_lt hlow]

/-- The result has the control register, as last read, for its high word. -/
theorem getTicks_toNat (frames : ℕ → TimerFrame) (s : TimerState) :
    (getTicks frames s).1.toNat = joined 32 (frames (s.accesses + 2)).cntcr.toNat
      (counter frames (sampleAccess frames s) % 2 ^ 32) := by
  have hvalue : (getTicks frames s).1 =
      (frames (s.accesses + 2)).cntcr.setWidth 64 <<< 32 |||
        ((frames (sampleAccess frames s)).count.setWidth 32).setWidth 64 := by
    -- Both ways through the code end with the same high word.
    by_cases hreread : Rereads frames s <;> unfold Rereads at hreread <;>
      by_cases huninitialised : s.tickFrequency = 0#64 <;>
      simp [getTicks, TimerState.readl, TimerFrame.register, sampleAccess, Rereads, hreread,
        huninitialised]
  rw [hvalue, joined_toNat, BitVec.toNat_setWidth, counter]

section AfterCall

variable (frames : ℕ → TimerFrame) (s : TimerState)

/-- A call makes its accesses and may print; it changes nothing else. -/
theorem getTicks_snd : ∃ texts, (getTicks frames s).2 =
    { s with accesses := lastAccess frames s + 1, printed := s.printed ++ texts } := by
  by_cases hreread : Rereads frames s <;> unfold Rereads at hreread <;>
    by_cases huninitialised : s.tickFrequency = 0#64 <;>
    simp [getTicks, TimerState.readl, TimerState.printf, TimerFrame.register, lastAccess, Rereads,
      hreread, huninitialised]

@[simp] theorem getTicks_accesses :
    (getTicks frames s).2.accesses = lastAccess frames s + 1 := by
  obtain ⟨texts, h⟩ := getTicks_snd frames s
  rw [h]

@[simp] theorem getTicks_tickFrequency :
    (getTicks frames s).2.tickFrequency = s.tickFrequency := by
  obtain ⟨texts, h⟩ := getTicks_snd frames s
  rw [h]

@[simp] theorem getTicks_control : (getTicks frames s).2.control = s.control := by
  obtain ⟨texts, h⟩ := getTicks_snd frames s
  rw [h]

theorem le_sampleAccess : s.accesses ≤ sampleAccess frames s := by
  unfold sampleAccess
  split_ifs <;> omega

theorem sampleAccess_le : sampleAccess frames s ≤ lastAccess frames s := by
  unfold sampleAccess lastAccess
  split_ifs <;> omega

end AfterCall

/-- The result lies between the counter at the first read and at the last. -/
def Linearised (frames : ℕ → TimerFrame) (s : TimerState) : Prop :=
  counter frames s.accesses ≤ (getTicks frames s).1.toNat ∧
    (getTicks frames s).1.toNat ≤ counter frames (lastAccess frames s)

/-- The control register, when it is read last, happens to hold the high word that belongs
to the low word returned. -/
def ShowsHighWord (frames : ℕ → TimerFrame) (s : TimerState) : Prop :=
  (frames (s.accesses + 2)).cntcr.toNat = counter frames (sampleAccess frames s) / 2 ^ 32

/-- The counter advances by less than `2 ^ 32` during the call. -/
def AdvancesLittle (frames : ℕ → TimerFrame) (s : TimerState) : Prop :=
  counter frames (lastAccess frames s) < counter frames s.accesses + 2 ^ 32

section OneCall

variable {frames : ℕ → TimerFrame} {s : TimerState}

/-- If the control register shows the high word, the result is the counter at the time its
low word was read. -/
theorem ShowsHighWord.getTicks_eq (h : ShowsHighWord frames s) :
    (getTicks frames s).1.toNat = counter frames (sampleAccess frames s) := by
  rw [getTicks_toNat, h, joined_div_mod]

/-- One call is linearised exactly when the control register shows the high word. -/
theorem linearised_iff (hmono : Monotone (counter frames)) (hadvance : AdvancesLittle frames s) :
    Linearised frames s ↔ ShowsHighWord frames s := by
  rw [Linearised, getTicks_toNat]
  apply joined_mem_window_iff
  · exact hmono (le_sampleAccess frames s)
  · exact hmono (sampleAccess_le frames s)
  · exact hadvance

/-- Had offset 0x00 shown the high word of the counter, `get_ticks` would be right: only the
offset is wrong, not the order of the reads. -/
theorem linearised_of_cntcr (hmono : Monotone (counter frames))
    (hadvance : counter frames (s.accesses + 3) < counter frames s.accesses + 2 ^ 32)
    (hhigh : ∀ n, (frames n).cntcr.toNat = counter frames n / 2 ^ 32) :
    Linearised frames s := by
  -- The four reads are those of the protocol, by the number of the access.
  have hreading : (getTicks frames s).1.toNat =
      highLowHigh 32 (fun i => counter frames (s.accesses + i) / 2 ^ 32)
        (fun i => counter frames (s.accesses + i) % 2 ^ 32) := by
    simp only [getTicks_toNat, highLowHigh, sampleAccess, Rereads, ← BitVec.toNat_inj, ne_eq,
      hhigh, Nat.add_zero]
    split_ifs <;> rfl
  have hshifted : Monotone fun i => counter frames (s.accesses + i) :=
    fun i j hij => hmono (Nat.add_le_add_left hij s.accesses)
  have hvalue := highLowHigh_eq hshifted hadvance
  rw [← hreading] at hvalue
  have hsampled : (getTicks frames s).1.toNat = counter frames (sampleAccess frames s) := by
    rw [hvalue]
    simp only [sampleAccess, Rereads, ← BitVec.toNat_inj, ne_eq, hhigh, Nat.add_zero]
    split_ifs <;> rfl
  rw [Linearised, hsampled]
  exact ⟨hmono (le_sampleAccess frames s), hmono (sampleAccess_le frames s)⟩

end OneCall

/-! ## Successive calls -/

/-- The result of the call that follows `calls` others. -/
def ticksResult (frames : ℕ → TimerFrame) (s : TimerState) (calls : ℕ) : ℕ :=
  (getTicks frames (ticksAfter frames s calls)).1.toNat

section Calls

variable {frames : ℕ → TimerFrame} {s : TimerState}

theorem sampleAccess_lt (frames : ℕ → TimerFrame) (s : TimerState) {i j : ℕ} (hij : i < j) :
    sampleAccess frames (ticksAfter frames s i) < sampleAccess frames (ticksAfter frames s j) := by
  induction j with
  | zero => omega
  | succ j ih =>
    have hnext := le_sampleAccess frames (ticksAfter frames s (j + 1))
    have hlast := sampleAccess_le frames (ticksAfter frames s j)
    -- A call makes its accesses behind the last one of the call before it.
    rw [ticksAfter_succ, getTicks_accesses] at hnext
    rw [ticksAfter_succ]
    rcases Nat.lt_succ_iff_lt_or_eq.mp hij with hlt | rfl
    · have hlt := ih hlt
      omega
    · omega

/-- For every number of successive calls: all of them are linearised, and their results
never decrease, exactly when at each of them the control register shows the high word. -/
theorem all_linearised_iff (frames : ℕ → TimerFrame) (s : TimerState) (calls : ℕ)
    (hmono : Monotone (counter frames))
    (hadvance : ∀ i < calls, AdvancesLittle frames (ticksAfter frames s i)) :
    ((∀ i < calls, Linearised frames (ticksAfter frames s i)) ∧
      ∀ j < calls, ∀ i ≤ j, ticksResult frames s i ≤ ticksResult frames s j) ↔
    ∀ i < calls, ShowsHighWord frames (ticksAfter frames s i) := by
  constructor
  · rintro ⟨hlinearised, -⟩ i hi
    exact (linearised_iff hmono (hadvance i hi)).mp (hlinearised i hi)
  · intro hshows
    refine ⟨fun i hi => (linearised_iff hmono (hadvance i hi)).mpr (hshows i hi), ?_⟩
    intro j hj i hij
    -- Both results are values of the counter, and the later one was read later.
    rcases Nat.lt_or_eq_of_le hij with hlt | rfl
    · have hi := (hshows i (by omega)).getTicks_eq
      rw [ticksResult, ticksResult, hi, (hshows j hj).getTicks_eq]
      exact hmono (sampleAccess_lt frames s hlt).le
    · exact le_rfl

end Calls

/-- The frames of a started timer, whose control register holds what was written to it,
while the counter moves on once, at the access `n`. -/
def steppingFrames (before after : BitVec 64) (n : ℕ) : ℕ → TimerFrame := fun i =>
  ⟨CNTCR_EN ||| CNTCR_FCR0, 0#32, if i < n then before else after, 8000000#32, fun _ => 0#32⟩

theorem monotone_steppingFrames {before after : BitVec 64} (h : before.toNat ≤ after.toNat)
    (n : ℕ) : Monotone (counter (steppingFrames before after n)) := by
  intro i j hij
  simp only [counter, steppingFrames]
  split_ifs
  · exact le_rfl
  · exact h
  · omega
  · exact le_rfl

/-- The variables of a timer that has just been started with a base frequency of 8 MHz. -/
def justStarted : TimerState := ⟨8000000#64, 0, CNTCR_EN ||| CNTCR_FCR0, []⟩

/-- While the high word of the counter is 0x1000b, as the control register is, two calls are
linearised. -/
theorem all_linearised_iff_same_word :
    (∀ i < 2, Linearised (steppingFrames 0x1000b00000007#64 0x1000b00000009#64 3)
      (ticksAfter (steppingFrames 0x1000b00000007#64 0x1000b00000009#64 3) justStarted i)) ∧
    ∀ j < 2, ∀ i ≤ j,
      ticksResult (steppingFrames 0x1000b00000007#64 0x1000b00000009#64 3) justStarted i ≤
        ticksResult (steppingFrames 0x1000b00000007#64 0x1000b00000009#64 3) justStarted j := by
  apply (all_linearised_iff _ justStarted 2 (monotone_steppingFrames (by decide) 3) ?_).mpr
  · unfold ShowsHighWord
    decide
  · unfold AdvancesLittle
    decide

/-- A counter whose high word is 0 reads as 0x1000b00000000 and more; and when the low word
rolls over between two calls, the second result is less than the first. -/
theorem getTicks_not_linearised :
    (¬ ∀ (frames : ℕ → TimerFrame) (s : TimerState) (calls : ℕ), Monotone (counter frames) →
      (∀ i < calls, AdvancesLittle frames (ticksAfter frames s i)) →
      ∀ i < calls, Linearised frames (ticksAfter frames s i)) ∧
    ¬ ∀ (frames : ℕ → TimerFrame) (s : TimerState) (calls : ℕ), Monotone (counter frames) →
      (∀ i < calls, AdvancesLittle frames (ticksAfter frames s i)) →
      ∀ j < calls, ∀ i ≤ j, ticksResult frames s i ≤ ticksResult frames s j := by
  have hmono : Monotone (counter (steppingFrames 0xffffffff#64 0x100000000#64 3)) :=
    monotone_steppingFrames (by decide) 3
  have hadvance : ∀ i < 2, AdvancesLittle (steppingFrames 0xffffffff#64 0x100000000#64 3)
      (ticksAfter (steppingFrames 0xffffffff#64 0x100000000#64 3) justStarted i) := by
    unfold AdvancesLittle
    decide
  constructor
  · intro h
    have hlinearised := (h _ _ 2 hmono hadvance 0 (by decide)).2
    revert hlinearised
    decide
  · intro h
    have hmonotone := h _ _ 2 hmono hadvance 1 (by decide) 0 (by decide)
    revert hmonotone
    decide

end Sel4Xhci.Timer
