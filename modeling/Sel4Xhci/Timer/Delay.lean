import Sel4Xhci.Semantics.Loop
import Sel4Xhci.Timer.SystemCounter
import Mathlib.Data.Nat.Find

/-!
# Delays

`ms_delay` of `timer.c` polls `get_ticks` until a number of ticks have passed since an
initial reading. On a started timer the upper half of every reading is the control register,
so the readings of the loop differ in their low words only, and a delay during which the low
word rolls over need not end.

## Main definitions

* `msDelay` — the code, with fuel for its loop
* `Initialised` — the variables and frames of a timer that has been started
* `FirstPassed` — the poll that ought to end the loop

## Main results

* `exitsAfter_iff` — which poll ends the loop, in terms of the low words
* `msDelay_on_time_iff` — when that is the right poll
-/

set_option autoImplicit false

namespace Sel4Xhci.Timer

open Semantics.SplitCounter Semantics.Loop

/-- One evaluation of the condition of the loop in `ms_delay`, followed by `seL4_Yield` if
the loop goes on. -/
def pollRound (frames : ℕ → TimerFrame) (target : BitVec 64) (s : TimerState) :
    TimerState ⊕ TimerState :=
  let (ticks, s) := getTicks frames s
  if ticks < target then .inl s else .inr s

/-- `ms_delay`: how often it has yielded, and the state afterwards. `timer_print` does not
evaluate its arguments. -/
def msDelay (frames : ℕ → TimerFrame) (fuel : ℕ) (s : TimerState) (delay : BitVec 32) :
    Option (ℕ × TimerState) :=
  let (timerCountInit, s) := getTicks frames s
  let delayTicks := delay.signExtend 64 * (s.tickFrequency / 1000#64)
  loop (pollRound frames (timerCountInit + delayTicks)) fuel s

/-- The loop yields `yields` times and ends at the poll after that. -/
def ExitsAfter (frames : ℕ → TimerFrame) (s : TimerState) (delay : BitVec 32) (yields : ℕ) :
    Prop :=
  ∃ fuel t, msDelay frames fuel s delay = some (yields, t)

/-- The ticks that a delay is to last: `delay * (f / 1000)`, as numbers. -/
def delayTicks (s : TimerState) (delay : BitVec 32) : ℕ :=
  delay.toNat * (s.tickFrequency.toNat / 1000)

/-- The counter at the `i`-th reading: 0 is the initial one, `i + 1` that of the poll after
`i` yields. -/
def reading (frames : ℕ → TimerFrame) (s : TimerState) (i : ℕ) : ℕ :=
  counter frames (sampleAccess frames (ticksAfter frames s i))

/-- The poll after `yields` yields is the first to come when `ticks` have passed since the
initial reading. -/
def FirstPassed (frames : ℕ → TimerFrame) (s : TimerState) (ticks yields : ℕ) : Prop :=
  (∀ i < yields, reading frames s (i + 1) < reading frames s 0 + ticks) ∧
    reading frames s 0 + ticks ≤ reading frames s (yields + 1)

/-- The timer has been started: the frequency is a value of the 32-bit register, and the
control register holds from here on what was written to it. -/
structure Initialised (frames : ℕ → TimerFrame) (s : TimerState) : Prop where
  frequency : s.tickFrequency.toNat < 2 ^ 32
  control : s.control = CNTCR_EN ||| CNTCR_FCR0
  keeps : ∀ n, s.accesses ≤ n → (frames n).cntcr = s.control

/-- `initialise_and_start_timer` starts a timer whose control register can be relied on. -/
theorem initialised_initialise {frames : ℕ → TimerFrame} {s : TimerState}
    (h : ∀ n, (initialiseAndStartTimer frames s).accesses ≤ n →
      (frames n).cntcr = (initialiseAndStartTimer frames s).control) :
    Initialised frames (initialiseAndStartTimer frames s) := by
  refine ⟨?_, rfl, h⟩
  have hword := ((frames s.accesses).register 0x20#32).isLt
  have hfrequency : (initialiseAndStartTimer frames s).tickFrequency =
      ((frames s.accesses).register 0x20#32).setWidth 64 := by
    by_cases hlow : ((frames s.accesses).register 0x20#32).setWidth 64 < 1000000#64 <;>
      simp [initialiseAndStartTimer, TimerState.readl, TimerState.writel, hlow]
  rw [hfrequency, BitVec.toNat_setWidth]
  omega

/-! ## The readings -/

section Readings

variable {frames : ℕ → TimerFrame} {s : TimerState} {delay : BitVec 32}

/-- A call of `get_ticks` leaves a started timer started. -/
theorem Initialised.getTicks (h : Initialised frames s) :
    Initialised frames (getTicks frames s).2 := by
  have haccesses := (le_sampleAccess frames s).trans (sampleAccess_le frames s)
  refine ⟨?_, ?_, ?_⟩
  · rw [getTicks_tickFrequency]
    exact h.frequency
  · rw [getTicks_control]
    exact h.control
  · intro n hn
    rw [getTicks_accesses] at hn
    rw [getTicks_control]
    exact h.keeps n (by omega)

theorem Initialised.ticksAfter (h : Initialised frames s) (i : ℕ) :
    Initialised frames (ticksAfter frames s i) := by
  induction i with
  | zero => exact h
  | succ i ih =>
    rw [ticksAfter_succ]
    exact ih.getTicks

/-- On a started timer all results of `get_ticks` have the same upper half. -/
theorem Initialised.ticksResult_eq (h : Initialised frames s) (i : ℕ) :
    ticksResult frames s i = joined 32 0x1000b (reading frames s i % 2 ^ 32) := by
  have hstarted := h.ticksAfter i
  rw [ticksResult, getTicks_toNat, hstarted.keeps _ (Nat.le_add_right _ 2), hstarted.control]
  rfl

/-- A delay that is not negative keeps its value when it is widened. -/
theorem toNat_delay (hdelay : 0 ≤ delay.toInt) :
    delay.toNat < 2 ^ 31 ∧ (delay.signExtend 64).toNat = delay.toNat := by
  have hmsb : delay.msb = false := by
    rw [BitVec.msb_eq_toInt]
    simpa using hdelay
  have hsmall := BitVec.msb_eq_false_iff_two_mul_lt.mp hmsb
  refine ⟨by omega, ?_⟩
  rw [BitVec.signExtend_eq_setWidth_of_msb_false hmsb, BitVec.toNat_setWidth]
  omega

/-- The number of ticks to wait for is computed without overflow. -/
theorem Initialised.toNat_delayTicks (h : Initialised frames s) (hdelay : 0 ≤ delay.toInt) :
    (delay.signExtend 64 * (s.tickFrequency / 1000#64)).toNat = delayTicks s delay ∧
      delayTicks s delay < 2 ^ 54 := by
  have hfrequency := h.frequency
  obtain ⟨hsmall, hextend⟩ := toNat_delay hdelay
  -- Less than `2 ^ 31` milliseconds, of at most `(2 ^ 32 - 1) / 1000` ticks each.
  have hbound : delayTicks s delay ≤ 2 ^ 31 * 4294967 := by
    apply Nat.mul_le_mul
    · omega
    · omega
  refine ⟨?_, by omega⟩
  rw [BitVec.toNat_mul, hextend, BitVec.toNat_udiv]
  change delayTicks s delay % 2 ^ 64 = delayTicks s delay
  omega

/-- The loop ends at the first reading whose low word has come `delayTicks` beyond that of
the initial reading, without reduction modulo `2 ^ 32`. -/
theorem exitsAfter_iff (h : Initialised frames s) (hdelay : 0 ≤ delay.toInt) (yields : ℕ) :
    ExitsAfter frames s delay yields ↔
      (∀ i < yields, reading frames s (i + 1) % 2 ^ 32 <
        reading frames s 0 % 2 ^ 32 + delayTicks s delay) ∧
      reading frames s 0 % 2 ^ 32 + delayTicks s delay ≤
        reading frames s (yields + 1) % 2 ^ 32 := by
  obtain ⟨hticks, hbound⟩ := h.toNat_delayTicks hdelay
  let target := (getTicks frames s).1 + delay.signExtend 64 * (s.tickFrequency / 1000#64)
  have htarget : target.toNat =
      joined 32 0x1000b (reading frames s 0 % 2 ^ 32) + delayTicks s delay := by
    have hfirst := h.ticksResult_eq 0
    rw [ticksResult, ticksAfter_zero] at hfirst
    rw [BitVec.toNat_add, hfirst, hticks]
    unfold joined
    omega
  have hpoll : ∀ i, target ≤ (getTicks frames (ticksAfter frames s (i + 1))).1 ↔
      reading frames s 0 % 2 ^ 32 + delayTicks s delay ≤ reading frames s (i + 1) % 2 ^ 32 := by
    intro i
    have hresult := h.ticksResult_eq (i + 1)
    rw [ticksResult] at hresult
    -- The upper halves are the same and drop out.
    rw [BitVec.le_def, htarget, hresult]
    unfold joined
    omega
  -- A poll moves on by one call of `get_ticks`, whether or not it ends the loop.
  have hround : ∀ t, pollRound frames target t =
      if target ≤ (getTicks frames t).1 then .inr (getTicks frames t).2
      else .inl (getTicks frames t).2 := by
    intro t
    by_cases hle : target ≤ (getTicks frames t).1
    · simp [pollRound, hle, BitVec.not_lt.mpr hle]
    · simp [pollRound, hle, BitVec.not_le.mp hle]
  have hloop : ∀ fuel, msDelay frames fuel s delay =
      loop (pollRound frames target) fuel (ticksAfter frames s 1) := by
    intro fuel
    simp [msDelay, target, ticksAfter]
  have hiterate : ∀ i, (fun t => (getTicks frames t).2)^[i] (ticksAfter frames s 1) =
      ticksAfter frames s (i + 1) := fun i => rfl
  simp only [ExitsAfter, hloop, loop_iterate_iff hround, hiterate, hpoll, Nat.not_le]
  constructor
  · rintro ⟨fuel, t, -, hearlier, hlast, -⟩
    exact ⟨hearlier, hlast⟩
  · rintro ⟨hearlier, hlast⟩
    exact ⟨yields + 1, _, Nat.lt_succ_self yields, hearlier, hlast, rfl⟩

/-! ## The end of a delay -/

theorem le_sampleAccess_ticksAfter (frames : ℕ → TimerFrame) (s : TimerState) (i : ℕ) :
    i ≤ sampleAccess frames (ticksAfter frames s i) := by
  induction i with
  | zero => omega
  | succ i ih =>
    have hlt := sampleAccess_lt frames s (Nat.lt_add_one i)
    omega

theorem monotone_reading (hmono : Monotone (counter frames)) : Monotone (reading frames s) := by
  intro i j hij
  rcases Nat.lt_or_eq_of_le hij with hlt | rfl
  · exact hmono (sampleAccess_lt frames s hlt).le
  · exact le_rfl

/-- If some reading comes when the ticks have passed, there is a first one. -/
theorem exists_firstPassed {ticks i : ℕ}
    (h : reading frames s 0 + ticks ≤ reading frames s (i + 1)) :
    ∃ yields ≤ i, FirstPassed frames s ticks yields := by
  have hex : ∃ i, reading frames s 0 + ticks ≤ reading frames s (i + 1) := ⟨i, h⟩
  refine ⟨Nat.find hex, Nat.find_min' hex h, ?_, Nat.find_spec hex⟩
  intro j hj
  exact Nat.lt_of_not_le (Nat.find_min hex hj)

/-- Before the ticks have passed, the low word is short of its target: it has either not
rolled over, or has started again from 0. -/
theorem low_lt_of_lt (hmono : Monotone (counter frames)) {ticks i : ℕ}
    (h : reading frames s (i + 1) < reading frames s 0 + ticks) :
    reading frames s (i + 1) % 2 ^ 32 < reading frames s 0 % 2 ^ 32 + ticks := by
  have hle := monotone_reading (s := s) hmono (Nat.zero_le (i + 1))
  omega

/-- A delay ends at the right poll, and it ends if the counter can get that far, exactly
when at that poll the low word has come as far beyond that of the initial reading as the
whole counter has to. -/
theorem msDelay_on_time_iff (h : Initialised frames s) (hdelay : 0 ≤ delay.toInt)
    (hmono : Monotone (counter frames)) (hpasses : ∀ v < 2 ^ 64, ∃ n, v ≤ counter frames n) :
    ((∀ yields, ExitsAfter frames s delay yields ↔
        FirstPassed frames s (delayTicks s delay) yields) ∧
      (reading frames s 0 + delayTicks s delay < 2 ^ 64 →
        ∃ yields, ExitsAfter frames s delay yields)) ↔
    ∀ yields, FirstPassed frames s (delayTicks s delay) yields →
      reading frames s 0 % 2 ^ 32 + delayTicks s delay ≤
        reading frames s (yields + 1) % 2 ^ 32 := by
  constructor
  · rintro ⟨hexits, -⟩ yields hfirst
    exact ((exitsAfter_iff h hdelay yields).mp ((hexits yields).mpr hfirst)).2
  · intro hlow
    have hexits : ∀ yields, ExitsAfter frames s delay yields ↔
        FirstPassed frames s (delayTicks s delay) yields := by
      intro yields
      rw [exitsAfter_iff h hdelay]
      constructor
      · rintro ⟨hearlier, hlast⟩
        -- Whichever reading passes first has passed in its low word, too.
        have hpassed : reading frames s 0 + delayTicks s delay ≤ reading frames s (yields + 1) := by
          by_contra hlt
          have hshort := low_lt_of_lt hmono (Nat.lt_of_not_le hlt)
          omega
        obtain ⟨first, hle, hfirst⟩ := exists_firstPassed hpassed
        rcases Nat.lt_or_eq_of_le hle with hlt | rfl
        · have hmissed := hearlier first hlt
          have hreached := hlow first hfirst
          omega
        · exact hfirst
      · intro hfirst
        exact ⟨fun i hi => low_lt_of_lt hmono (hfirst.1 i hi), hlow yields hfirst⟩
    refine ⟨hexits, fun hbound => ?_⟩
    -- The counter passes the target at some access, and a later poll finds it there.
    obtain ⟨n, hn⟩ := hpasses _ hbound
    have hreached : reading frames s 0 + delayTicks s delay ≤ reading frames s (n + 1) := by
      have haccess := le_sampleAccess_ticksAfter frames s (n + 1)
      exact hn.trans (hmono (by omega))
    obtain ⟨first, -, hfirst⟩ := exists_firstPassed hreached
    exact ⟨first, (hexits first).mpr hfirst⟩

end Readings

/-- A started timer whose counter runs from `start` by 4096 ticks an access, up to its
greatest value. -/
def runningFrames (start : ℕ) : ℕ → TimerFrame := fun i =>
  ⟨CNTCR_EN ||| CNTCR_FCR0, 0#32, BitVec.ofNat 64 (min (start + 4096 * i) (2 ^ 64 - 1)),
    8000000#32, fun _ => 0#32⟩

theorem counter_runningFrames (start i : ℕ) :
    counter (runningFrames start) i = min (start + 4096 * i) (2 ^ 64 - 1) := by
  rw [counter, runningFrames, BitVec.toNat_ofNat]
  omega

theorem monotone_runningFrames (start : ℕ) : Monotone (counter (runningFrames start)) := by
  intro i j hij
  rw [counter_runningFrames, counter_runningFrames]
  omega

theorem runningFrames_passes (start : ℕ) :
    ∀ v < 2 ^ 64, ∃ n, v ≤ counter (runningFrames start) n := by
  intro v hv
  refine ⟨v, ?_⟩
  rw [counter_runningFrames]
  omega

/-- The variables after `initialise_and_start_timer` on these frames. -/
def runningStart (start : ℕ) : TimerState :=
  initialiseAndStartTimer (runningFrames start) ⟨0#64, 0, 0#32, []⟩

theorem initialised_runningStart (start : ℕ) :
    Initialised (runningFrames start) (runningStart start) :=
  initialised_initialise fun _ _ => rfl

/-- From 0 on, a delay of one millisecond at 8 MHz ends at the poll before the first yield,
which has already come late enough. -/
theorem msDelay_on_time_from_zero : ExitsAfter (runningFrames 0) (runningStart 0) 1#32 0 := by
  have hdelay : 0 ≤ (1#32).toInt := by decide
  have hfirst : FirstPassed (runningFrames 0) (runningStart 0)
      (delayTicks (runningStart 0) 1#32) 0 := ⟨by omega, by decide⟩
  have hlow : ∀ yields, FirstPassed (runningFrames 0) (runningStart 0)
      (delayTicks (runningStart 0) 1#32) yields →
      reading (runningFrames 0) (runningStart 0) 0 % 2 ^ 32 +
        delayTicks (runningStart 0) 1#32 ≤
        reading (runningFrames 0) (runningStart 0) (yields + 1) % 2 ^ 32 := by
    intro yields hyields
    cases yields with
    | zero => decide
    | succ yields =>
      have hearlier := hyields.1 0 (by omega)
      exact absurd hearlier (by decide)
  exact (((msDelay_on_time_iff (initialised_runningStart 0) hdelay (monotone_runningFrames 0)
    (runningFrames_passes 0)).mpr hlow).1 0).mpr hfirst

/-- The low word rolls over in the first of the 8000 ticks to wait for, and the loop never
ends. -/
theorem msDelay_misses_rollover :
    (¬ ∀ (frames : ℕ → TimerFrame) (s : TimerState) (delay : BitVec 32), Initialised frames s →
      0 ≤ delay.toInt → Monotone (counter frames) →
      (∀ v < 2 ^ 64, ∃ n, v ≤ counter frames n) →
      reading frames s 0 + delayTicks s delay < 2 ^ 64 →
      ∃ yields, ExitsAfter frames s delay yields) ∧
    ¬ ∀ (frames : ℕ → TimerFrame) (s : TimerState) (delay : BitVec 32), Initialised frames s →
      0 ≤ delay.toInt → Monotone (counter frames) →
      (∀ v < 2 ^ 64, ∃ n, v ≤ counter frames n) →
      ∀ yields, FirstPassed frames s (delayTicks s delay) yields →
        ExitsAfter frames s delay yields := by
  let start := 0xffffc000
  have hinitialised := initialised_runningStart start
  have hdelay : 0 ≤ (1#32).toInt := by decide
  -- The low word would have to reach a target of 33 bits.
  have hnever : ∀ yields, ¬ ExitsAfter (runningFrames start) (runningStart start) 1#32 yields := by
    intro yields h
    have hlast := ((exitsAfter_iff hinitialised hdelay yields).mp h).2
    have htarget : 2 ^ 32 ≤ reading (runningFrames start) (runningStart start) 0 % 2 ^ 32 +
        delayTicks (runningStart start) 1#32 := by decide
    omega
  constructor
  · intro h
    obtain ⟨yields, hexits⟩ := h _ _ 1#32 hinitialised hdelay (monotone_runningFrames start)
      (runningFrames_passes start) (by decide)
    exact hnever yields hexits
  · intro h
    have hfirst : FirstPassed (runningFrames start) (runningStart start)
        (delayTicks (runningStart start) 1#32) 0 := ⟨by omega, by decide⟩
    exact hnever 0 (h _ _ 1#32 hinitialised hdelay (monotone_runningFrames start)
      (runningFrames_passes start) 0 hfirst)

end Sel4Xhci.Timer
