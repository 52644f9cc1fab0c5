import Sel4Xhci.Timer.SystemCounter
import Mathlib.Tactic.Ring

/-!
# Elapsed microseconds

`timer_get_us` of `timer.c` divides the tick count by the ticks of a microsecond, both
shifted left by seven bits: the divisor, rounded down, is then at most one 128th too small.

## Main definitions

* `timerGetUs` — the code

## Main results

* `timerGetUs_accurate` — no bits are shifted out, and the result is neither slow nor more
  than one 128th fast
-/

set_option autoImplicit false

namespace Sel4Xhci.Timer

/-- `ticks_per_us` of `timer_get_us`: 128 times the ticks of a microsecond. -/
def ticksPerUs (s : TimerState) : BitVec 64 := s.tickFrequency <<< 7 / 1000000#64

/-- `timer_get_us`; `none` when it divides by zero. -/
def timerGetUs (frames : ℕ → TimerFrame) (s : TimerState) : Option (BitVec 64) × TimerState :=
  let perUs := ticksPerUs s
  let (ticks, s) := getTicks frames s
  (if perUs = 0#64 then none else some (ticks <<< 7 / perUs), s)

/-- The shift by seven bits is a multiplication by 128 as long as the top seven bits are
clear. -/
theorem toNat_shift {x : BitVec 64} (h : x.toNat < 2 ^ 57) : (x <<< 7).toNat = 128 * x.toNat := by
  rw [BitVec.toNat_shiftLeft, Nat.shiftLeft_eq]
  omega

section Division

variable {f t t' d : ℕ}

/-- From one megahertz on, the divisor is too small by at most one part in 129. -/
theorem divisor_bounds (hf : 1000000 ≤ f) (hd : d = 128 * f / 1000000) :
    128 ≤ d ∧ d * 1000000 ≤ 128 * f ∧ 16384 * f ≤ 129 * 1000000 * d := by
  refine ⟨by omega, by omega, ?_⟩
  -- Below 129 the divisor is 128, which bounds the frequency from above; from 129 on, the
  -- part that rounding cuts off is less than one 129th of the divisor.
  rcases Nat.lt_or_ge (128 * f) 129000000 with hlow | hhigh
  · have hleast : 128 * f / 1000000 = 128 := by omega
    omega
  · omega

theorem quotient_not_slow (hd : 0 < d) (hle : d * 1000000 ≤ 128 * f) :
    t * 1000000 / f ≤ 128 * t / d := by
  rw [Nat.le_div_iff_mul_le hd]
  have hexact : t * 1000000 / f * f ≤ t * 1000000 := Nat.div_mul_le_self _ _
  have hscaled : t * 1000000 / f * d * 1000000 ≤ 128 * t * 1000000 := by
    calc t * 1000000 / f * d * 1000000
        = t * 1000000 / f * (d * 1000000) := by ring
      _ ≤ t * 1000000 / f * (128 * f) := Nat.mul_le_mul_left _ hle
      _ = 128 * (t * 1000000 / f * f) := by ring
      _ ≤ 128 * (t * 1000000) := Nat.mul_le_mul_left _ hexact
      _ = 128 * t * 1000000 := by ring
  omega

theorem quotient_hardly_fast (hge : 16384 * f ≤ 129 * 1000000 * d) :
    128 * f * (128 * t / d) ≤ 129 * t * 1000000 := by
  have hexact : 128 * t / d * d ≤ 128 * t := Nat.div_mul_le_self _ _
  have hscaled : 128 * f * (128 * t / d) * 128 ≤ 129 * t * 1000000 * 128 := by
    calc 128 * f * (128 * t / d) * 128
        = 16384 * f * (128 * t / d) := by ring
      _ ≤ 129 * 1000000 * d * (128 * t / d) := Nat.mul_le_mul_right _ hge
      _ = 129 * 1000000 * (128 * t / d * d) := by ring
      _ ≤ 129 * 1000000 * (128 * t) := Nat.mul_le_mul_left _ hexact
      _ = 129 * t * 1000000 * 128 := by ring
  omega

end Division

section Elapsed

variable {frames : ℕ → TimerFrame} {s : TimerState}

theorem toNat_ticksPerUs (hword : s.tickFrequency.toNat < 2 ^ 32) :
    (ticksPerUs s).toNat = 128 * s.tickFrequency.toNat / 1000000 := by
  rw [ticksPerUs, BitVec.toNat_udiv, toNat_shift (by omega)]
  rfl

/-- What `timer_get_us` returns when its divisor is not zero and its shift loses nothing. -/
theorem timerGetUs_eq (hdivisor : 0 < (ticksPerUs s).toNat)
    (hticks : (getTicks frames s).1.toNat < 2 ^ 57) :
    ∃ r, (timerGetUs frames s).1 = some r ∧
      r.toNat = 128 * (getTicks frames s).1.toNat / (ticksPerUs s).toNat := by
  have hne : ticksPerUs s ≠ 0#64 := by
    intro hzero
    rw [hzero] at hdivisor
    exact absurd hdivisor (by decide)
  refine ⟨(getTicks frames s).1 <<< 7 / ticksPerUs s, ?_, ?_⟩
  · simp [timerGetUs, hne]
  · rw [BitVec.toNat_udiv, toNat_shift hticks]

/-- On a timer of one megahertz or more, for every tick count below `2 ^ 57`: neither shift
loses bits, the divisor is at least 128, the result is not slow and at most one 128th fast,
and more ticks give no smaller result. -/
theorem timerGetUs_accurate (hlow : 1000000 ≤ s.tickFrequency.toNat)
    (hword : s.tickFrequency.toNat < 2 ^ 32) (hticks : (getTicks frames s).1.toNat < 2 ^ 57) :
    (s.tickFrequency <<< 7).toNat = 128 * s.tickFrequency.toNat ∧
    ((getTicks frames s).1 <<< 7).toNat = 128 * (getTicks frames s).1.toNat ∧
    128 ≤ (ticksPerUs s).toNat ∧
    ∃ r, (timerGetUs frames s).1 = some r ∧
      (getTicks frames s).1.toNat * 1000000 / s.tickFrequency.toNat ≤ r.toNat ∧
      128 * s.tickFrequency.toNat * r.toNat ≤ 129 * (getTicks frames s).1.toNat * 1000000 ∧
      ∀ (frames' : ℕ → TimerFrame) (s' : TimerState), s'.tickFrequency = s.tickFrequency →
        (getTicks frames s).1 ≤ (getTicks frames' s').1 →
        (getTicks frames' s').1.toNat < 2 ^ 57 →
        ∃ r', (timerGetUs frames' s').1 = some r' ∧ r ≤ r' := by
  obtain ⟨hleast, hle, hge⟩ := divisor_bounds hlow (toNat_ticksPerUs hword)
  have hdivisor : 0 < (ticksPerUs s).toNat := by omega
  obtain ⟨r, hr, hvalue⟩ := timerGetUs_eq hdivisor hticks
  refine ⟨toNat_shift (by omega), toNat_shift hticks, hleast, r, hr, ?_, ?_, ?_⟩
  · rw [hvalue]
    exact quotient_not_slow hdivisor hle
  · rw [hvalue]
    exact quotient_hardly_fast hge
  · -- The divisor is the same at both readings, and division is monotone.
    intro frames' s' hfrequency hmore hticks'
    have hsame : ticksPerUs s' = ticksPerUs s := by rw [ticksPerUs, hfrequency, ticksPerUs]
    obtain ⟨r', hr', hvalue'⟩ := timerGetUs_eq (hsame ▸ hdivisor) hticks'
    refine ⟨r', hr', ?_⟩
    rw [BitVec.le_def, hvalue, hvalue', hsame]
    exact Nat.div_le_div_right (Nat.mul_le_mul_left 128 hmore)

end Elapsed

/-- A reading of 0x1000b00000000 at 8 MHz. -/
theorem timerGetUs_accurate_at_8MHz :
    128 ≤ (ticksPerUs justStarted).toNat ∧
    ∃ r, (timerGetUs (steppingFrames 0#64 8#64 2) justStarted).1 = some r ∧
      0x1000b00000000 * 1000000 / 8000000 ≤ r.toNat ∧
      128 * 8000000 * r.toNat ≤ 129 * 0x1000b00000000 * 1000000 := by
  have h := @timerGetUs_accurate (steppingFrames 0#64 8#64 2) justStarted
    (by decide) (by decide) (by decide)
  obtain ⟨-, -, hdivisor, r, hr, hslow, hfast, -⟩ := h
  exact ⟨hdivisor, r, hr, hslow, hfast⟩

end Sel4Xhci.Timer
