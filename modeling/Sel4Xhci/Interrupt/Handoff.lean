import Sel4Xhci.Semantics.Doorbell

/-!
# From the controller's interrupt to the soft interrupt

An event of the controller passes through two domains. `hardware_interrupts` takes the
interrupt: `xhci_intr1` acknowledges it at the controller in four register accesses, and
`xhci_intr` then signals channel 7. `software_interrupts` takes that signal and lets
`xhci_softintr` drain the events. Events may arrive between any two of these steps.

The registers are modelled by what reading and writing them does. Their bit masks and
`xhci_softintr` belong to NetBSD: the masks are a parameter with the laws the handler
relies on, and the soft interrupt drains whatever is there at its final check. `init` of
`xhci_stub` hands the softc to both domains before it attaches the controller. The spin
lock of `xhci_intr` is left out: nobody else modelled here takes it.

## Main definitions

* `XhciBits` — the masks
* `UsbIntr`, `usbIntr` — controller, kernel and the three domains, access by access
* `UsbIntr.doorbell` — what of it a doorbell sees

## Main results

* `usbIntr_simulates` — the hand-off refines a doorbell
* `event_not_lost` — an undrained event is never forgotten
* `exec_intr1_alone`, `xhciIntr1_acknowledges` — what the accesses of `xhci_intr1` add up to
* `early_return_unasserted` — `xhci_intr1` turns back only when no interrupt is asserted
* `irq_enabled_of_asserted` — an asserted interrupt that nobody handles gets delivered
-/

set_option autoImplicit false

namespace Sel4Xhci.Interrupt

open Semantics

/-- The masks of `USBSTS` and `IMAN` that the handler uses, and the bits of `USBSTS` that
a written 1 clears. -/
structure XhciBits where
  stsHse : BitVec 32
  stsEint : BitVec 32
  stsPcd : BitVec 32
  stsHce : BitVec 32
  stsRsvdP0 : BitVec 32
  stsWriteClear : BitVec 32
  imanIntrPend : BitVec 32
  eint_ne_zero : stsEint ≠ 0#32
  eint_kept : stsEint &&& stsRsvdP0 = stsEint
  eint_clears : stsEint &&& stsWriteClear = stsEint
  intrPend_ne_zero : imanIntrPend ≠ 0#32

/-- `hardware_interrupts`, in `notified(6)`: before the named access. -/
inductive HwPc
  | idle
  | testDying
  | readSts
  | writeSts (usbsts : BitVec 32)
  | readIman
  | writeIman (iman : BitVec 32)
  | notify
  | ack
  deriving DecidableEq, Repr

/-- `software_interrupts`, in `notified(7)`. -/
inductive SwPc
  | idle
  | draining
  | returning
  deriving DecidableEq, Repr

/-- `init` of `xhci_stub`, as far as it concerns interrupts. -/
inductive BootPc
  | shareHard
  | shareSoft
  | attach
  | running
  deriving DecidableEq, Repr

/-- The controller's registers and undrained events; the kernel's mask and the two
channels; the domains and what they have been told. -/
structure UsbIntr where
  usbsts : BitVec 32
  iman : BitVec 32
  undrained : ℕ
  masked : Bool
  irqPending : Bool
  softPending : Bool
  hw : HwPc
  sw : SwPc
  hwSoftc : Bool
  swSoftc : Bool
  dying : Bool
  boot : BootPc
  deriving DecidableEq

/-- Who acts. -/
inductive IntrLabel
  | post
  | status (set : BitVec 32)
  | irq
  | hw
  | swWake
  | drain
  | finalCheck
  | swReturn
  | boot
  | die
  deriving DecidableEq

variable (bits : XhciBits)

/-- The bits of `USBSTS` that make an interrupt this controller's. -/
def XhciBits.ours : BitVec 32 := bits.stsHse ||| bits.stsEint ||| bits.stsPcd ||| bits.stsHce

/-- The level of the interrupt line: the pending bit. -/
def XhciBits.asserted (iman : BitVec 32) : Bool := iman &&& bits.imanIntrPend != 0#32

/-- Writing `USBSTS`: a 1 clears a status bit. -/
def XhciBits.writeSts (usbsts value : BitVec 32) : BitVec 32 :=
  usbsts &&& ~~~(value &&& bits.stsWriteClear)

/-- Writing `IMAN`: a 1 clears the pending bit, the other bits are stored. -/
def XhciBits.writeIman (iman value : BitVec 32) : BitVec 32 :=
  iman &&& bits.imanIntrPend &&& ~~~value ||| value &&& ~~~bits.imanIntrPend

namespace UsbIntr

variable (s : UsbIntr)

/-- The interrupt is asserted. -/
def Asserted : Prop := bits.asserted s.iman = true

instance : Decidable (s.Asserted bits) := inferInstanceAs (Decidable (_ = _))

/-- The next access of `notified(6)`, `xhci_intr` and `xhci_intr1`. -/
def hwStep : Option UsbIntr :=
  match s.hw with
  | .idle =>
    if s.irqPending then
      some { s with irqPending := false, hw := if s.hwSoftc then .testDying else .ack }
    else none
  | .testDying => some { s with hw := if s.dying then .ack else .readSts }
  | .readSts =>
    some { s with hw := if s.usbsts &&& bits.ours = 0#32 then .ack else .writeSts s.usbsts }
  -- `EINT` is cleared before the pending bit, from the value that was read.
  | .writeSts usbsts =>
    some { s with usbsts := bits.writeSts s.usbsts (usbsts &&& bits.stsRsvdP0), hw := .readIman }
  | .readIman => some { s with hw := .writeIman (s.iman ||| bits.imanIntrPend) }
  | .writeIman iman => some { s with iman := bits.writeIman s.iman iman, hw := .notify }
  | .notify => some { s with softPending := true, hw := .ack }
  -- `microkit_irq_ack` follows every return of `xhci_intr`.
  | .ack => some { s with masked := false, hw := .idle }

/-- The next step of `init`. A domain that is told the softc is between notifications. -/
def bootStep : Option UsbIntr :=
  match s.boot with
  | .shareHard =>
    if s.hw = .idle then some { s with hwSoftc := true, boot := .shareSoft } else none
  | .shareSoft =>
    if s.sw = .idle then some { s with swSoftc := true, boot := .attach } else none
  | .attach => some { s with boot := .running }
  | .running => none

def step : IntrLabel → Option UsbIntr
  | .post =>
    if s.boot = .running then
      some { s with
        usbsts := s.usbsts ||| bits.stsEint
        iman := s.iman ||| bits.imanIntrPend
        undrained := s.undrained + 1 }
    else none
  | .status set => some { s with usbsts := s.usbsts ||| set }
  | .irq =>
    if s.Asserted bits ∧ s.masked = false then some { s with masked := true, irqPending := true }
    else none
  | .hw => s.hwStep bits
  -- Without the softc the handler only prints, and the signal is gone.
  | .swWake =>
    if s.sw = .idle ∧ s.softPending = true then
      some { s with softPending := false, sw := if s.swSoftc then .draining else .idle }
    else none
  | .drain =>
    if s.sw = .draining ∧ 0 < s.undrained then some { s with undrained := s.undrained - 1 }
    else none
  | .finalCheck =>
    if s.sw = .draining ∧ s.undrained = 0 then some { s with sw := .returning } else none
  | .swReturn => if s.sw = .returning then some { s with sw := .idle } else none
  | .boot => s.bootStep
  | .die => some { s with dying := true }

/-- Before `init` shares the softc: no event, both domains idle, nothing masked. The
registers and the channels may hold anything. -/
structure Initial : Prop where
  boot : s.boot = .shareHard
  undrained : s.undrained = 0
  hw : s.hw = .idle
  sw : s.sw = .idle
  masked : s.masked = false

end UsbIntr

/-- Controller, kernel and domains as a machine. -/
def usbIntr : Machine UsbIntr IntrLabel where
  start := UsbIntr.Initial
  step s := s.step bits

/-- The domain is in `xhci_intr`. -/
def HwPc.InIntr (pc : HwPc) : Prop := pc ≠ .idle ∧ pc ≠ .ack

/-- The handler has begun to acknowledge and still has to signal channel 7. -/
def HwPc.owes : HwPc → Bool
  | .readIman => true
  | .writeIman _ => true
  | .notify => true
  | .idle => false
  | .testDying => false
  | .readSts => false
  | .writeSts _ => false
  | .ack => false

theorem HwPc.inIntr_of_owes {pc : HwPc} (h : pc.owes = true) : pc.InIntr := by
  cases pc with
  | readIman | writeIman _ | notify => exact ⟨nofun, nofun⟩
  | idle | testDying | readSts | writeSts _ | ack => cases h

/-! ## Registers -/

variable {bits}

/-- After an event the line is up. -/
theorem XhciBits.asserted_or (iman : BitVec 32) :
    bits.asserted (iman ||| bits.imanIntrPend) = true := by
  have habsorb : (iman ||| bits.imanIntrPend) &&& bits.imanIntrPend = bits.imanIntrPend := by
    ext i hi
    simp only [BitVec.getElem_and, BitVec.getElem_or]
    cases iman[i] <;> cases bits.imanIntrPend[i] <;> rfl
  rw [asserted, habsorb, bne_iff_ne]
  exact bits.intrPend_ne_zero

theorem XhciBits.writeIman_pend (iman value : BitVec 32) :
    bits.writeIman iman value &&& bits.imanIntrPend =
      iman &&& bits.imanIntrPend &&& ~~~value := by
  ext i hi
  simp only [writeIman, BitVec.getElem_and, BitVec.getElem_or, BitVec.getElem_not]
  cases iman[i] <;> cases value[i] <;> cases bits.imanIntrPend[i] <;> rfl

/-- A write of `IMAN` never raises the line. -/
theorem XhciBits.asserted_of_writeIman {iman value : BitVec 32}
    (h : bits.asserted (bits.writeIman iman value) = true) : bits.asserted iman = true := by
  rw [asserted, bne_iff_ne] at h ⊢
  intro hzero
  rw [writeIman_pend, hzero, BitVec.zero_and] at h
  exact h rfl

/-- Writing `IMAN` with the pending bit set takes the line down. -/
theorem XhciBits.asserted_writeIman_or (iman value : BitVec 32) :
    bits.asserted (bits.writeIman iman (value ||| bits.imanIntrPend)) = false := by
  have hclear : bits.writeIman iman (value ||| bits.imanIntrPend) &&& bits.imanIntrPend = 0#32 := by
    rw [writeIman_pend]
    ext i hi
    simp only [BitVec.getElem_and, BitVec.getElem_or, BitVec.getElem_not, BitVec.getElem_zero]
    cases iman[i] <;> cases value[i] <;> cases bits.imanIntrPend[i] <;> rfl
  rw [asserted, hclear]
  rfl

/-- The first write acknowledges an `EINT` that was read. -/
theorem XhciBits.writeSts_acknowledges {read : BitVec 32} (usbsts : BitVec 32)
    (h : read &&& bits.stsEint = bits.stsEint) :
    bits.writeSts usbsts (read &&& bits.stsRsvdP0) &&& bits.stsEint = 0#32 := by
  ext i hi
  have hread : (read &&& bits.stsEint)[i] = bits.stsEint[i] := by rw [h]
  have hkept : (bits.stsEint &&& bits.stsRsvdP0)[i] = bits.stsEint[i] := by rw [bits.eint_kept]
  have hclears : (bits.stsEint &&& bits.stsWriteClear)[i] = bits.stsEint[i] := by
    rw [bits.eint_clears]
  simp only [writeSts, BitVec.getElem_and, BitVec.getElem_not, BitVec.getElem_zero] at *
  cases heint : bits.stsEint[i] <;> simp_all

/-- A status bit stays when others are set. -/
theorem XhciBits.eint_or {usbsts : BitVec 32} (h : usbsts &&& bits.stsEint ≠ 0#32)
    (set : BitVec 32) : (usbsts ||| set) &&& bits.stsEint ≠ 0#32 := by
  intro hzero
  rw [BitVec.and_or_distrib_right, BitVec.or_eq_zero_iff] at hzero
  exact h hzero.1

/-! ## What each step does -/

namespace UsbIntr

variable {s s' : UsbIntr}

@[simp] theorem step_post : s.step bits .post = some s' ↔ s.boot = .running ∧ s' = { s with
    usbsts := s.usbsts ||| bits.stsEint
    iman := s.iman ||| bits.imanIntrPend
    undrained := s.undrained + 1 } := by
  simp [step, eq_comm (b := s')]

@[simp] theorem step_irq : s.step bits .irq = some s' ↔
    (s.Asserted bits ∧ s.masked = false) ∧ s' = { s with masked := true, irqPending := true } := by
  simp [step, eq_comm (b := s')]

@[simp] theorem step_swWake : s.step bits .swWake = some s' ↔
    (s.sw = .idle ∧ s.softPending = true) ∧
      s' = { s with softPending := false, sw := if s.swSoftc then .draining else .idle } := by
  simp [step, eq_comm (b := s')]

@[simp] theorem step_drain : s.step bits .drain = some s' ↔
    (s.sw = .draining ∧ 0 < s.undrained) ∧ s' = { s with undrained := s.undrained - 1 } := by
  simp [step, eq_comm (b := s')]

@[simp] theorem step_finalCheck : s.step bits .finalCheck = some s' ↔
    (s.sw = .draining ∧ s.undrained = 0) ∧ s' = { s with sw := .returning } := by
  simp [step, eq_comm (b := s')]

@[simp] theorem step_swReturn : s.step bits .swReturn = some s' ↔
    s.sw = .returning ∧ s' = { s with sw := .idle } := by
  simp [step, eq_comm (b := s')]

/-- The three steps of `init`. -/
theorem bootStep_cases (hs : s.bootStep = some s') :
    s.boot = .shareHard ∧ s.hw = .idle ∧ s' = { s with hwSoftc := true, boot := .shareSoft } ∨
    s.boot = .shareSoft ∧ s.sw = .idle ∧ s' = { s with swSoftc := true, boot := .attach } ∨
    s.boot = .attach ∧ s' = { s with boot := .running } := by
  cases hboot : s.boot with
  | shareHard =>
    simp only [bootStep, hboot, Option.ite_none_right_eq_some, Option.some.injEq] at hs
    exact .inl ⟨rfl, hs.1, hs.2.symm⟩
  | shareSoft =>
    simp only [bootStep, hboot, Option.ite_none_right_eq_some, Option.some.injEq] at hs
    exact .inr (.inl ⟨rfl, hs.1, hs.2.symm⟩)
  | attach =>
    simp only [bootStep, hboot, Option.some.injEq] at hs
    exact .inr (.inr ⟨rfl, hs.symm⟩)
  | running => simp [bootStep, hboot] at hs

variable (bits s) in
/-- The accesses of `hardware_interrupts`, one by one. -/
inductive HwAccess : UsbIntr → Prop
  | wake (hpc : s.hw = .idle) (hirq : s.irqPending = true) : HwAccess
      { s with irqPending := false, hw := if s.hwSoftc then .testDying else .ack }
  | testDying (hpc : s.hw = .testDying) : HwAccess
      { s with hw := if s.dying then .ack else .readSts }
  | readSts (hpc : s.hw = .readSts) : HwAccess
      { s with hw := if s.usbsts &&& bits.ours = 0#32 then .ack else .writeSts s.usbsts }
  | writeSts (usbsts : BitVec 32) (hpc : s.hw = .writeSts usbsts) : HwAccess
      { s with usbsts := bits.writeSts s.usbsts (usbsts &&& bits.stsRsvdP0), hw := .readIman }
  | readIman (hpc : s.hw = .readIman) : HwAccess
      { s with hw := .writeIman (s.iman ||| bits.imanIntrPend) }
  | writeIman (iman : BitVec 32) (hpc : s.hw = .writeIman iman) : HwAccess
      { s with iman := bits.writeIman s.iman iman, hw := .notify }
  | notify (hpc : s.hw = .notify) : HwAccess { s with softPending := true, hw := .ack }
  | ack (hpc : s.hw = .ack) : HwAccess { s with masked := false, hw := .idle }

/-- A step of `hardware_interrupts` is one of its accesses. -/
theorem hwAccess_of_hwStep (hs : s.hwStep bits = some s') : s.HwAccess bits s' := by
  cases hpc : s.hw with
  | idle =>
    simp only [hwStep, hpc, Option.ite_none_right_eq_some, Option.some.injEq] at hs
    obtain ⟨hirq, rfl⟩ := hs
    exact .wake hpc hirq
  | testDying =>
    simp only [hwStep, hpc, Option.some.injEq] at hs
    exact hs ▸ .testDying hpc
  | readSts =>
    simp only [hwStep, hpc, Option.some.injEq] at hs
    exact hs ▸ .readSts hpc
  | writeSts usbsts =>
    simp only [hwStep, hpc, Option.some.injEq] at hs
    exact hs ▸ .writeSts usbsts hpc
  | readIman =>
    simp only [hwStep, hpc, Option.some.injEq] at hs
    exact hs ▸ .readIman hpc
  | writeIman iman =>
    simp only [hwStep, hpc, Option.some.injEq] at hs
    exact hs ▸ .writeIman iman hpc
  | notify =>
    simp only [hwStep, hpc, Option.some.injEq] at hs
    exact hs ▸ .notify hpc
  | ack =>
    simp only [hwStep, hpc, Option.some.injEq] at hs
    exact hs ▸ .ack hpc

/-- `hardware_interrupts` touches neither the events nor the other domains. -/
theorem hwStep_frame (hs : s.hwStep bits = some s') :
    s'.undrained = s.undrained ∧ s'.sw = s.sw ∧ s'.swSoftc = s.swSoftc ∧ s'.boot = s.boot := by
  cases hwAccess_of_hwStep hs <;> exact ⟨rfl, rfl, rfl, rfl⟩

/-- What `software_interrupts` and `init` do, or a detach, leaves the registers, the kernel
and `hardware_interrupts` alone. -/
theorem otherStep_frame {l : IntrLabel} (hs : s.step bits l = some s')
    (hl : l ∈ [.swWake, .drain, .finalCheck, .swReturn, .boot, .die]) :
    s'.usbsts = s.usbsts ∧ s'.iman = s.iman ∧ s'.masked = s.masked ∧
      s'.irqPending = s.irqPending ∧ s'.hw = s.hw := by
  cases l with
  | post | status _ | irq | hw => simp at hl
  -- The software side and the boot never touch the registers.
  | swWake =>
    obtain ⟨-, rfl⟩ := step_swWake.mp hs
    exact ⟨rfl, rfl, rfl, rfl, rfl⟩
  | drain =>
    obtain ⟨-, rfl⟩ := step_drain.mp hs
    exact ⟨rfl, rfl, rfl, rfl, rfl⟩
  | finalCheck =>
    obtain ⟨-, rfl⟩ := step_finalCheck.mp hs
    exact ⟨rfl, rfl, rfl, rfl, rfl⟩
  | swReturn =>
    obtain ⟨-, rfl⟩ := step_swReturn.mp hs
    exact ⟨rfl, rfl, rfl, rfl, rfl⟩
  | boot =>
    rcases bootStep_cases hs with ⟨-, -, rfl⟩ | ⟨-, -, rfl⟩ | ⟨-, rfl⟩ <;>
      exact ⟨rfl, rfl, rfl, rfl, rfl⟩
  | die =>
    obtain rfl := Option.some.inj hs
    exact ⟨rfl, rfl, rfl, rfl, rfl⟩

end UsbIntr

/-! ## The doorbell -/

namespace UsbIntr

variable (bits) in
/-- The hand-off as a doorbell: the interrupt line, the signal the handler owes, the
signal on channel 7, the soft interrupt. -/
def doorbell (s : UsbIntr) : Doorbell where
  work := s.undrained
  line := bits.asserted s.iman
  owed := s.hw.owes
  bell := s.softPending
  draining := s.sw = .draining

/-- There are no events before the controller is attached, and then `software_interrupts`
has the softc. -/
structure Booted (s : UsbIntr) : Prop where
  soft : s.boot = .attach ∨ s.boot = .running → s.swSoftc = true
  empty : s.boot ≠ .running → s.undrained = 0

variable (bits) in
/-- The doorbell a state stands for. -/
def Relays (s : UsbIntr) (d : Doorbell) : Prop := d = s.doorbell bits ∧ s.Booted

variable {s s' : UsbIntr}

theorem Booted.step {l : IntrLabel} (h : s.Booted) (hs : s.step bits l = some s') : s'.Booted := by
  cases l with
  | post =>
    obtain ⟨hrunning, rfl⟩ := step_post.mp hs
    exact ⟨h.soft, fun hboot => absurd hrunning hboot⟩
  | status set =>
    obtain rfl := Option.some.inj hs
    exact ⟨h.soft, h.empty⟩
  | irq =>
    obtain ⟨-, rfl⟩ := step_irq.mp hs
    exact ⟨h.soft, h.empty⟩
  | hw =>
    obtain ⟨hundrained, -, hsoftc, hboot⟩ := hwStep_frame hs
    exact ⟨by rw [hboot, hsoftc]; exact h.soft, by rw [hboot, hundrained]; exact h.empty⟩
  | swWake =>
    obtain ⟨-, rfl⟩ := step_swWake.mp hs
    exact ⟨h.soft, h.empty⟩
  -- The list is empty before boot, so there is nothing to drain.
  | drain =>
    obtain ⟨⟨-, hpos⟩, rfl⟩ := step_drain.mp hs
    refine ⟨h.soft, fun hboot => ?_⟩
    have hempty := h.empty hboot
    omega
  | finalCheck =>
    obtain ⟨-, rfl⟩ := step_finalCheck.mp hs
    exact ⟨h.soft, h.empty⟩
  | swReturn =>
    obtain ⟨-, rfl⟩ := step_swReturn.mp hs
    exact ⟨h.soft, h.empty⟩
  -- Three stages: the softc is shared before the controller runs.
  | boot =>
    rcases bootStep_cases hs with ⟨hboot, -, rfl⟩ | ⟨hboot, -, rfl⟩ | ⟨hboot, rfl⟩
    · exact ⟨by simp, fun _ => h.empty (by simp [hboot])⟩
    · exact ⟨fun _ => rfl, fun _ => h.empty (by simp [hboot])⟩
    · exact ⟨fun _ => h.soft (.inl hboot), fun hne => absurd rfl hne⟩
  | die =>
    obtain rfl := Option.some.inj hs
    exact ⟨h.soft, h.empty⟩

/-- An access of `hardware_interrupts` is at most one operation of the relay. -/
theorem doorbell_hwStep (hs : s.hwStep bits = some s') :
    ∃ ops, Doorbell.machine.exec (s.doorbell bits) ops = some (s'.doorbell bits) := by
  cases hwAccess_of_hwStep hs with
  | wake hpc hirq =>
    refine ⟨[], ?_⟩
    cases hsoftc : s.hwSoftc <;> simp [doorbell, hpc, HwPc.owes]
  | testDying hpc =>
    refine ⟨[], ?_⟩
    cases hdying : s.dying <;> simp [doorbell, hpc, HwPc.owes]
  | readSts hpc =>
    refine ⟨[], ?_⟩
    by_cases hours : s.usbsts &&& bits.ours = 0#32 <;>
      simp [doorbell, hpc, hours, HwPc.owes]
  | writeSts usbsts hpc =>
    -- From here on the handler is bound to signal.
    exact ⟨[.claim], by simp [Machine.exec, Doorbell.machine, doorbell, HwPc.owes]⟩
  | readIman hpc => exact ⟨[], by simp [doorbell, hpc, HwPc.owes]⟩
  | writeIman iman hpc =>
    -- The write can only take the line down.
    cases hline : bits.asserted (bits.writeIman s.iman iman) with
    | false =>
      exact ⟨[.lower], by
        simp [Machine.exec, Doorbell.machine, doorbell, hpc, HwPc.owes, hline]⟩
    | true =>
      have hbefore := XhciBits.asserted_of_writeIman hline
      exact ⟨[], by simp [doorbell, hpc, HwPc.owes, hline, hbefore]⟩
  | notify hpc =>
    exact ⟨[.ring], by simp [Machine.exec, Doorbell.machine, doorbell, HwPc.owes]⟩
  | ack hpc => exact ⟨[], by simp [doorbell, hpc, HwPc.owes]⟩

/-- Every step is a sequence of operations on the doorbell. -/
theorem doorbell_step {l : IntrLabel} (hbooted : s.Booted) (hs : s.step bits l = some s') :
    ∃ ops, Doorbell.machine.exec (s.doorbell bits) ops = some (s'.doorbell bits) := by
  cases l with
  | post =>
    obtain ⟨-, rfl⟩ := step_post.mp hs
    have hline := bits.asserted_or s.iman
    exact ⟨[.post], by simp [Machine.exec, Doorbell.machine, doorbell, hline]⟩
  | status set =>
    obtain rfl := Option.some.inj hs
    exact ⟨[], rfl⟩
  | irq =>
    obtain ⟨-, rfl⟩ := step_irq.mp hs
    exact ⟨[], rfl⟩
  | hw => exact doorbell_hwStep hs
  | swWake =>
    obtain ⟨⟨hidle, hpending⟩, rfl⟩ := step_swWake.mp hs
    cases hsoftc : s.swSoftc with
    | true =>
      exact ⟨[.wake], by
        simp [Machine.exec, Doorbell.machine, doorbell, hpending]⟩
    | false =>
      -- Without the softc the signal is lost, but there is nothing to drain yet.
      have hempty : s.undrained = 0 := by
        refine hbooted.empty fun hboot => ?_
        rw [hbooted.soft (.inr hboot)] at hsoftc
        cases hsoftc
      exact ⟨[.wake, .finish], by
        simp [Machine.exec, Doorbell.machine, doorbell, hpending, hempty]⟩
  | drain =>
    obtain ⟨⟨hdraining, hpos⟩, rfl⟩ := step_drain.mp hs
    exact ⟨[.drain], by
      simp [Machine.exec, Doorbell.machine, doorbell, hdraining, hpos]⟩
  | finalCheck =>
    obtain ⟨⟨hdraining, hempty⟩, rfl⟩ := step_finalCheck.mp hs
    exact ⟨[.finish], by
      simp [Machine.exec, Doorbell.machine, doorbell, hdraining, hempty]⟩
  | swReturn =>
    obtain ⟨hreturning, rfl⟩ := step_swReturn.mp hs
    exact ⟨[], by simp [doorbell, hreturning]⟩
  | boot =>
    rcases bootStep_cases hs with ⟨-, -, rfl⟩ | ⟨-, -, rfl⟩ | ⟨-, rfl⟩ <;> exact ⟨[], rfl⟩
  | die =>
    obtain rfl := Option.some.inj hs
    exact ⟨[], rfl⟩

end UsbIntr

/-- The hand-off refines a doorbell, from before the softc is shared. -/
theorem usbIntr_simulates : (usbIntr bits).Simulates Doorbell.machine (UsbIntr.Relays bits) where
  start s hs := by
    refine ⟨s.doorbell bits, hs.undrained, rfl, ?_, fun _ => hs.undrained⟩
    simp [hs.boot]
  step := by
    rintro s - l s' ⟨rfl, hbooted⟩ hs
    obtain ⟨ops, hops⟩ := UsbIntr.doorbell_step hbooted hs
    exact ⟨ops, _, hops, rfl, hbooted.step hs⟩

/-! ## No lost event -/

section Runs

variable {s₀ s : UsbIntr} {labels : List IntrLabel}

/-- In every state of every interleaving: while an event is undrained, the interrupt is
asserted, or `xhci_intr` is handling it, or channel 7 is signalled, or the soft interrupt
is running. This holds also while the controller is dying: then the line stays up. -/
theorem event_not_lost (hstart : s₀.Initial) (hrun : (usbIntr bits).exec s₀ labels = some s)
    (hevent : 0 < s.undrained) :
    s.Asserted bits ∨ s.hw.InIntr ∨ s.softPending = true ∨ s.sw ≠ .idle := by
  obtain ⟨d, ⟨rfl, -⟩, hcovered⟩ := Doorbell.covered_of_simulates usbIntr_simulates hstart hrun
  -- A doorbell with work is covered in one of four ways.
  rcases hcovered hevent with hline | howed | hbell | hdraining
  · exact .inl hline
  · exact .inr (.inl (HwPc.inIntr_of_owes howed))
  · exact .inr (.inr (.inl hbell))
  · have hsw : s.sw = .draining := of_decide_eq_true hdraining
    exact .inr (.inr (.inr (by rw [hsw]; nofun)))

end Runs

/-- Masks with the bits where the xHCI specification has them. -/
def specBits : XhciBits where
  stsHse := 0x4#32
  stsEint := 0x8#32
  stsPcd := 0x10#32
  stsHce := 0x1000#32
  stsRsvdP0 := 0x41c#32
  stsWriteClear := 0x41c#32
  imanIntrPend := 0x1#32
  eint_ne_zero := by decide
  eint_kept := by decide
  eint_clears := by decide
  intrPend_ne_zero := by decide

/-- Nothing has happened yet. -/
def UsbIntr.reset : UsbIntr :=
  ⟨0#32, 0x2#32, 0, false, false, false, .idle, .idle, false, false, false, .shareHard⟩

/-- An event that arrives after `USBSTS` was cleared and before `IMAN` is. -/
def eventBetweenClears : List IntrLabel :=
  [.boot, .boot, .boot, .post, .irq, .hw, .hw, .hw, .hw, .post, .hw, .hw]

theorem event_not_lost_betweenClears :
    ∃ s, (usbIntr specBits).exec .reset eventBetweenClears = some s ∧ s.undrained = 2 ∧
      ¬ s.Asserted specBits ∧
      (s.Asserted specBits ∨ s.hw.InIntr ∨ s.softPending = true ∨ s.sw ≠ .idle) := by
  obtain ⟨s, hrun, hobs⟩ := Option.map_eq_some_iff.mp
    (show ((usbIntr specBits).exec .reset eventBetweenClears).map
      (fun s => (s.undrained, specBits.asserted s.iman)) = some (2, false) by decide)
  obtain ⟨hevents, hline⟩ := Prod.mk.inj hobs
  refine ⟨s, hrun, hevents, ?_, event_not_lost ⟨rfl, rfl, rfl, rfl, rfl⟩ hrun (by omega)⟩
  intro hasserted
  exact absurd (hasserted.symm.trans hline) (by decide)

/-! ## The handler as a function -/

variable (bits) in
/-- `xhci_intr1`: the return value, `USBSTS` and `IMAN`. -/
def xhciIntr1 (usbsts iman : BitVec 32) : BitVec 32 × BitVec 32 × BitVec 32 :=
  if usbsts &&& bits.ours = 0#32 then (0#32, usbsts, iman)
  else (1#32, bits.writeSts usbsts (usbsts &&& bits.stsRsvdP0),
    bits.writeIman iman (iman ||| bits.imanIntrPend))

/-- The register accesses of `xhci_intr1` that follow the first. -/
def intr1Alone (ignored : Prop) [Decidable ignored] : List IntrLabel :=
  .hw :: if ignored then [] else [.hw, .hw, .hw]

/-- Accesses that nothing interrupts compute the function, and `xhci_intr` goes on to its
signal exactly when the function returns 1. -/
theorem exec_intr1_alone (s : UsbIntr) (hpc : s.hw = .readSts) :
    (usbIntr bits).exec s (intr1Alone (s.usbsts &&& bits.ours = 0#32)) = some { s with
      usbsts := (xhciIntr1 bits s.usbsts s.iman).2.1
      iman := (xhciIntr1 bits s.usbsts s.iman).2.2
      hw := if (xhciIntr1 bits s.usbsts s.iman).1 = 0#32 then .ack else .notify } := by
  by_cases hignored : s.usbsts &&& bits.ours = 0#32
  · simp [Machine.exec, usbIntr, UsbIntr.step, UsbIntr.hwStep, intr1Alone, xhciIntr1, hpc,
      hignored]
  · simp [Machine.exec, usbIntr, UsbIntr.step, UsbIntr.hwStep, intr1Alone, xhciIntr1, hpc,
      hignored]

/-- An `EINT` that was seen is acknowledged in both registers, so that the interrupt is
not taken again before the next event. -/
theorem xhciIntr1_acknowledges {usbsts : BitVec 32} (iman : BitVec 32)
    (heint : usbsts &&& bits.stsEint = bits.stsEint) :
    (xhciIntr1 bits usbsts iman).1 = 1#32 ∧
      (xhciIntr1 bits usbsts iman).2.1 &&& bits.stsEint = 0#32 ∧
      bits.asserted (xhciIntr1 bits usbsts iman).2.2 = false := by
  have hours : usbsts &&& bits.ours ≠ 0#32 := by
    intro hzero
    simp only [XhciBits.ours, BitVec.and_or_distrib_left, BitVec.or_eq_zero_iff, heint] at hzero
    exact bits.eint_ne_zero hzero.1.1.2
  rw [xhciIntr1, if_neg hours]
  exact ⟨rfl, XhciBits.writeSts_acknowledges usbsts heint, XhciBits.asserted_writeIman_or iman iman⟩

/-! ## The early return, and delivery -/

namespace UsbIntr

variable {s s' : UsbIntr}

variable (bits) in
/-- While the line is up, `EINT` is set, except between the two writes of the handler; and
the value the handler is about to write to `IMAN` has the pending bit. -/
structure Posted (s : UsbIntr) : Prop where
  eint : s.Asserted bits → s.usbsts &&& bits.stsEint ≠ 0#32 ∨ s.hw = .readIman ∨
    ∃ iman, s.hw = .writeIman iman
  pend : ∀ iman, s.hw = .writeIman iman → ∃ read, iman = read ||| bits.imanIntrPend

theorem Posted.hwStep (h : s.Posted bits) (hs : s.hwStep bits = some s') : s'.Posted bits := by
  -- Outside of the two writes, an asserted line means that `EINT` is still set.
  cases hwAccess_of_hwStep hs with
  | wake hpc hirq =>
    refine ⟨fun hline => .inl ?_, ?_⟩
    · simpa [hpc] using h.eint hline
    · cases hsoftc : s.hwSoftc <;> simp
  | testDying hpc =>
    refine ⟨fun hline => .inl ?_, ?_⟩
    · simpa [hpc] using h.eint hline
    · cases hdying : s.dying <;> simp
  | readSts hpc =>
    refine ⟨fun hline => .inl ?_, ?_⟩
    · simpa [hpc] using h.eint hline
    · by_cases hours : s.usbsts &&& bits.ours = 0#32 <;> simp [hours]
  | writeSts usbsts hpc => exact ⟨fun _ => .inr (.inl rfl), nofun⟩
  | readIman hpc =>
    refine ⟨fun _ => .inr (.inr ⟨_, rfl⟩), ?_⟩
    intro iman himan
    exact ⟨s.iman, (HwPc.writeIman.inj himan).symm⟩
  | writeIman iman hpc =>
    -- The second write takes the line down.
    obtain ⟨read, rfl⟩ := h.pend iman hpc
    refine ⟨fun hline => ?_, nofun⟩
    exact absurd (hline.symm.trans (XhciBits.asserted_writeIman_or _ _)) (by decide)
  | notify hpc => exact ⟨fun hline => .inl (by simpa [hpc] using h.eint hline), nofun⟩
  | ack hpc => exact ⟨fun hline => .inl (by simpa [hpc] using h.eint hline), nofun⟩

theorem Posted.step {l : IntrLabel} (h : s.Posted bits) (hs : s.step bits l = some s') :
    s'.Posted bits := by
  cases l with
  | post =>
    obtain ⟨-, rfl⟩ := step_post.mp hs
    refine ⟨fun _ => .inl ?_, h.pend⟩
    have habsorb : bits.stsEint &&& bits.stsEint ≠ 0#32 := by
      rw [BitVec.and_self]
      exact bits.eint_ne_zero
    simpa only [BitVec.or_comm] using XhciBits.eint_or habsorb s.usbsts
  | status set =>
    obtain rfl := Option.some.inj hs
    -- Setting bits keeps those that are set.
    refine ⟨fun hline => ?_, h.pend⟩
    rcases h.eint hline with heint | hbetween
    · exact .inl (XhciBits.eint_or heint set)
    · exact .inr hbetween
  | irq =>
    obtain ⟨-, rfl⟩ := step_irq.mp hs
    exact ⟨h.eint, h.pend⟩
  | hw => exact h.hwStep hs
  | swWake | drain | finalCheck | swReturn | boot | die =>
    -- All others leave the registers alone.
    obtain ⟨husbsts, himan, -, -, hhw⟩ := otherStep_frame hs (by simp)
    have hline : s'.Asserted bits = s.Asserted bits := by rw [Asserted, Asserted, himan]
    refine ⟨?_, ?_⟩
    · rw [hline, husbsts, hhw]
      exact h.eint
    · rw [hhw]
      exact h.pend

/-- A masked interrupt is on its way to its handler, or being handled. -/
def Acked (s : UsbIntr) : Prop := s.masked = true → s.irqPending = true ∨ s.hw ≠ .idle

theorem Acked.step {l : IntrLabel} (h : s.Acked) (hs : s.step bits l = some s') : s'.Acked := by
  intro hmasked
  cases l with
  | post =>
    obtain ⟨-, rfl⟩ := step_post.mp hs
    exact h hmasked
  | status set =>
    obtain rfl := Option.some.inj hs
    exact h hmasked
  | irq =>
    obtain ⟨-, rfl⟩ := step_irq.mp hs
    exact .inl rfl
  | hw =>
    -- Every access but the last leaves the domain away from `idle`, and the last unmasks.
    cases hwAccess_of_hwStep hs with
    | wake => cases hsoftc : s.hwSoftc <;> exact .inr nofun
    | testDying => cases hdying : s.dying <;> exact .inr nofun
    | readSts =>
      right
      dsimp only
      split_ifs <;> nofun
    | writeSts | readIman | writeIman | notify => exact .inr nofun
    | ack => cases hmasked
  | swWake | drain | finalCheck | swReturn | boot | die =>
    obtain ⟨-, -, hmask, hirq, hhw⟩ := otherStep_frame hs (by simp)
    rw [hirq, hhw]
    exact h (hmask ▸ hmasked)

end UsbIntr

section Runs

variable {s₀ s : UsbIntr} {labels : List IntrLabel}

theorem posted_of_exec (hstart : s₀.Initial)
    (hregisters : s₀.Asserted bits → s₀.usbsts &&& bits.stsEint ≠ 0#32)
    (hrun : (usbIntr bits).exec s₀ labels = some s) : s.Posted bits := by
  apply Machine.exec_induction (P := UsbIntr.Posted bits) ?_ ?_ hrun
  · intro t l t' ht hs
    exact ht.step hs
  · -- The handler is idle, so nothing is about to be written.
    exact ⟨fun hline => .inl (hregisters hline), by simp [hstart.hw]⟩

theorem acked_of_exec (hstart : s₀.Initial) (hrun : (usbIntr bits).exec s₀ labels = some s) :
    s.Acked := by
  apply Machine.exec_induction (P := UsbIntr.Acked) ?_ ?_ hrun
  · intro t l t' ht hs
    exact ht.step hs
  · intro hmasked
    rw [hstart.masked] at hmasked
    cases hmasked

/-- If the registers agree at the start, `xhci_intr1` takes an interrupt for another
device's only when this controller asserts none: the early return swallows nothing. -/
theorem early_return_unasserted (hstart : s₀.Initial)
    (hregisters : s₀.Asserted bits → s₀.usbsts &&& bits.stsEint ≠ 0#32)
    (hrun : (usbIntr bits).exec s₀ labels = some s) (hpc : s.hw = .readSts)
    (hignored : s.usbsts &&& bits.ours = 0#32) : ¬ s.Asserted bits := by
  intro hline
  have hposted := posted_of_exec hstart hregisters hrun
  have heint : s.usbsts &&& bits.stsEint ≠ 0#32 := by simpa [hpc] using hposted.eint hline
  simp only [XhciBits.ours, BitVec.and_or_distrib_left, BitVec.or_eq_zero_iff] at hignored
  exact heint hignored.1.1.2

/-- An asserted interrupt that is neither pending nor being handled can be delivered: the
kernel has been told to unmask it. -/
theorem irq_enabled_of_asserted (hstart : s₀.Initial)
    (hrun : (usbIntr bits).exec s₀ labels = some s) (hline : s.Asserted bits)
    (hpending : s.irqPending = false) (hidle : s.hw = .idle) :
    ∃ s', s.step bits .irq = some s' := by
  have hunmasked : s.masked = false := by
    by_contra hmasked
    rcases acked_of_exec hstart hrun (by simpa using hmasked) with hirq | hbusy
    · rw [hpending] at hirq
      cases hirq
    · exact hbusy hidle
  exact ⟨_, UsbIntr.step_irq.mpr ⟨⟨hline, hunmasked⟩, rfl⟩⟩

end Runs

end Sel4Xhci.Interrupt
