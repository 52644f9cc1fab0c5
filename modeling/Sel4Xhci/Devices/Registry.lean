import Sel4Xhci.Ring.Basic
import Sel4Xhci.Semantics.Loop
import Sel4Xhci.Umass.Api

/-!
# The device registry

The driver announces devices on a ring of pointers, and `handle_new_device` of `xhci_api.c`
enters them in the client's table `usb_devices`, by the id that the driver has given them.
The id is used as an index as it is.

## Main definitions

* `UsbDevice`, `Registry` — an announced device; the table and `num_devices`
* `handleNewDevice` — the code
* `Registers` — what one call ought to do to the registry

## Main results

* `handleNewDevice_eq` — a call empties the ring and enters all announced devices, in order
* `registers_iff` — when that is what it ought to do
-/

set_option autoImplicit false

namespace Sel4Xhci.Devices

open Semantics.Loop Umass Sel4Xhci.Ring

/-- `struct sel4_usb_device`, as far as the functions of `xhci_api.c` use it. The device info
of a drive is sDDF's; of it, the block size and the printed lines are kept. -/
structure UsbDevice extends SelUsbDevice where
  vendor : String
  product : String
  serial : Option String
  vendorid : BitVec 32
  productid : BitVec 32
  depth : BitVec 32
  speed : BitVec 32
  mps : BitVec 32
  numConfigs : BitVec 32
  rev : BitVec 32
  blocksize : BitVec 32
  infoLines : List String
  deriving DecidableEq, Repr

/-- `usb_devices` and `num_devices`. -/
structure Registry where
  usbDevices : Fin MAX_DEVICES → Option UsbDevice
  numDevices : BitVec 32

/-- The registry before any announcement. -/
def Registry.empty : Registry := ⟨fun _ => none, 0#32⟩

/-- The index lies in the table. -/
abbrev InTable (id : BitVec 32) : Prop := id.toNat < MAX_DEVICES

/-- The body of the loop in `handle_new_device`. A store outside the table hits something
else, which is not part of the registry. -/
def Registry.register (r : Registry) (dev : UsbDevice) : Registry where
  -- `num_devices > dev->id`, both of them `int`s
  numDevices := if dev.id.slt r.numDevices then r.numDevices else dev.id
  usbDevices i := if i.val = dev.id.toNat then some dev else r.usbDevices i

/-- The state of `handle_new_device`: the ring, the variables that `driver_dequeue` fills in,
the registry, and the indices stored to so far. -/
structure NewDeviceState where
  ring : RingBuffer
  out : BuffDesc
  registry : Registry
  stores : List (BitVec 32)

/-- One round of the loop; `mem` is what the pointers on the ring point to. -/
def newDeviceRound (mem : BitVec 64 → UsbDevice) (s : NewDeviceState) :
    NewDeviceState ⊕ NewDeviceState :=
  let (value, out, ring) := driverDequeue s.ring s.out
  if value = 0 then
    let dev := mem out.encodedAddr
    .inl ⟨ring, out, s.registry.register dev, s.stores ++ [dev.id]⟩
  else .inr { s with ring := ring, out := out }

/-- `handle_new_device`: how many devices it took off the ring, and the state afterwards. -/
def handleNewDevice (mem : BitVec 64 → UsbDevice) (fuel : ℕ) (ring : RingBuffer) (r : Registry) :
    Option (ℕ × NewDeviceState) :=
  loop (newDeviceRound mem) fuel ⟨ring, ⟨0#64, 0#32, .client 0#64⟩, r, []⟩

/-- The devices that the descriptors of a queue announce. -/
def announced (mem : BitVec 64 → UsbDevice) (q : List BuffDesc) : List UsbDevice :=
  q.map fun d => mem d.encodedAddr

/-! ## One call -/

section Call

variable {mem : BitVec 64 → UsbDevice} {ring : RingBuffer} {q : List BuffDesc} {r : Registry}

/-- The invariant of the loop: what is on the ring is still to be entered. -/
structure Entering (mem : BitVec 64 → UsbDevice) (q : List BuffDesc) (r : Registry)
    (s : NewDeviceState) (rest : List BuffDesc) : Prop where
  ring : s.ring.Stores rest
  registry : (announced mem rest).foldl Registry.register s.registry =
    (announced mem q).foldl Registry.register r
  stores : s.stores ++ (announced mem rest).map (·.id) = (announced mem q).map (·.id)

theorem newDeviceRound_nil {s : NewDeviceState} (h : s.ring.Stores []) :
    newDeviceRound mem s = .inr s := by
  rcases h.take .driverDequeue s.out with ⟨-, htake⟩ | ⟨d, rest, hcons, -⟩
  · simp [newDeviceRound, driverDequeue, htake]
  · cases hcons

theorem Entering.next {s : NewDeviceState} {d : BuffDesc} {rest : List BuffDesc}
    (h : Entering mem q r s (d :: rest)) :
    ∃ s', newDeviceRound mem s = .inl s' ∧ Entering mem q r s' rest := by
  rcases h.ring.take .driverDequeue s.out with ⟨hnil, -⟩ |
    ⟨first, more, hcons, hvalue, haddr, -, hstores⟩
  · cases hnil
  · obtain ⟨rfl, rfl⟩ := List.cons.inj hcons
    refine ⟨_, by simp [newDeviceRound, driverDequeue, hvalue]; rfl, hstores, ?_, ?_⟩
    · rw [← h.registry]
      simp [announced, haddr]
    · rw [← h.stores]
      simp [announced, haddr]

/-- A call takes all devices off the ring and enters them in the order in which they were
announced. -/
theorem handleNewDevice_eq (mem : BitVec 64 → UsbDevice) (h : ring.Stores q) (r : Registry) :
    ∃ rounds s, handleNewDevice mem SIZE ring r = some (rounds, s) ∧ s.ring.Stores [] ∧
      s.registry = (announced mem q).foldl Registry.register r ∧
      s.stores = (announced mem q).map (·.id) := by
  have hstart : Entering mem q r ⟨ring, ⟨0#64, 0#32, .client 0#64⟩, r, []⟩ q := ⟨h, rfl, rfl⟩
  have hshort : (ringSize ring).toNat < SIZE := by
    rw [ringSize, h.toNat_sub]
    exact h.length_lt
  -- Each round shortens the ring by one descriptor.
  have hnext : ∀ s s', (∃ rest, Entering mem q r s rest) → newDeviceRound mem s = .inl s' →
      (∃ rest, Entering mem q r s' rest) ∧
        (ringSize s'.ring).toNat < (ringSize s.ring).toNat := by
    rintro s s' ⟨rest, hrest⟩ hround
    cases rest with
    | nil =>
      rw [newDeviceRound_nil hrest.ring] at hround
      cases hround
    | cons d rest =>
      obtain ⟨next, hnext, hentering⟩ := hrest.next
      rw [hnext] at hround
      obtain rfl := Sum.inl.inj hround
      refine ⟨⟨rest, hentering⟩, ?_⟩
      simp only [ringSize, hentering.ring.toNat_sub, hrest.ring.toNat_sub, List.length_cons]
      omega
  have hdone : ∀ s s', (∃ rest, Entering mem q r s rest) → newDeviceRound mem s = .inr s' →
      Entering mem q r s' [] := by
    rintro s s' ⟨rest, hrest⟩ hround
    cases rest with
    | nil =>
      rw [newDeviceRound_nil hrest.ring] at hround
      obtain rfl := Sum.inr.inj hround
      exact hrest
    | cons d rest =>
      obtain ⟨next, hnext, -⟩ := hrest.next
      rw [hnext] at hround
      cases hround
  obtain ⟨rounds, s, hloop, hs⟩ := loop_of_variant
    (I := fun s => ∃ rest, Entering mem q r s rest) (Q := fun s => Entering mem q r s [])
    (fun s => (ringSize s.ring).toNat) hnext hdone ⟨q, hstart⟩ hshort
  exact ⟨rounds, s, hloop, hs.ring, hs.registry, by simpa [announced] using hs.stores⟩

end Call

/-! ## The registry after a list of announcements -/

/-- The last device of a list that has the id of a slot. -/
def lastWithId (devs : List UsbDevice) (i : Fin MAX_DEVICES) : Option UsbDevice :=
  devs.reverse.find? fun dev => i.val = dev.id.toNat

/-- `new` is the greatest of `old` and the ids, as signed numbers. -/
structure IsMaximum (old new : BitVec 32) (ids : List (BitVec 32)) : Prop where
  old_le : old.toInt ≤ new.toInt
  le : ∀ id ∈ ids, id.toInt ≤ new.toInt
  attained : new = old ∨ new ∈ ids

/-- Whatever the ids are, a slot of the table holds the last device announced for it. -/
theorem foldl_register_usbDevices (devs : List UsbDevice) (r : Registry) (i : Fin MAX_DEVICES) :
    (devs.foldl Registry.register r).usbDevices i = (lastWithId devs i).or (r.usbDevices i) := by
  induction devs generalizing r with
  | nil => rfl
  | cons dev devs ih =>
    -- The first device counts only if no later one has its id.
    have hlast : lastWithId (dev :: devs) i =
        (lastWithId devs i).or (if i.val = dev.id.toNat then some dev else none) := by
      by_cases hid : i.val = dev.id.toNat <;> simp [lastWithId, List.find?_append, hid]
    rw [List.foldl_cons, ih, hlast, Option.or_assoc]
    by_cases hid : i.val = dev.id.toNat <;> simp [Registry.register, hid]

/-- `num_devices` becomes the maximum over all ids, whether they lie in the table or not. -/
theorem foldl_register_numDevices (devs : List UsbDevice) (r : Registry) :
    IsMaximum r.numDevices (devs.foldl Registry.register r).numDevices (devs.map (·.id)) := by
  induction devs generalizing r with
  | nil => exact ⟨le_rfl, by simp, .inl rfl⟩
  | cons dev devs ih =>
    -- The first device against the old number; the rest by induction.
    have hrest := ih (r.register dev)
    have hfirst : r.numDevices.toInt ≤ (r.register dev).numDevices.toInt ∧
        dev.id.toInt ≤ (r.register dev).numDevices.toInt ∧
        ((r.register dev).numDevices = r.numDevices ∨
          (r.register dev).numDevices = dev.id) := by
      unfold Registry.register
      by_cases hlt : dev.id.slt r.numDevices = true
      · rw [if_pos hlt]
        have hle := BitVec.slt_iff_toInt_lt.mp hlt
        exact ⟨le_rfl, hle.le, .inl rfl⟩
      · rw [if_neg hlt]
        have hle := mt BitVec.slt_iff_toInt_lt.mpr hlt
        exact ⟨not_lt.mp hle, le_rfl, .inr rfl⟩
    rw [List.foldl_cons]
    refine ⟨hfirst.1.trans hrest.old_le, ?_, ?_⟩
    · intro id hid
      rcases List.mem_cons.mp hid with rfl | hid
      · exact hfirst.2.1.trans hrest.old_le
      · exact hrest.le id hid
    · rw [List.map_cons, List.mem_cons]
      rcases hrest.attained with hsame | hmem
      · rw [hsame]
        exact hfirst.2.2.imp_right .inl
      · exact .inr (.inr hmem)

/-- What a call ought to do when `devs` are announced: empty the ring, enter for every id of
the table the last device with that id, raise `num_devices` to the greatest id of the table,
and store to the table only. -/
structure Registers (old : Registry) (devs : List UsbDevice) (s : NewDeviceState) : Prop where
  emptied : ringEmpty s.ring = true
  table : ∀ i, s.registry.usbDevices i = (lastWithId devs i).or (old.usbDevices i)
  numDevices : IsMaximum old.numDevices s.registry.numDevices
    ((devs.map (·.id)).filter fun id => InTable id)
  stores : ∀ id ∈ s.stores, InTable id

/-- For every registry and every queue of announcements, the call returns, and it does what
it ought to do exactly when all announced ids lie in the table. -/
theorem registers_iff (mem : BitVec 64 → UsbDevice) {ring : RingBuffer} {q : List BuffDesc}
    (h : ring.Stores q) (r : Registry) :
    ∃ rounds s, handleNewDevice mem SIZE ring r = some (rounds, s) ∧
      (Registers r (announced mem q) s ↔ ∀ dev ∈ announced mem q, InTable dev.id) := by
  obtain ⟨rounds, s, hcall, hring, hregistry, hstores⟩ := handleNewDevice_eq mem h r
  refine ⟨rounds, s, hcall, ?_, ?_⟩
  · -- There is a store for every announced id.
    intro hregisters dev hdev
    apply hregisters.stores
    rw [hstores]
    exact List.mem_map_of_mem hdev
  · intro hids
    -- If all ids lie in the table, the ids in the table are all ids.
    have hall : ((announced mem q).map (·.id)).filter (fun id => InTable id) =
        (announced mem q).map (·.id) := by
      rw [List.filter_eq_self]
      intro id hid
      obtain ⟨dev, hdev, rfl⟩ := List.mem_map.mp hid
      exact decide_eq_true (hids dev hdev)
    constructor
    case emptied => exact hring.ringEmpty_iff.mpr rfl
    case table =>
      intro i
      rw [hregistry]
      exact foldl_register_usbDevices _ r i
    case numDevices =>
      rw [hregistry, hall]
      exact foldl_register_numDevices _ r
    case stores =>
      intro id hid
      rw [hstores] at hid
      obtain ⟨dev, hdev, rfl⟩ := List.mem_map.mp hid
      exact hids dev hdev

/-- A mass-storage drive, announced under some id. -/
def announcedDrive (id : BitVec 32) : UsbDevice where
  toSelUsbDevice := drive id 0#32
  vendor := "vendor"
  product := "product"
  serial := none
  vendorid := 0x951#32
  productid := 0x1666#32
  depth := 1#32
  speed := 4#32
  mps := 9#32
  numConfigs := 1#32
  rev := 0x320#32
  blocksize := 512#32
  infoLines := []

/-- Pointers that name devices by their ids. -/
def drivesById (addr : BitVec 64) : UsbDevice := announcedDrive (addr.setWidth 32)

/-- A ring on which pointers have been put. -/
def ringOf (addrs : List (BitVec 64)) : RingBuffer :=
  addrs.foldl (fun ring addr => (enqueue ring ⟨addr, 0#32, .client 0#64⟩).2)
    ⟨0#32, 0#32, fun _ => ⟨0#64, 0#32, .client 0#64⟩⟩

theorem stores_ringOf (addrs : List (BitVec 64)) (h : addrs.length < SIZE) :
    (ringOf addrs).Stores (addrs.map fun addr => ⟨addr, 0#32, .client 0#64⟩) := by
  induction addrs using List.reverseRecOn with
  | nil => exact RingBuffer.Stores.of_eq rfl
  | append_singleton addrs addr ih =>
    rw [List.length_append, List.length_singleton] at h
    have hstores := ih (by omega)
    rw [ringOf, List.foldl_append, List.map_append]
    rcases hstores.enqueue ⟨addr, 0#32, .client 0#64⟩ with ⟨hfull, -⟩ | ⟨-, -, hnext⟩
    · rw [List.length_map] at hfull
      omega
    · exact hnext

/-- Two announcements out of order and one that replaces another. -/
theorem registers_in_table :
    ∃ rounds s, handleNewDevice drivesById SIZE (ringOf [5#64, 2#64, 5#64]) .empty =
        some (rounds, s) ∧
      Registers .empty (announced drivesById
        ([5#64, 2#64, 5#64].map fun addr => ⟨addr, 0#32, .client 0#64⟩)) s := by
  obtain ⟨rounds, s, hcall, hiff⟩ := registers_iff drivesById
    (stores_ringOf [5#64, 2#64, 5#64] (by decide)) .empty
  exact ⟨rounds, s, hcall, hiff.mpr (by decide)⟩

/-- The id 127 is stored one place behind the table and becomes the number of devices. -/
theorem handleNewDevice_leaves_table :
    (¬ ∀ (mem : BitVec 64 → UsbDevice) (ring : RingBuffer) (q : List BuffDesc) (r : Registry),
      ring.Stores q → ∃ rounds s, handleNewDevice mem SIZE ring r = some (rounds, s) ∧
        ∀ id ∈ s.stores, InTable id) ∧
    ¬ ∀ (mem : BitVec 64 → UsbDevice) (ring : RingBuffer) (q : List BuffDesc) (r : Registry),
      ring.Stores q → ∃ rounds s, handleNewDevice mem SIZE ring r = some (rounds, s) ∧
        IsMaximum r.numDevices s.registry.numDevices
          (((announced mem q).map (·.id)).filter fun id => InTable id) := by
  have hstores := stores_ringOf [127#64] (by decide)
  have hcall : (handleNewDevice drivesById SIZE (ringOf [127#64]) .empty).map
      (fun result => (result.2.stores, result.2.registry.numDevices)) =
        some ([127#32], 127#32) := by decide
  constructor
  · intro h
    obtain ⟨rounds, s, hs, hintable⟩ := h drivesById _ _ .empty hstores
    rw [hs] at hcall
    have hstored : s.stores = [127#32] := (Prod.mk.inj (Option.some.inj hcall)).1
    have hmem : 127#32 ∈ s.stores := by
      rw [hstored]
      exact List.mem_singleton_self _
    exact absurd (hintable 127#32 hmem) (by decide)
  · intro h
    obtain ⟨rounds, s, hs, hmaximum⟩ := h drivesById _ _ .empty hstores
    rw [hs] at hcall
    have hnumber : s.registry.numDevices = 127#32 := (Prod.mk.inj (Option.some.inj hcall)).2
    rcases hmaximum.attained with hold | hmem
    · rw [hnumber] at hold
      exact absurd hold (by decide)
    · rw [hnumber] at hmem
      exact absurd hmem (by decide)

end Sel4Xhci.Devices
