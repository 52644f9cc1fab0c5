import Sel4Xhci.Devices.Registry
import Sel4Xhci.Semantics.Format
import Sel4Xhci.Semantics.Machine

/-!
# Reading the device registry

`get_blksize`, `print_device` and `print_devs` of `xhci_api.c`, next to
`enqueue_umass_request`, dereference `usb_devices[id]` for the id they are given, without
looking whether the slot is in the table and has been filled. `print_devs` does so for every
id from 0 to `num_devices`.

## Main definitions

* `registryRun` — runs of `handle_new_device` from the empty table
* `getBlksize`, `printDevice`, `printDevs` — the code; `none` is a fault
* `TouchesAnnounced` — what the accessors ought to keep to for one id

## Main results

* `device_isSome_iff` — a slot is filled exactly when its id was announced
* `touchesAnnounced_iff` — when the accessors keep to what was announced
-/

set_option autoImplicit false

namespace Sel4Xhci.Devices

open Semantics Semantics.Format Umass Sel4Xhci.Ring

/-- The slot that `usb_devices[id]` names, dereferenced: `none` when it is out of range or
null. -/
def Registry.device (r : Registry) (id : BitVec 32) : Option UsbDevice :=
  if h : id.toNat < MAX_DEVICES then r.usbDevices ⟨id.toNat, h⟩ else none

/-- `get_blksize`. -/
def getBlksize (r : Registry) (devId : BitVec 32) : Option (BitVec 32) :=
  (r.device devId).map fun dev =>
    if dev.devClass = 0#32 then
      if dev.ifaceClass = 0x8#32 then dev.blocksize else -1#32
    else -1#32

/-- `get_class`. -/
def getClass (devClass : BitVec 32) : String :=
  if devClass = 0#32 then "Device"
  else if devClass = 1#32 then "Audio"
  else if devClass = 2#32 then "CDC"
  else if devClass = 3#32 then "HID"
  else if devClass = 5#32 then "Physical"
  else if devClass = 6#32 then "Image"
  else if devClass = 7#32 then "Printer"
  else if devClass = 8#32 then "Mass storage"
  else if devClass = 9#32 then "Hub"
  else "None"

/-- `get_speed`. -/
def getSpeed (speed : BitVec 32) : String :=
  if speed = 1#32 then "LOW"
  else if speed = 2#32 then "FULL"
  else if speed = 3#32 then "HIGH"
  else if speed = 4#32 then "SUPER"
  else if speed = 5#32 then "SUPER PLUS"
  else "ERROR"

/-- The texts that `print_device` prints of a device. -/
def UsbDevice.texts (dev : UsbDevice) : List String :=
  -- Class 0 stands for the class of the interface.
  let fromInterface := dev.devClass = 0#32
  let shown := if fromInterface then dev.ifaceClass else dev.devClass
  [decimal dev.id ++ ": " ++ getClass shown ++ ",\tUSB Revision " ++
      hex (dev.rev.sshiftRight 8 &&& 0xff#32) ++ "." ++ hex (dev.rev &&& 0xff#32) ++ "\n",
    " - " ++ dev.vendor ++ " " ++ dev.product ++
      (match dev.serial with
        | some serial => " (serial " ++ serial ++ ")\n"
        | none => "\n"),
    " - Vendor: 0x" ++ hexPadded 4 dev.vendorid ++
      " Product: 0x" ++ hexPadded 4 dev.productid ++ "\n",
    " - PacketSize: " ++ decimal dev.mps ++ " Configurations: " ++ decimal dev.numConfigs ++ "\n",
    " - Class: " ++ (if fromInterface then "(from interface) " else "") ++ getClass shown ++ "\n",
    " - Speed: " ++ getSpeed dev.speed ++ "\n"] ++
  (if fromInterface then [" - Interface info\n", "    - Class: " ++ getClass shown ++ "\n"]
    else []) ++
  [" - Depth: " ++ decimal dev.depth ++ "\n"] ++
  (if dev.IsMassStorage then " - Mass storage info\n" :: dev.infoLines else [])

/-- `print_device`. -/
def printDevice (r : Registry) (id : BitVec 32) : Option (List String) :=
  (r.device id).map UsbDevice.texts

/-- `print_devs`: one device after the other, from 0 up to and including `num_devices`. -/
def printDevs (r : Registry) : Option (List String) :=
  ((List.range (r.numDevices.toInt + 1).toNat).mapM fun i =>
    (printDevice r (BitVec.ofNat 32 i)).map (· ++ ["\n"])).map List.flatten

/-! ## Runs of announcements -/

/-- One run of `handle_new_device`: the ring with the queue it stores, and what the pointers
on it point to. -/
structure Announcement where
  mem : BitVec 64 → UsbDevice
  ring : RingBuffer
  queue : List BuffDesc
  stores : ring.Stores queue

/-- The devices announced in one run. -/
def Announcement.devices (a : Announcement) : List UsbDevice := announced a.mem a.queue

/-- The registry from the empty table on. -/
def registryRun : Machine Registry Announcement where
  start r := r = .empty
  step r a := (handleNewDevice a.mem SIZE a.ring r).map fun result => result.2.registry

theorem registryRun_step (r : Registry) (a : Announcement) :
    registryRun.step r a = some (a.devices.foldl Registry.register r) := by
  obtain ⟨rounds, s, hcall, -, hregistry, -⟩ := handleNewDevice_eq a.mem a.stores r
  simp only [registryRun, hcall, Option.map_some, hregistry, Announcement.devices]

/-- A run enters all devices announced in it, one after the other. -/
theorem exec_registryRun {r r' : Registry} {as : List Announcement}
    (hrun : registryRun.exec r as = some r') :
    r' = (as.flatMap Announcement.devices).foldl Registry.register r := by
  induction as generalizing r with
  | nil => exact (Option.some.inj hrun).symm
  | cons a as ih =>
    obtain ⟨mid, hmid, hrest⟩ := Machine.exec_cons_eq_some.mp hrun
    rw [registryRun_step] at hmid
    obtain rfl := Option.some.inj hmid
    rw [ih hrest, List.flatMap_cons, List.foldl_append]

/-- Some device was announced under the id. -/
def Announced (devs : List UsbDevice) (id : BitVec 32) : Prop := ∃ dev ∈ devs, dev.id = id

instance (devs : List UsbDevice) (id : BitVec 32) : Decidable (Announced devs id) :=
  inferInstanceAs (Decidable (∃ dev ∈ devs, dev.id = id))

section Slots

variable {devs : List UsbDevice} {id : BitVec 32}

/-- Of the devices entered in the empty table, the last one with an id is found under it. -/
theorem device_foldl (h : InTable id) :
    (devs.foldl Registry.register .empty).device id =
      devs.reverse.find? fun dev => dev.id = id := by
  have hsame : (fun dev : UsbDevice => decide (id.toNat = dev.id.toNat)) =
      fun dev => decide (dev.id = id) := by
    funext dev
    rw [decide_eq_decide, BitVec.toNat_inj, eq_comm]
  rw [Registry.device, dif_pos h, foldl_register_usbDevices, Registry.empty, Option.or_none,
    lastWithId, hsame]

/-- When all announcements lie in the table, what is found under an id is the last device
announced under it. -/
theorem device_eq_find? (hids : ∀ dev ∈ devs, InTable dev.id) :
    (devs.foldl Registry.register .empty).device id =
      devs.reverse.find? fun dev => dev.id = id := by
  by_cases hid : InTable id
  · exact device_foldl hid
  · rw [Registry.device, dif_neg hid, eq_comm, List.find?_eq_none]
    intro dev hdev hsame
    obtain rfl := of_decide_eq_true hsame
    exact hid (hids dev (List.mem_reverse.mp hdev))

/-- A slot is then filled exactly when its id was announced. -/
theorem device_isSome_iff (hids : ∀ dev ∈ devs, InTable dev.id) :
    ((devs.foldl Registry.register .empty).device id).isSome ↔ Announced devs id := by
  rw [device_eq_find? hids, List.find?_isSome]
  simp [Announced]

end Slots

/-! ## What the accessors touch -/

/-- The id names an announced mass-storage device: the last one announced under it is
one. -/
def NamesDrive (devs : List UsbDevice) (id : BitVec 32) : Prop :=
  ∃ dev, devs.reverse.find? (fun dev => dev.id = id) = some dev ∧ dev.IsMassStorage

/-- The table as the rest of the API sees it. -/
def Registry.apiDevices (r : Registry) : Fin MAX_DEVICES → Option SelUsbDevice := fun i =>
  (r.usbDevices i).map UsbDevice.toSelUsbDevice

/-- For the id, and with the devices `devs` announced: `get_blksize` and
`enqueue_umass_request` return -1 unless it names a drive, and neither of them nor
`print_device`, on announced ids, nor `print_devs` faults. -/
structure TouchesAnnounced (r : Registry) (devs : List UsbDevice) (id : BitVec 32) : Prop where
  blksize_refuses : ¬ NamesDrive devs id → getBlksize r id = some (-1#32)
  blksize_safe : getBlksize r id ≠ none
  request_refuses : ∀ (RQ : Fifo BlkReq) (SQ : Fifo Answer) (serve : Serve RQ SQ)
    (s : ApiState RQ SQ) (c : Call), s.vars.usbDevices = r.apiDevices → c.devId = id →
    ¬ NamesDrive devs id → (enqueueUmassRequest serve s c).1 = .returns (-1#32)
  request_safe : ∀ (RQ : Fifo BlkReq) (SQ : Fifo Answer) (serve : Serve RQ SQ)
    (s : ApiState RQ SQ) (c : Call), s.vars.usbDevices = r.apiDevices → c.devId = id →
    (enqueueUmassRequest serve s c).1 ≠ .fault
  print_safe : Announced devs id → printDevice r id ≠ none
  sweep_safe : printDevs r ≠ none

section Accessors

variable {r : Registry} {id : BitVec 32} {dev : UsbDevice}

theorem device_apiDevices {RQ : Fifo BlkReq} {SQ : Fifo Answer} {s : ApiState RQ SQ}
    (h : s.vars.usbDevices = r.apiDevices) (id : BitVec 32) :
    s.vars.device id = (r.device id).map UsbDevice.toSelUsbDevice := by
  unfold ApiVars.device Registry.device
  split_ifs
  · rw [h, Registry.apiDevices]
  · rfl

theorem getBlksize_eq_none_iff : getBlksize r id = none ↔ r.device id = none := by
  simp [getBlksize]

theorem printDevice_eq_none_iff : printDevice r id = none ↔ r.device id = none := by
  simp [printDevice]

theorem getBlksize_of_device (h : r.device id = some dev) :
    getBlksize r id = some (if dev.IsMassStorage then dev.blocksize else -1#32) := by
  rw [getBlksize, h, Option.map_some]
  by_cases hclass : dev.devClass = 0#32 <;> by_cases hiface : dev.ifaceClass = 0x8#32 <;>
    simp [SelUsbDevice.IsMassStorage, hclass, hiface]

/-- A request on a filled slot does not fault; on a device that is no drive it returns
-1. -/
theorem enqueueUmassRequest_of_device {RQ : Fifo BlkReq} {SQ : Fifo Answer}
    (serve : Serve RQ SQ) {s : ApiState RQ SQ} {c : Call}
    (hdevices : s.vars.usbDevices = r.apiDevices) (h : r.device c.devId = some dev) :
    (enqueueUmassRequest serve s c).1 ≠ .fault ∧
      (¬ dev.IsMassStorage → (enqueueUmassRequest serve s c).1 = .returns (-1#32)) := by
  have hdevice : s.vars.device c.devId = some dev.toSelUsbDevice := by
    rw [device_apiDevices hdevices, h, Option.map_some]
  by_cases hclass : dev.IsMassStorage
  · refine ⟨?_, fun hother => absurd hclass hother⟩
    cases hlocked : dev.umassDev.locked with
    | true =>
      rw [enqueueUmassRequest_busy (admitCall_locked hdevice hclass hlocked)]
      exact nofun
    | false =>
      -- An accepted request polls until it is served, if ever.
      have hadmitted := admitCall_unlocked hdevice hclass hlocked
      cases hserve : serve (s.polling _) with
      | none =>
        rw [enqueueUmassRequest_spins hadmitted hserve]
        exact nofun
      | some sh =>
        rw [enqueueUmassRequest_served hadmitted hserve]
        exact nofun
  · rw [enqueueUmassRequest_notMassStorage (admitCall_notMassStorage hdevice hclass)]
    exact ⟨nofun, fun _ => rfl⟩

theorem mapM_eq_none_iff {α β : Type} {f : α → Option β} {l : List α} :
    l.mapM f = none ↔ ∃ a ∈ l, f a = none := by
  induction l with
  | nil => simp
  | cons a l ih =>
    rw [List.mapM_cons, List.exists_mem_cons_iff, ← ih]
    cases f a with
    | none => simp
    | some b =>
      cases l.mapM f with
      | none => simp
      | some bs => simp

/-- The sweep goes through when every single print does. -/
theorem printDevs_eq_none_iff :
    printDevs r = none ↔
      ∃ i < (r.numDevices.toInt + 1).toNat, r.device (BitVec.ofNat 32 i) = none := by
  rw [printDevs, Option.map_eq_none_iff, mapM_eq_none_iff]
  simp [printDevice_eq_none_iff]

/-- When all announcements lie in the table: the accessors keep to what was announced
exactly when the id was announced and the ids up to `num_devices` have no gap. -/
theorem touchesAnnounced_iff {as : List Announcement} (hrun : registryRun.exec .empty as = some r)
    (hids : ∀ a ∈ as, ∀ dev ∈ a.devices, InTable dev.id) :
    TouchesAnnounced r (as.flatMap Announcement.devices) id ↔
      Announced (as.flatMap Announcement.devices) id ∧
      ∀ i < (r.numDevices.toInt + 1).toNat,
        Announced (as.flatMap Announcement.devices) (BitVec.ofNat 32 i) := by
  have hr := exec_registryRun hrun
  have hall : ∀ dev ∈ as.flatMap Announcement.devices, InTable dev.id := by
    intro dev hdev
    obtain ⟨a, ha, hmem⟩ := List.mem_flatMap.mp hdev
    exact hids a ha dev hmem
  have hfilled : ∀ i, r.device i ≠ none ↔ Announced (as.flatMap Announcement.devices) i := by
    intro i
    rw [hr, ← device_isSome_iff hall, Option.isSome_iff_ne_none]
  have hsweep : printDevs r ≠ none ↔ ∀ i < (r.numDevices.toInt + 1).toNat,
      Announced (as.flatMap Announcement.devices) (BitVec.ofNat 32 i) := by
    simp only [ne_eq, printDevs_eq_none_iff, not_exists, not_and, ← hfilled]
  constructor
  · -- `get_blksize` faults on every id that was not announced.
    intro h
    refine ⟨(hfilled id).mp fun hnone => h.blksize_safe ?_, hsweep.mp h.sweep_safe⟩
    exact getBlksize_eq_none_iff.mpr hnone
  · rintro ⟨hid, hgapless⟩
    obtain ⟨dev, hdev⟩ := Option.ne_none_iff_exists'.mp ((hfilled id).mpr hid)
    have hnames : ¬ NamesDrive (as.flatMap Announcement.devices) id → ¬ dev.IsMassStorage := by
      intro hother hclass
      rw [hr, device_eq_find? hall] at hdev
      exact hother ⟨dev, hdev, hclass⟩
    constructor
    case blksize_refuses =>
      intro hother
      rw [getBlksize_of_device hdev, if_neg (hnames hother)]
    case blksize_safe =>
      rw [getBlksize_of_device hdev]
      exact nofun
    case request_refuses =>
      rintro RQ SQ serve s c hdevices rfl hother
      exact (enqueueUmassRequest_of_device serve hdevices hdev).2 (hnames hother)
    case request_safe =>
      rintro RQ SQ serve s c hdevices rfl
      exact (enqueueUmassRequest_of_device serve hdevices hdev).1
    case print_safe =>
      intro _
      rw [ne_eq, printDevice_eq_none_iff, hdev]
      exact nofun
    case sweep_safe => exact hsweep.mpr hgapless

end Accessors

/-- One run in which the drives with these ids are announced. -/
def announceDrives (addrs : List (BitVec 64)) (h : addrs.length < SIZE) : Announcement :=
  ⟨drivesById, ringOf addrs, _, stores_ringOf addrs h⟩

/-- With the ids 0, 1 and 2 announced in any order, the accessors may be asked about 1. -/
theorem touchesAnnounced_gapless :
    ∃ r, registryRun.exec .empty [announceDrives [2#64] (by decide),
        announceDrives [0#64, 1#64] (by decide)] = some r ∧
      TouchesAnnounced r ([announceDrives [2#64] (by decide),
        announceDrives [0#64, 1#64] (by decide)].flatMap Announcement.devices) 1#32 := by
  obtain ⟨r, hrun, hnumber⟩ := Option.map_eq_some_iff.mp
    (show (registryRun.exec .empty [announceDrives [2#64] (by decide),
        announceDrives [0#64, 1#64] (by decide)]).map (·.numDevices) = some 2#32 by decide)
  refine ⟨r, hrun, (touchesAnnounced_iff hrun (by decide)).mpr ⟨by decide, ?_⟩⟩
  rw [hnumber]
  decide

/-- In the empty registry each of the functions faults: `get_blksize` and a request on an id
that was never announced, and the sweep, which starts at 0. -/
theorem accessors_fault_on_empty :
    (¬ ∀ (r : Registry) (as : List Announcement) (id : BitVec 32),
      registryRun.exec .empty as = some r → (∀ a ∈ as, ∀ dev ∈ a.devices, InTable dev.id) →
      getBlksize r id ≠ none) ∧
    (¬ ∀ (r : Registry) (as : List Announcement) (id : BitVec 32),
      registryRun.exec .empty as = some r → (∀ a ∈ as, ∀ dev ∈ a.devices, InTable dev.id) →
      ∀ (RQ : Fifo BlkReq) (SQ : Fifo Answer) (serve : Serve RQ SQ) (s : ApiState RQ SQ)
        (c : Call), s.vars.usbDevices = r.apiDevices → c.devId = id →
      (enqueueUmassRequest serve s c).1 ≠ .fault) ∧
    ¬ ∀ (r : Registry) (as : List Announcement),
      registryRun.exec .empty as = some r → (∀ a ∈ as, ∀ dev ∈ a.devices, InTable dev.id) →
      printDevs r ≠ none := by
  refine ⟨?_, ?_, ?_⟩
  · intro h
    exact h .empty [] 5#32 rfl (by simp) (by decide)
  · intro h
    let s : ApiState (Fifo.bounded BlkReq 0) (Fifo.bounded Answer 0) :=
      ApiState.fresh (.fresh Registry.empty.apiDevices) 0
    exact h .empty [] 5#32 rfl (by simp) _ _ (promptServe 0) s ⟨5#32, true, 0#32, 1#32, 0#64, 0#64⟩
      rfl rfl (by decide)
  · intro h
    exact h .empty [] rfl (by simp) (by decide)

end Sel4Xhci.Devices
