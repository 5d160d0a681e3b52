import Sp2.Kernel.Defs
import Mathlib.Data.List.FinRange

/-!
Device handles (`device.c`, and the open and close functions of `ramdisk.c` and `ata.c`).

* `Device`: a record of the table `_device_handles`, linked to the next free one.
* `devAllocHandle`, `devDeallocHandle`: the free list.
* `devOpen`, `devClose`, `devInit`: the functions of the module. What they print is left out.
-/

namespace Sp2

/-- `DEV_MAX_DEVICES`. -/
abbrev devMaxDevices : ℕ := 256

instance neZero_devMaxDevices : NeZero devMaxDevices := ⟨Nat.succ_ne_zero _⟩

/-- `DEV_RAMDISK`. -/
def devRamdisk : UInt8 := 1

/-- `DEV_IDE_PRI`. -/
def devIdePri : UInt8 := 2

/-- `DEV_TYPE_BLOCK`. -/
def devTypeBlock : UInt8 := 2

/-- A handle is an element of `_device_handles`. -/
abbrev DeviceId := Fin devMaxDevices

/-- The device functions a handle may point to. -/
inductive DeviceFn
  | rdReadPlaceholder | rdWritePlaceholder | rdCtrl
  | ataReadPlaceholder | ataWritePlaceholder | ataCtrl
  deriving DecidableEq

/-- `device_t`. -/
structure Device where
  type : UInt8
  identifier : UInt8
  read : Option DeviceFn
  write : Option DeviceFn
  ctrl : Option DeviceFn
  next : Option DeviceId

/-- A record cleared by `_memclr`. -/
def Device.zero : Device := ⟨0, 0, none, none, none, none⟩

/-- `_device_handles` and `_free_device_handles`. -/
structure Devices where
  handles : DeviceId → Device
  freeDeviceHandles : Option DeviceId

namespace Devices

/-- Write the record of one handle. -/
def set (s : Devices) (dev : DeviceId) (r : Device) : Devices :=
  { s with handles := Function.update s.handles dev r }

/-- The links of the records. -/
def next (s : Devices) (dev : DeviceId) : Option DeviceId := (s.handles dev).next

end Devices

/-- `_dev_dealloc_handle`, for a handle that is not null. -/
def devDeallocHandle (dev : DeviceId) (s : Devices) : Devices :=
  { s.set dev { s.handles dev with next := s.freeDeviceHandles } with
    freeDeviceHandles := some dev }

/-- `_dev_alloc_handle`. The pointers to the device functions stay what they were. -/
def devAllocHandle (s : Devices) : Option DeviceId × Devices :=
  match s.freeDeviceHandles with
  | none => (none, s)
  | some dev =>
      (some dev, { s.set dev { s.handles dev with type := 0, identifier := 0, next := none } with
        freeDeviceHandles := (s.handles dev).next })

/-- `_rd_open`. -/
def rdOpen (dev : DeviceId) (s : Devices) : Devices :=
  s.set dev { s.handles dev with
    type := devTypeBlock
    identifier := devRamdisk
    read := some .rdReadPlaceholder
    write := some .rdWritePlaceholder
    ctrl := some .rdCtrl }

/-- `_ata_open`. -/
def ataOpen (dev : DeviceId) (s : Devices) : Devices :=
  s.set dev { s.handles dev with
    type := devTypeBlock
    identifier := devIdePri
    read := some .ataReadPlaceholder
    write := some .ataWritePlaceholder
    ctrl := some .ataCtrl }

/-- `_dev_open`. A number that is neither the ramdisk's nor the primary channel's, that of the
secondary channel included, gets its handle all the same, after a message. -/
def devOpen (deviceNum : UInt8) (s : Devices) : Option DeviceId × Devices :=
  match devAllocHandle s with
  | (none, s) => (none, s)
  | (some dev, s) =>
      (some dev,
        if deviceNum = devRamdisk then rdOpen dev s
        else if deviceNum = devIdePri then ataOpen dev s
        else s)

/-- `_rd_close`, which puts the handle into the free list itself. -/
def rdClose (dev : DeviceId) (s : Devices) : Devices :=
  devDeallocHandle dev (s.set dev { s.handles dev with
    type := 0, identifier := 0, read := none, write := none, ctrl := none })

/-- `_ata_close`, which does so too. -/
def ataClose (dev : DeviceId) (s : Devices) : Devices :=
  devDeallocHandle dev (s.set dev Device.zero)

/-- `_dev_close`. -/
def devClose (dev : Option DeviceId) (s : Devices) : Devices :=
  match dev with
  | none => s
  | some dev =>
      devDeallocHandle dev
        (if (s.handles dev).identifier = devRamdisk then rdClose dev s
        else if (s.handles dev).identifier = devIdePri then ataClose dev s
        else s)

/-- The part of `_dev_init` about the handles: the records are cleared and put into the free
list one by one. -/
def devInit : Devices :=
  (List.finRange devMaxDevices).foldl (fun s dev => devDeallocHandle dev s)
    ⟨fun _ => Device.zero, none⟩

end Sp2
