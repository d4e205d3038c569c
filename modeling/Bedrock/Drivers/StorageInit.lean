import Bedrock.Drivers.Detect
import Bedrock.Drivers.Storage

/-!
# `storage_driver_init`

The devices that `ide_initialize` found become the entries of `vdevices`, and
each of them is asked for its first sector. `vdevices` is the list of the entries
below `vdID`, so `vdID` is its length.
-/

namespace Bedrock

open Lib

/-- A type as the two structures store it. -/
def DriveType.code : DriveType → Int32
  | .ata => 0
  | .atapi => 1

/-- The entry of `vdevices` for a drive in entry `driveNum` of `ide_devices`. -/
def deviceInfoOf (vdID driveNum : Nat) (type : DriveType) : DeviceInfo where
  vdID := Int32.ofNat vdID
  type := type.code
  ataId := Int32.ofNat driveNum
  sectorSize := if type.code = 0 then 512 else 2048

/-- The loop of `IDE_init`, for `n` entries from entry `driveNum` on. -/
def addDevices : (n driveNum : Nat) → List DeviceInfo → Kern Ata (List DeviceInfo)
  | 0, _, vdevices => return vdevices
  | n + 1, driveNum, vdevices => do
      let k ← get
      let device := k.dev.ideDevices (UInt8.ofNat driveNum)
      if device.reserved ≠ 0 then
        addDevices n (driveNum + 1)
          (vdevices ++ [deviceInfoOf vdevices.length driveNum device.type])
      else
        addDevices n (driveNum + 1) vdevices

/-- `IDE_init` -/
def ideInit (vdevices : List DeviceInfo) : Kern Ata (List DeviceInfo) := do
  kprint "\\ IDE driver init\n"
  Kern.ofMachine (ideInitialize 0x1F0 0x3F6 0x170 0x376 0x000)
  let vdevices ← addDevices 4 0 vdevices
  kprint "\\ IDE driver setup complete\n"
  return vdevices

section

variable [Layout] {δ : Type} (ide : Ide δ)

/-- What `test_read_access` prints for a sector that could be read. -/
def readAccessOk : Msg := .str "[ OK ]\n"

def testReadAccess (device : DeviceInfo) : Kern δ Unit := do
  let testBuffer ← kmalloc 1
  kprint "    read access: "
  let err ← readSector ide device 0 testBuffer
  if err = 0 then
    kprintMsg readAccessOk
  kfree testBuffer 1

/-- `device_type_names` -/
def deviceTypeNames : List String := ["ATA", "ATAPI", "Unknown"]

/-- One round of the loop of `storage_driver_init`. -/
def describeDevice (c : Nat) (device : DeviceInfo) : Kern δ Unit := do
  kprint "    vdID: "
  kprintInt (UInt32.ofNat c)
  kprint " \x7b"
  kprint ".type="
  kprint (deviceTypeNames[device.type.toInt.toNat]?.getD "")
  kprint ", .sector_size="
  kprintInt device.sectorSize.toUInt32
  kprint ", .ata_id="
  kprintInt device.ataId.toUInt32
  kprint "\x7d\n"
  testReadAccess ide device

def describeDevices : List DeviceInfo → Nat → Kern δ Unit
  | [], _ => return ()
  | device :: devices, c => do
      describeDevice ide c device
      describeDevices devices (c + 1)

end

/-- `storage_driver_init`, with `vdevices` as it was and as it is afterwards. -/
def storageDriverInit [Layout] (ide : Ide Ata) (vdevices : List DeviceInfo) :
    Kern Ata (List DeviceInfo) := do
  kprint "loading storage drivers\n"
  let vdevices ← ideInit vdevices
  kprint "\\ "
  kprintInt (UInt32.ofNat vdevices.length)
  kprint " recognized storage devices:\n"
  describeDevices ide vdevices 0
  kprint "\\ storage drivers loaded"
  kprintStatusOk
  return vdevices

end Bedrock
