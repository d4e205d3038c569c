import Bedrock.Drivers.Ata
import Bedrock.Lib.Bytes

/-!
# `ide_initialize`

The drives of the two channels are looked for one after the other. A drive that
is there answers IDENTIFY with a page of 512 bytes, and `ide_devices` is filled
from these pages, without gaps: `count` is the next free entry.

`sleep(1)` waits for the timer and leaves the driver and its ports alone; it is
not part of the model. `ide_buf` is read only where it was just filled, so the
buffer is what `ideReadBuffer` returns.
-/

namespace Bedrock

open Lib

/-- `port_long_ins`, with the bytes of the buffer it fills. A long is two words
of the data port. -/
def portLongIns (port : UInt16) (length : Nat) : Drv (Nat → UInt8) := do
  let s ← get
  set { s.logged (.insw port (2 * length)) with
    dev.words := fun i => s.dev.words (2 * length + i) }
  return fun j => byteOf (s.dev.words (j / 2)).toNat (j % 2)

/-- `ide_read_buffer`, for the registers that have a port. -/
def ideReadBuffer (channel : Fin 2) (reg : UInt8) (quads : Nat) : Drv (Nat → UInt8) := do
  let s ← get
  let nIEN := (s.dev.channels channel).nIEN
  if 0x07 < reg ∧ reg < 0x0C then
    ideOut channel 0x0C (0x80 ||| nIEN)
  let buffer ← match portOf (s.dev.channels channel) reg with
    | some port => portLongIns port quads
    | none => throw .noAnswer
  if 0x07 < reg ∧ reg < 0x0C then
    ideOut channel 0x0C nIEN
  return buffer

/-! ## Probing -/

/-- The loop of step (III): whether it ended with `err = 1`. -/
def identifyLoop (channel : Fin 2) : Nat → Drv Bool
  | 0 => throw .noAnswer
  | n + 1 => do
      let status ← ideRead channel 0x07
      if status &&& 0x01 ≠ 0 then
        return true
      if status &&& 0x80 = 0 ∧ status &&& 0x08 ≠ 0 then
        return false
      identifyLoop channel n

def identifyWait (channel : Fin 2) : Drv Bool := do
  let s ← get
  identifyLoop channel (s.dev.inbox.length + 1)

/-- The two signatures of a drive that takes packets. -/
def PacketSignature (cl ch : UInt8) : Prop :=
  (cl = 0x14 ∧ ch = 0xEB) ∨ (cl = 0x69 ∧ ch = 0x96)

instance {cl ch : UInt8} : Decidable (PacketSignature cl ch) :=
  inferInstanceAs (Decidable (_ ∨ _))

/-- Step (IV), where `err` is 1: the signature in the address registers. -/
def probePacket (channel : Fin 2) : Drv (Option DriveType) := do
  let cl ← ideRead channel 0x04
  let ch ← ideRead channel 0x05
  if PacketSignature cl ch then
    ideWrite channel 0x07 0xA1
    return some .atapi
  return none

/-- `0xA0 | (j << 4)` -/
def driveSelect (drive : Fin 2) : UInt8 :=
  let slave := UInt8.ofNat drive.val <<< 4
  0xA0 ||| slave

/-- Steps (I) to (IV): the type of the drive, or `none` for `continue`. -/
def probeDrive (channel drive : Fin 2) : Drv (Option DriveType) := do
  ideWrite channel 0x06 (driveSelect drive)
  ideWrite channel 0x07 0xEC
  let status ← ideRead channel 0x07
  if status = 0 then
    return none
  let err ← identifyWait channel
  if err then
    probePacket channel
  else
    return some .ata

/-! ## The identification page -/

/-- The loop of step (VIII): round `k / 2` swaps two bytes. -/
def modelBytes (ideBuf : Nat → UInt8) : List UInt8 :=
  (List.range 20).flatMap fun i => [ideBuf (54 + 2 * i + 1), ideBuf (54 + 2 * i)]

/-- Steps (VI) to (VIII). -/
def identified (channel drive : Fin 2) (type : DriveType) (ideBuf : Nat → UInt8) :
    IdeDevice where
  reserved := 1
  channel := channel
  drive := drive
  type := type
  capabilities := le16 ideBuf 98
  size :=
    let commandSets := le32 ideBuf 164
    if commandSets &&& ((1 : UInt32) <<< 26) ≠ 0 then le32 ideBuf 200 else le32 ideBuf 120
  model := modelBytes ideBuf

/-- The name of a drive's type in the messages. -/
def DriveType.name : DriveType → String
  | .ata => "ATA"
  | .atapi => "ATAPI"

/-! ## The loop over the places -/

/-- `ide_devices[count] = device` -/
def setIdeDevice (count : Nat) (device : IdeDevice) : Drv Unit :=
  modify fun s =>
    { s with
      dev.ideDevices := Function.update s.dev.ideDevices (UInt8.ofNat count) device }

/-- One round of the loop of step 3: the number of drives found after it. -/
def detectDrive (channel drive : Fin 2) (count : Nat) : Drv Nat := do
  let s ← get
  setIdeDevice count { s.dev.ideDevices (UInt8.ofNat count) with reserved := 0 }
  match ← probeDrive channel drive with
  | none => return count
  | some type => do
      let ideBuf ← ideReadBuffer channel 0x00 128
      setIdeDevice count (identified channel drive type ideBuf)
      return count + 1

def detectDrives : List (Fin 2 × Fin 2) → Nat → Drv Nat
  | [], count => return count
  | place :: places, count => do
      let count ← detectDrive place.1 place.2 count
      detectDrives places count

def ataSecondary : Fin 2 := ⟨1, Nat.one_lt_two⟩

def ataSlave : Fin 2 := ⟨1, Nat.one_lt_two⟩

/-- The channels and units in the order in which they are tried. -/
def drivePlaces : List (Fin 2 × Fin 2) :=
  [(ataPrimary, ataMaster), (ataPrimary, ataSlave), (ataSecondary, ataMaster),
    (ataSecondary, ataSlave)]

/-- The summary's lines about one entry. -/
def printFound (device : IdeDevice) : Drv Unit := do
  drvPrint (.str "\\ found ")
  drvPrint (.str device.type.name)
  drvPrint (.str " drive (")
  if device.size = 0 then
    drvPrint (.str "empty")
  else if device.size / 1024 / 1024 / 2 = 0 then
    drvPrint (.int device.size)
    drvPrint (.str " sectors")
  else
    drvPrint (.int (device.size / 1024 / 1024 / 2))
    drvPrint (.str " GB")
  drvPrint (.str ") - ")
  drvPrint (.bytes device.model)
  drvPrint (.str "\n")

/-- Step 4, for `n` entries from entry `i` on. -/
def printSummary : (n i : Nat) → Drv Unit
  | 0, _ => return ()
  | n + 1, i => do
      let s ← get
      let device := s.dev.ideDevices (UInt8.ofNat i)
      if device.reserved = 1 then
        printFound device
      printSummary n (i + 1)

/-- The registers of step 1, which leaves `nIEN` as it is. -/
def keepNIEN (channels old : Fin 2 → IdeChannelRegisters) : Fin 2 → IdeChannelRegisters :=
  fun channel => { channels channel with nIEN := (old channel).nIEN }

def setChannels (channels : Fin 2 → IdeChannelRegisters) : Drv Unit :=
  modify fun s => { s with dev.channels := keepNIEN channels s.dev.channels }

def ideInitialize (bar0 bar1 bar2 bar3 bar4 : UInt32) : Drv Unit := do
  setChannels (ideChannels bar0 bar1 bar2 bar3 bar4)
  ideWrite ataPrimary 0x0C 2
  ideWrite ataSecondary 0x0C 2
  let _ ← detectDrives drivePlaces 0
  printSummary 4 0

end Bedrock
