import Bedrock.Kernel.State
import Bedrock.Lib.TaskFile

/-!
# `drivers/ATA.c`

The IDE driver, from the port accesses up to `ide_read_sectors` and
`ide_write_sectors`.

The hardware is a tape: the bytes it presents to the successive reads of its
registers, whatever makes it present them, with the words of the data port,
the number of waits for an interrupt that will end, and the log of every port
access. A driver that reads past the tape waits forever; the run stops there
as `noAnswer`, with the log of what it did until then.

`rep insw` and `rep outsw` are taken as the source uses them: 256 or 1024
words between the data port and memory at `edi`.
-/

namespace Bedrock

open Lib

/-- One access to a port. -/
inductive PortEvent where
  | outb (port : UInt16) (data : UInt8)
  | inb (port : UInt16) (data : UInt8)
  | insw (port : UInt16) (words : Nat)
  | outsw (port : UInt16) (data : List UInt16)
deriving DecidableEq, Repr

/-- `struct IDEChannelRegisters` -/
structure IdeChannelRegisters where
  base : UInt16
  ctrl : UInt16
  bmide : UInt16
  nIEN : UInt8

/-- `IDE_ATA` and `IDE_ATAPI` -/
inductive DriveType where
  | ata
  | atapi
deriving DecidableEq, Repr

def ataPrimary : Fin 2 := 0

def ataMaster : Fin 2 := 0

/-- `struct ide_device`, without the fields that only `ide_initialize` reads. -/
structure IdeDevice where
  reserved : UInt8
  channel : Fin 2
  drive : Fin 2
  type : DriveType
  capabilities : UInt16
  size : UInt32
  model : List UInt8

/-- What the hardware has in store for the driver, and the log. -/
structure Ports where
  inbox : List UInt8
  words : Nat → UInt16
  irqs : Nat
  log : List PortEvent

/-- The globals of `ATA.c` with the hardware behind them. -/
structure Ata extends Ports where
  channels : Fin 2 → IdeChannelRegisters
  ideDevices : UInt8 → IdeDevice
  ideIrqInvoked : UInt8
  package0 : Int32

/-- Driver code. -/
abbrev Drv (α : Type) : Type := Exec Halt (Machine Ata) α

def drvPrint (msg : Msg) : Drv Unit := modify (·.print msg)

/-! ## Ports -/

/-- The machine after one more port access. -/
def Machine.logged (s : Machine Ata) (e : PortEvent) : Machine Ata :=
  { s with dev.log := s.dev.log ++ [e] }

def portByteOut (port : UInt16) (data : UInt8) : Drv Unit :=
  modify (·.logged (.outb port data))

def portByteIn (port : UInt16) : Drv UInt8 := do
  let s ← get
  match s.dev.inbox with
  | [] => throw .noAnswer
  | b :: rest =>
      set { s.logged (.inb port b) with dev.inbox := rest }
      return b

/-- `rep insw`: `n` words from the data port to memory. -/
def repInsw (port : UInt16) (n : Nat) (edi : UInt32) : Drv Unit :=
  modify fun s =>
    { s.logged (.insw port n) with
      mem := s.mem.write edi (2 * n) fun j => byteOf (s.dev.words (j / 2)).toNat (j % 2)
      dev.words := fun i => s.dev.words (n + i) }

/-- `rep outsw` from a list of words. -/
def repOutsw (port : UInt16) (data : List UInt16) : Drv Unit :=
  modify (·.logged (.outsw port data))

/-- The `n` words in memory from `p` on. -/
def wordsAt (m : Mem) (p : UInt32) (n : Nat) : List UInt16 :=
  (List.range n).map fun i => m.load16 (p + UInt32.ofNat (2 * i))

/-! ## Registers -/

/-- The port of a register, if it has one. -/
def portOf (c : IdeChannelRegisters) (reg : UInt8) : Option UInt16 :=
  if reg < 0x08 then some (c.base + reg.toUInt16 - 0x00)
  else if reg < 0x0C then some (c.base + reg.toUInt16 - 0x06)
  else if reg < 0x0E then some (c.ctrl + reg.toUInt16 - 0x0A)
  else if reg < 0x16 then some (c.bmide + reg.toUInt16 - 0x0E)
  else none

/-- The middle of `ide_write`. -/
def ideOut (channel : Fin 2) (reg data : UInt8) : Drv Unit := do
  let s ← get
  match portOf (s.dev.channels channel) reg with
  | some port => portByteOut port data
  | none => return ()

/-- `ide_write`. It calls itself only for the control register, register
`0x0C`, where it is `ideOut`. -/
def ideWrite (channel : Fin 2) (reg data : UInt8) : Drv Unit := do
  let s ← get
  let nIEN := (s.dev.channels channel).nIEN
  if 0x07 < reg ∧ reg < 0x0C then
    ideOut channel 0x0C (0x80 ||| nIEN)
  ideOut channel reg data
  if 0x07 < reg ∧ reg < 0x0C then
    ideOut channel 0x0C nIEN

/-- `ide_read`, for the registers that have a port. -/
def ideRead (channel : Fin 2) (reg : UInt8) : Drv UInt8 := do
  let s ← get
  let nIEN := (s.dev.channels channel).nIEN
  if 0x07 < reg ∧ reg < 0x0C then
    ideOut channel 0x0C (0x80 ||| nIEN)
  let result ← match portOf (s.dev.channels channel) reg with
    | some port => portByteIn port
    | none => throw .noAnswer
  if 0x07 < reg ∧ reg < 0x0C then
    ideOut channel 0x0C nIEN
  return result

/-- `while (ide_read(channel, ATA_REG_STATUS) & mask);` Each round takes a byte
off the tape, so there are at most as many as the tape is long. -/
def waitWhileLoop (channel : Fin 2) (mask : UInt8) : Nat → Drv Unit
  | 0 => throw .noAnswer
  | n + 1 => do
      let status ← ideRead channel 0x07
      if status &&& mask ≠ 0 then
        waitWhileLoop channel mask n

def waitWhile (channel : Fin 2) (mask : UInt8) : Drv Unit := do
  let s ← get
  waitWhileLoop channel mask (s.dev.inbox.length + 1)

/-- The delay of four reads of the alternate status. -/
def delay400 (channel : Fin 2) : Drv Unit := do
  let _ ← ideRead channel 0x0C
  let _ ← ideRead channel 0x0C
  let _ ← ideRead channel 0x0C
  let _ ← ideRead channel 0x0C

def idePolling (channel : Fin 2) (advancedCheck : Bool) : Drv UInt8 := do
  delay400 channel
  waitWhile channel 0x80
  if advancedCheck then
    let state ← ideRead channel 0x07
    if state &&& 0x01 ≠ 0 then
      return 2
    if state &&& 0x20 ≠ 0 then
      return 1
    if state &&& 0x08 = 0 then
      return 3
  return 0

/-- The rows of the error register in `ide_print_error`: a bit, its message
and the code it leads to. A later row overrides an earlier one. -/
def errorRows : List (UInt8 × String × UInt8) :=
  [(0x01, "- No Address Mark Found\n     ", 7),
   (0x02, "- No Media or Media Error\n     ", 3),
   (0x04, "- Command Aborted\n     ", 20),
   (0x08, "- No Media or Media Error\n     ", 3),
   (0x10, "- ID mark not Found\n     ", 21),
   (0x20, "- No Media or Media Error\n     ", 3),
   (0x40, "- Uncorrectable Data Error\n     ", 22),
   (0x80, "- Bad Sectors\n     ", 13)]

def printErrorRows (st : UInt8) : List (UInt8 × String × UInt8) → UInt8 → Drv UInt8
  | [], err => return err
  | (bit, message, code) :: rows, err => do
      if st &&& bit ≠ 0 then
        drvPrint (.str message)
        printErrorRows st rows code
      else
        printErrorRows st rows err

/-- The end of the message of `ide_print_error`. -/
def printDevice (device : IdeDevice) : Drv Unit := do
  drvPrint (.str "device: [")
  drvPrint (.str (if device.channel = 0 then "Primary" else "Secondary"))
  drvPrint (.str " ")
  drvPrint (.str (if device.drive = 0 then "Master" else "Slave"))
  drvPrint (.str "] ")
  drvPrint (.bytes device.model)
  drvPrint (.str "\n")

def idePrintError (drive : UInt8) (err : UInt8) : Drv UInt8 := do
  if err = 0 then
    return err
  let s ← get
  let device := s.dev.ideDevices drive
  drvPrint (.str "IDE:")
  let err ←
    if err = 1 then do
      drvPrint (.str "- Device Fault\n     ")
      pure 19
    else if err = 2 then do
      let st ← ideRead device.channel 0x01
      printErrorRows st errorRows err
    else if err = 3 then do
      drvPrint (.str "- Reads Nothing\n     ")
      pure 23
    else if err = 4 then do
      drvPrint (.str "- Write Protected\n     ")
      pure 8
    else pure err
  printDevice device
  return err

/-! ## `ide_ata_access` -/

/-- `lba_mode` -/
inductive LbaMode where
  | chs
  | lba28
  | lba48
deriving DecidableEq, Repr

/-- What step (I) of `ide_ata_access` computes. -/
structure LbaIo where
  lbaMode : LbaMode
  io0 : UInt8
  io1 : UInt8
  io2 : UInt8
  io3 : UInt8
  io4 : UInt8
  io5 : UInt8
  head : UInt8
deriving DecidableEq, Repr

def selectLba (capabilities : UInt16) (lba : UInt32) : LbaIo :=
  if lba ≥ 0x10000000 then
    { lbaMode := .lba48
      io0 := ((lba &&& 0x000000FF) >>> 0).toUInt8
      io1 := ((lba &&& 0x0000FF00) >>> 8).toUInt8
      io2 := ((lba &&& 0x00FF0000) >>> 16).toUInt8
      io3 := ((lba &&& 0xFF000000) >>> 24).toUInt8
      io4 := 0
      io5 := 0
      head := 0 }
  else if capabilities &&& 0x200 ≠ 0 then
    { lbaMode := .lba28
      io0 := ((lba &&& 0x00000FF) >>> 0).toUInt8
      io1 := ((lba &&& 0x000FF00) >>> 8).toUInt8
      io2 := ((lba &&& 0x0FF0000) >>> 16).toUInt8
      io3 := 0
      io4 := 0
      io5 := 0
      head := ((lba &&& 0xF000000) >>> 24).toUInt8 }
  else
    let sect := (lba % 63 + 1).toUInt8
    let cyl := ((lba + 1 - sect.toUInt32) / (16 * 63)).toUInt16
    { lbaMode := .chs
      io0 := sect
      io1 := (cyl &&& 0xFF).toUInt8
      io2 := ((cyl >>> 8) &&& 0xFF).toUInt8
      io3 := 0
      io4 := 0
      io5 := 0
      head := ((lba + 1 - sect.toUInt32) % (16 * 63) / 63).toUInt8 }

/-- `cmd` -/
def commandOf : Direction → LbaMode → UInt8
  | .read, .lba48 => 0x24
  | .read, _ => 0x20
  | .write, .lba48 => 0x34
  | .write, _ => 0x30

/-- The command that empties the write cache. -/
def flushOf : LbaMode → UInt8
  | .lba48 => 0xEA
  | _ => 0xE7

/-- Steps (IV) and (V) up to the command. -/
def sendCommand (channel : Fin 2) (slavebit : Fin 2) (io : LbaIo)
    (numsects : UInt8) (direction : Direction) : Drv Unit := do
  let slave := UInt8.ofNat slavebit.val <<< 4
  if io.lbaMode = .chs then
    ideWrite channel 0x06 (0xA0 ||| slave ||| io.head)
  else
    ideWrite channel 0x06 (0xE0 ||| slave ||| io.head)
  if io.lbaMode = .lba48 then
    ideWrite channel 0x08 0
    ideWrite channel 0x09 io.io3
    ideWrite channel 0x0A io.io4
    ideWrite channel 0x0B io.io5
  ideWrite channel 0x02 numsects
  ideWrite channel 0x03 io.io0
  ideWrite channel 0x04 io.io1
  ideWrite channel 0x05 io.io2
  ideWrite channel 0x07 (commandOf direction io.lbaMode)

def pioRead (channel : Fin 2) (bus : UInt16) : Nat → UInt32 → Drv UInt8
  | 0, _ => return 0
  | n + 1, edi => do
      let err ← idePolling channel true
      if err ≠ 0 then
        return err
      repInsw bus 256 edi
      pioRead channel bus n (edi + 512)

def pioWrite (channel : Fin 2) (bus : UInt16) : Nat → UInt32 → Drv Unit
  | 0, _ => return ()
  | n + 1, edi => do
      let _ ← idePolling channel false
      let s ← get
      repOutsw bus (wordsAt s.mem edi 256)
      pioWrite channel bus n (edi + 512)

/-- `channels[channel].nIEN = v`, with `ide_irq_invoked = 0`. -/
def setNIEN (channel : Fin 2) (v : UInt8) : Drv Unit :=
  modify fun s =>
    { s with
      dev.ideIrqInvoked := 0
      dev.channels := Function.update s.dev.channels channel
        { s.dev.channels channel with nIEN := v } }

def ideAtaAccess (direction : Direction) (drive : UInt8) (lba : UInt32)
    (numsects : UInt8) (_selector : UInt16) (edi : UInt32) : Drv UInt8 := do
  let s ← get
  let device := s.dev.ideDevices drive
  let channel := device.channel
  let bus := (s.dev.channels channel).base
  setNIEN channel 2
  ideWrite channel 0x0C 2
  let io := selectLba device.capabilities lba
  waitWhile channel 0x80
  sendCommand channel device.drive io numsects direction
  match direction with
  | .read => pioRead channel bus numsects.toNat edi
  | .write => do
      pioWrite channel bus numsects.toNat edi
      ideWrite channel 0x07 (flushOf io.lbaMode)
      let _ ← idePolling channel false
      return 0

/-! ## `ide_atapi_read` -/

def ideWaitIrq : Drv Unit := do
  let s ← get
  if s.dev.ideIrqInvoked = 0 ∧ s.dev.irqs = 0 then
    throw .noAnswer
  set { s with
    dev.irqs := if s.dev.ideIrqInvoked = 0 then s.dev.irqs - 1 else s.dev.irqs
    dev.ideIrqInvoked := 0 }

/-- `atapi_packet`, as the six words the drive is sent. -/
def atapiPacket (lba : UInt32) (numsects : UInt8) : List UInt16 :=
  let bytes : List UInt8 :=
    [0xA8, 0x0, ((lba >>> 24) &&& 0xFF).toUInt8, ((lba >>> 16) &&& 0xFF).toUInt8,
     ((lba >>> 8) &&& 0xFF).toUInt8, ((lba >>> 0) &&& 0xFF).toUInt8, 0x0, 0x0, 0x0,
     numsects, 0x0, 0x0]
  (List.range 6).map fun i =>
    UInt16.ofNat ((bytes.getD (2 * i) 0).toNat + 2 ^ 8 * (bytes.getD (2 * i + 1) 0).toNat)

def atapiReceive (channel : Fin 2) (bus : UInt16) : Nat → UInt32 → Drv UInt8
  | 0, _ => do
      ideWaitIrq
      waitWhile channel 0x88
      return 0
  | n + 1, edi => do
      ideWaitIrq
      let err ← idePolling channel true
      if err ≠ 0 then
        return err
      repInsw bus 1024 edi
      atapiReceive channel bus n (edi + 2048)

def ideAtapiRead (drive : UInt8) (lba : UInt32) (numsects : UInt8)
    (_selector : UInt16) (edi : UInt32) : Drv UInt8 := do
  let s ← get
  let device := s.dev.ideDevices drive
  let channel := device.channel
  let bus := (s.dev.channels channel).base
  setNIEN channel 0
  ideWrite channel 0x0C 0
  ideWrite channel 0x06 (UInt8.ofNat device.drive.val <<< 4)
  delay400 channel
  ideWrite channel 0x01 0
  -- the byte count, 2048
  ideWrite channel 0x04 0x00
  ideWrite channel 0x05 0x08
  ideWrite channel 0x07 0xA0
  let err ← idePolling channel true
  if err ≠ 0 then
    return err
  repOutsw bus (atapiPacket lba numsects)
  atapiReceive channel bus numsects.toNat edi

/-! ## The entry points -/

def setPackage0 (v : Int32) : Drv Unit :=
  modify fun s => { s with dev.package0 := v }

def getPackage0 : Drv Int32 := do
  let s ← get
  return s.dev.package0

/-- The sector loop for an ATAPI drive from round `i` on; `err` is what the
round before left. -/
def atapiSectors (drive : UInt8) (lba : UInt32) (es : UInt16) (edi : UInt32) :
    (n i : Nat) → UInt8 → Drv UInt8
  | 0, _, err => return err
  | n + 1, i, _ => do
      let err ← ideAtapiRead drive (lba + UInt32.ofNat i) 1 es
        (edi + UInt32.ofNat (i * 2048))
      atapiSectors drive lba es edi n (i + 1) err

/-- `drive > 3 || ide_devices[drive].Reserved == 0` -/
def DriveAbsent (a : Ata) (drive : UInt8) : Prop :=
  drive > 3 ∨ (a.ideDevices drive).reserved = 0

/-- The range check. -/
def OutOfRange (a : Ata) (drive : UInt8) (lba : UInt32) (numsects : UInt8) : Prop :=
  lba + numsects.toUInt32 > (a.ideDevices drive).size ∧
    (a.ideDevices drive).type = .ata

instance {a : Ata} {drive : UInt8} : Decidable (DriveAbsent a drive) :=
  inferInstanceAs (Decidable (_ ∨ _))

instance {a : Ata} {drive : UInt8} {lba : UInt32} {numsects : UInt8} :
    Decidable (OutOfRange a drive lba numsects) :=
  inferInstanceAs (Decidable (_ ∧ _))

/-- `ide_read_sectors`. `junk` is the value of `err` before it is assigned: it
is read only for an ATAPI drive and no sectors. -/
def ideReadSectors (junk : UInt8) (drive numsects : UInt8) (lba : UInt32)
    (es : UInt16) (edi : UInt32) : Drv Int32 := do
  let s ← get
  if DriveAbsent s.dev drive then
    setPackage0 1
  else if OutOfRange s.dev drive lba numsects then
    setPackage0 2
  else
    match (s.dev.ideDevices drive).type with
    | .ata => do
        let _ ← ideAtaAccess .read drive lba numsects es edi
    | .atapi => do
        let err ← atapiSectors drive lba es edi numsects.toNat 0 junk
        let err ← idePrintError drive err
        setPackage0 (Int32.ofNat err.toNat)
  getPackage0

def ideWriteSectors (drive numsects : UInt8) (lba : UInt32) (es : UInt16)
    (edi : UInt32) : Drv Int32 := do
  let s ← get
  if DriveAbsent s.dev drive then
    setPackage0 1
  else if OutOfRange s.dev drive lba numsects then
    setPackage0 2
  else do
    let err ←
      match (s.dev.ideDevices drive).type with
      | .ata => ideAtaAccess .write drive lba numsects es edi
      | .atapi => pure 4
    let err ← idePrintError drive err
    setPackage0 (Int32.ofNat err.toNat)
  getPackage0

/-- The channel registers `ide_initialize` sets from the base address registers
it is given. -/
def ideChannels (bar0 bar1 bar2 bar3 bar4 : UInt32) (channel : Fin 2) :
    IdeChannelRegisters :=
  let defaulted (bar port : UInt32) : UInt16 :=
    ((bar &&& 0xFFFFFFFC) + port * (if bar = 0 then 1 else 0)).toUInt16
  if channel = 0 then
    { base := defaulted bar0 0x1F0
      ctrl := defaulted bar1 0x3F6
      bmide := ((bar4 &&& 0xFFFFFFFC) + 0).toUInt16
      nIEN := 0 }
  else
    { base := defaulted bar2 0x170
      ctrl := defaulted bar3 0x376
      bmide := ((bar4 &&& 0xFFFFFFFC) + 8).toUInt16
      nIEN := 0 }

/-- A machine on which `storage_driver_init` has found `device` as its only drive, with
`inbox` to come. -/
def ataBoot (device : IdeDevice) (inbox : List UInt8) : Machine Ata where
  mem _ := 0
  console := []
  dev :=
    { inbox := inbox
      words := fun _ => 0
      irqs := 0
      log := []
      channels := ideChannels 0x1F0 0x3F6 0x170 0x376 0
      ideDevices := fun drive => if drive = 0 then device else { device with reserved := 0 }
      ideIrqInvoked := 0
      package0 := 0 }

end Bedrock
