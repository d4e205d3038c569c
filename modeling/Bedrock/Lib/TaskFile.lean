import Mathlib.Algebra.Group.Nat.Defs
import Mathlib.Data.List.Basic

/-!
# The ATA task file

The registers an ATA drive is given a command through. The sector count and
the three address registers are queues of depth two: a write pushes the value
written before it into the second place, and the 48-bit commands read that
second place as their high-order bytes. The device register selects the unit
with bit 4 and LBA addressing with bit 6; its low nibble is the top of a
28-bit address or the head.

A write to the command register makes the drive read all of them: that is
`TaskFile.decode`.
-/

namespace Bedrock.Lib

/-- A register of depth two. -/
structure Fifo where
  current : UInt8
  previous : UInt8
deriving DecidableEq, Repr

def Fifo.push (f : Fifo) (v : UInt8) : Fifo := ⟨v, f.current⟩

structure TaskFile where
  sectorCount : Fifo
  lbaLow : Fifo
  lbaMid : Fifo
  lbaHigh : Fifo
  device : UInt8
deriving DecidableEq, Repr

inductive Direction where
  | read
  | write
deriving DecidableEq, Repr

/-- What a drive is told to do. A transfer names its unit, its first sector and
its number of sectors; `space` is the number of sectors that its form of
address can name at all. -/
inductive Command where
  | transfer (direction : Direction) (unit start count space : Nat)
  | flush (unit : Nat)
  | other (opcode : UInt8) (unit : Nat)
deriving DecidableEq, Repr

namespace TaskFile

/-- The sectors a cylinder, head and sector number can name. -/
def chsSpace : Nat := 65536 * 16 * 63

def unit (t : TaskFile) : Nat := t.device.toNat / 16 % 2

def lbaMode (t : TaskFile) : Bool := t.device.toNat / 64 % 2 = 1

/-- The address of a 28-bit command: by bit 6 of the device register a linear
one, or cylinder, head and sector on a drive of 16 heads and 63 sectors. -/
def start28 (t : TaskFile) : Nat :=
  if t.lbaMode then
    t.lbaLow.current.toNat + 2 ^ 8 * t.lbaMid.current.toNat +
      2 ^ 16 * t.lbaHigh.current.toNat + 2 ^ 24 * (t.device.toNat % 16)
  else
    ((t.lbaMid.current.toNat + 2 ^ 8 * t.lbaHigh.current.toNat) * 16 +
      t.device.toNat % 16) * 63 + t.lbaLow.current.toNat - 1

/-- A count of 0 stands for one more than the register can hold. -/
def count28 (t : TaskFile) : Nat :=
  if t.sectorCount.current = 0 then 256 else t.sectorCount.current.toNat

def start48 (t : TaskFile) : Nat :=
  t.lbaLow.current.toNat + 2 ^ 8 * t.lbaMid.current.toNat +
    2 ^ 16 * t.lbaHigh.current.toNat + 2 ^ 24 * t.lbaLow.previous.toNat +
    2 ^ 32 * t.lbaMid.previous.toNat + 2 ^ 40 * t.lbaHigh.previous.toNat

def count48 (t : TaskFile) : Nat :=
  if t.sectorCount.current = 0 ∧ t.sectorCount.previous = 0 then 65536
  else t.sectorCount.current.toNat + 2 ^ 8 * t.sectorCount.previous.toNat

def transfer28 (t : TaskFile) (direction : Direction) : Command :=
  .transfer direction t.unit t.start28 t.count28
    (if t.lbaMode then 2 ^ 28 else chsSpace)

def transfer48 (t : TaskFile) (direction : Direction) : Command :=
  .transfer direction t.unit t.start48 t.count48 (2 ^ 48)

/-- The command behind an opcode. -/
def decode (t : TaskFile) (opcode : UInt8) : Command :=
  if opcode = 0x20 then t.transfer28 .read
  else if opcode = 0x30 then t.transfer28 .write
  else if opcode = 0x24 then t.transfer48 .read
  else if opcode = 0x34 then t.transfer48 .write
  else if opcode = 0xE7 ∨ opcode = 0xEA then .flush t.unit
  else .other opcode t.unit

end TaskFile

/-- The drives of a channel: the registers they share and the commands they
were given, newest last. -/
structure DriveState where
  file : TaskFile
  commands : List Command
deriving DecidableEq, Repr

/-- A write to command block register `reg`. -/
def DriveState.write (d : DriveState) (reg : Nat) (v : UInt8) : DriveState :=
  match reg with
  | 2 => { d with file.sectorCount := d.file.sectorCount.push v }
  | 3 => { d with file.lbaLow := d.file.lbaLow.push v }
  | 4 => { d with file.lbaMid := d.file.lbaMid.push v }
  | 5 => { d with file.lbaHigh := d.file.lbaHigh.push v }
  | 6 => { d with file.device := v }
  | 7 => { d with commands := d.commands ++ [d.file.decode v] }
  | _ => d

end Bedrock.Lib
