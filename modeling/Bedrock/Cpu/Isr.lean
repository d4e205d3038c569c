import Bedrock.Drivers.Ata

/-!
# `irq_handler` and the steps it runs between

`ide_irq` and `ide_wait_irq` share one flag. The code of `ide_atapi_read` is
given here as its program points, each with the action that leads to the next
one, so that an interrupt can come between any two: `ide_wait_irq` is the test
of the flag, repeated until it is set, and then the store that clears it.
Register accesses that belong to one call of `ide_write`, `ide_read` or
`ide_polling` are one action; none of them looks at the flag.

An interrupt runs `irq_handler` to its end. The handlers in
`interrupt_handlers` are a parameter.
-/

namespace Bedrock

open Lib

/-- `ide_irq` -/
def ideIrq : Drv Unit := modify fun s => { s with dev.ideIrqInvoked := 1 }

/-- `irq_handler`, for the interrupt number in the frame. -/
def irqHandler (interruptHandlers : UInt8 → Option (Drv Unit)) (intNo : UInt8) : Drv Unit := do
  ideIrq
  -- the end of the interrupt, to the slave and to the master
  if 40 ≤ intNo then
    portByteOut 0xA0 0x20
  portByteOut 0x20 0x20
  match interruptHandlers intNo with
  | some handler => handler
  | none => return ()

/-! ## `ide_atapi_read`, step by step -/

/-- The locals of a call of `ide_atapi_read`. -/
structure AtapiCall where
  channel : Fin 2
  slavebit : Fin 2
  bus : UInt16
  lba : UInt32
  numsects : UInt8

/-- Where the reader is. `edi` is the place of the sector that is next, and `n`
the number of sectors still to come. -/
inductive Point where
  /-- before the call or after it, with the value it returned -/
  | idle (err : UInt8)
  | enable (edi : UInt32)
  | control (edi : UInt32)
  | select (edi : UInt32)
  | delay (edi : UInt32)
  | features (edi : UInt32)
  | lba1 (edi : UInt32)
  | lba2 (edi : UInt32)
  | command (edi : UInt32)
  | polling (edi : UInt32)
  | packet (edi : UInt32)
  /-- `while (!ide_irq_invoked);` -/
  | test (n : Nat) (edi : UInt32)
  /-- `ide_irq_invoked = 0;` behind it -/
  | clear (n : Nat) (edi : UInt32)
  | check (n : Nat) (edi : UInt32)
  | receive (n : Nat) (edi : UInt32)
  | drain
deriving DecidableEq

/-- The action at a point, and the point it leads to. -/
def atapiStep (c : AtapiCall) : Point → Drv Point
  | .idle err => return .idle err
  | .enable edi => do
      setNIEN c.channel 0
      return .control edi
  | .control edi => do
      ideWrite c.channel 0x0C 0
      return .select edi
  | .select edi => do
      ideWrite c.channel 0x06 (UInt8.ofNat c.slavebit.val <<< 4)
      return .delay edi
  | .delay edi => do
      delay400 c.channel
      return .features edi
  | .features edi => do
      ideWrite c.channel 0x01 0
      return .lba1 edi
  | .lba1 edi => do
      ideWrite c.channel 0x04 0x00
      return .lba2 edi
  | .lba2 edi => do
      ideWrite c.channel 0x05 0x08
      return .command edi
  | .command edi => do
      ideWrite c.channel 0x07 0xA0
      return .polling edi
  | .polling edi => do
      let err ← idePolling c.channel true
      if err ≠ 0 then
        return .idle err
      return .packet edi
  | .packet edi => do
      repOutsw c.bus (atapiPacket c.lba c.numsects)
      return .test c.numsects.toNat edi
  | .test n edi => do
      let s ← get
      if s.dev.ideIrqInvoked = 0 then
        return .test n edi
      return .clear n edi
  | .clear n edi => do
      modify fun s => { s with dev.ideIrqInvoked := 0 }
      match n with
      | 0 => return .drain
      | n + 1 => return .check n edi
  | .check n edi => do
      let err ← idePolling c.channel true
      if err ≠ 0 then
        return .idle err
      return .receive n edi
  | .receive n edi => do
      repInsw c.bus 1024 edi
      return .test n (edi + 2048)
  | .drain => do
      waitWhile c.channel 0x88
      return .idle 0

/-! ## Interrupts between the steps -/

/-- The reader and the machine. The rest is not in the machine: how many
interrupts the drive has raised since the flag was reset at the start of the
call, how many of them since the flag was last cleared, and how many waits have
returned in the call. -/
structure Reader where
  machine : Machine Ata
  call : AtapiCall
  point : Point
  raised : Nat
  fresh : Nat
  returned : Nat

inductive ReaderEvent where
  | call (drive : UInt8) (lba : UInt32) (numsects : UInt8) (edi : UInt32)
  | step
  | irq (line : Fin 16)
deriving DecidableEq

/-- The interrupts of the two IDE channels. -/
def IsDrive (line : Fin 16) : Prop := line = 14 ∨ line = 15

instance (line : Fin 16) : Decidable (IsDrive line) := inferInstanceAs (Decidable (_ ∨ _))

/-- What a step does to the three counts. -/
def Reader.count (r : Reader) : Reader :=
  match r.point with
  | .enable _ => { r with raised := 0, fresh := 0, returned := 0 }
  | .clear _ _ => { r with fresh := 0, returned := r.returned + 1 }
  | _ => r

def Reader.next (interruptHandlers : UInt8 → Option (Drv Unit)) (r : Reader) :
    ReaderEvent → Option Reader
  | .call drive lba numsects edi =>
      match r.point with
      | .idle _ =>
          let device := r.machine.dev.ideDevices drive
          some { r with
            call := ⟨device.channel, device.drive, (r.machine.dev.channels device.channel).base,
              lba, numsects⟩
            point := .enable edi }
      | _ => none
  | .step =>
      match (atapiStep r.call r.point).run r.machine with
      | .ok p m => some { r.count with machine := m, point := p }
      | .error _ _ => none
  | .irq line =>
      match (irqHandler interruptHandlers (UInt8.ofNat (32 + line.val))).run r.machine with
      | .ok _ m =>
          let drives := if IsDrive line then 1 else 0
          some { r with
            machine := m
            raised := r.raised + drives
            fresh := r.fresh + drives }
      | .error _ _ => none

end Bedrock
