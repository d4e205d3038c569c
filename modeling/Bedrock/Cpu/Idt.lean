import Bedrock.Cpu.Gdt
import Bedrock.Cpu.Interrupt
import Bedrock.Cpu.Timer
import Bedrock.Drivers.Ata
import Bedrock.Lib.Pic

/-!
# `cpu/idt.c`, `isr_install` and `irq_install`

The gates in `idt`, the words that set up the two interrupt controllers and the
timer, and how the processor and the controllers take them.
-/

namespace Bedrock

open Lib

/-! ## The gates -/

/-- `low_16` -/
def low16 (address : UInt32) : UInt16 := (address &&& 0xFFFF).toUInt16

/-- `high_16` -/
def high16 (address : UInt32) : UInt16 := ((address >>> 16) &&& 0xFFFF).toUInt16

/-- `idt_gate_t` -/
structure IdtGate where
  lowOffset : UInt16
  sel : UInt16
  always0 : UInt8
  flags : UInt8
  highOffset : UInt16

/-- The fields of a gate, from its lowest bit on. -/
def IdtGate.fields (g : IdtGate) : List (Nat × Nat) :=
  [(16, g.lowOffset.toNat), (16, g.sel.toNat), (8, g.always0.toNat), (8, g.flags.toNat),
    (16, g.highOffset.toNat)]

/-- A gate as it lies in memory. -/
def IdtGate.value (g : IdtGate) : Nat := pack g.fields

def idtGate (handler : UInt32) (flags : UInt8) : IdtGate where
  lowOffset := low16 handler
  sel := kernelCs
  always0 := 0
  flags := flags
  highOffset := high16 handler

/-- `IDT_ENTRIES` -/
def idtEntries : Nat := 256

/-- `FLAGS_RING0_ONLY` -/
def flagsRing0Only : UInt8 := 0x8E

/-- `FLAGS_USERMODE` -/
def flagsUsermode : UInt8 := 0xEE

/-- The last argument of `set_idt_gate` in `isr_install`. -/
def gateFlags (n : Fin 48) : UInt8 := if n.val = 1 then flagsUsermode else flagsRing0Only

section

variable [TableLayout]

def setIdtGate (n : Nat) (handler : UInt32) (flags : UInt8) : Drv Unit :=
  modify fun s => { s with mem := s.mem.setQuad TableLayout.idt n (idtGate handler flags).value }

/-- `set_idt`: what `lidt` loads. -/
def setIdt : TableRegister := ⟨UInt16.ofNat (idtEntries * 8 - 1), TableLayout.idt⟩

/-- The calls of `set_idt_gate` for some vectors, `isr0` to `irq15` being at `entry`. -/
def setIdtGates (entry : Fin 48 → UInt32) : List (Fin 48) → Drv Unit
  | [] => return ()
  | n :: ns => do
      setIdtGate n.val (entry n) (gateFlags n)
      setIdtGates entry ns

/-- "Remap the PIC" -/
def remapPic : Drv Unit := do
  portByteOut 0x20 0x11
  portByteOut 0xA0 0x11
  portByteOut 0x21 0x20
  portByteOut 0xA1 0x28
  portByteOut 0x21 0x04
  portByteOut 0xA1 0x02
  portByteOut 0x21 0x01
  portByteOut 0xA1 0x01
  portByteOut 0x21 0x0
  portByteOut 0xA1 0x0

/-- `isr_install`, with what it loads the register with. -/
def installIsrs (entry : Fin 48 → UInt32) : Drv TableRegister := do
  setIdtGates entry ((List.finRange 48).take 32)
  remapPic
  setIdtGates entry ((List.finRange 48).drop 32)
  return setIdt

end

/-! ## `irq_install` -/

def registerInterruptHandler (n : UInt8) (handler : Drv Unit)
    (interruptHandlers : UInt8 → Option (Drv Unit)) : UInt8 → Option (Drv Unit) :=
  Function.update interruptHandlers n (some handler)

/-- The words of `init_timer`. -/
def initTimer (freq : UInt32) : Drv Unit := do
  let divisor := 1193180 / freq
  let low := (divisor &&& 0xFF).toUInt8
  let high := ((divisor >>> 8) &&& 0xFF).toUInt8
  portByteOut 0x43 0x36
  portByteOut 0x40 low
  portByteOut 0x40 high

/-- `interrupt_handlers` as `init_timer` and `init_keyboard` leave it. -/
def irqHandlers (timerCallback keyboardCallback : Drv Unit) : UInt8 → Option (Drv Unit) :=
  registerInterruptHandler 33 keyboardCallback
    (registerInterruptHandler 32 timerCallback fun _ => none)

theorem irqHandlers_cases {timerCallback keyboardCallback handler : Drv Unit} {v : UInt8}
    (h : irqHandlers timerCallback keyboardCallback v = some handler) :
    handler = timerCallback ∨ handler = keyboardCallback := by
  rw [irqHandlers, registerInterruptHandler, registerInterruptHandler] at h
  by_cases hkey : v = 33
  · rw [hkey, Function.update_self] at h
    exact .inr (Option.some.inj h).symm
  · rw [Function.update_of_ne hkey] at h
    by_cases htick : v = 32
    · rw [htick, Function.update_self] at h
      exact .inl (Option.some.inj h).symm
    · rw [Function.update_of_ne htick] at h
      cases h

/-- `timer_callback` and `keyboard_callback`, as far as they go to ports. -/
def portHandlers : UInt8 → Option (Drv Unit) :=
  irqHandlers (pure ()) (do let _ ← portByteIn 0x60)

/-! ## The processor -/

/-- The state at the first instruction of the handler. -/
def Cpu.enter (c : Cpu) (e : Entry) (errorCode : Option UInt32) : Cpu :=
  let inner : Cpu :=
    match e.stack with
    | none => c
    | some (ss, esp) =>
        (({ c with ss := ss }.set .esp esp).push c.ss.toUInt32).push (c.gpr .esp)
  let framed := ((inner.push c.eflags).push c.cs.toUInt32).push c.eip
  let coded := match errorCode with
    | some code => framed.push code
    | none => framed
  { coded with
    eflags := c.eflags &&& ~~~(if e.masks then 0x34300 else 0x34100)
    cs := e.cs
    eip := e.eip }

/-! ## The controllers -/

/-- The command and the data port of the master, and those of the slave. -/
def picPorts : List UInt16 := [0x20, 0x21, 0xA0, 0xA1]

/-- The controllers after an access to a port. Nothing reads their ports, and
words of 16 bits are not for them. -/
def hearPort (p : PicPair) : PortEvent → Option PicPair
  | .outb port data =>
      if port = 0x20 then (p.master.command data).map fun q => { p with master := q }
      else if port = 0x21 then (p.master.data data).map fun q => { p with master := q }
      else if port = 0xA0 then (p.slave.command data).map fun q => { p with slave := q }
      else if port = 0xA1 then (p.slave.data data).map fun q => { p with slave := q }
      else some p
  | .outsw port _ => if port ∈ picPorts then none else some p
  | .inb _ _ => some p
  | .insw _ _ => some p

def hearPorts (p : PicPair) (es : List PortEvent) : Option PicPair := es.foldlM hearPort p

end Bedrock
