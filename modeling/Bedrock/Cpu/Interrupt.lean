import Mathlib.Logic.Function.Basic
import Bedrock.Lib.Stack

/-!
# Interrupts, from the CPU to the handler and back

The instructions of `interrupt.asm` as functions on the registers and the
memory, the stubs as lists of them, and what the CPU does by itself: the push
of the interrupted context on the way in, and `iret`.

The CPU is in protected mode with the segments of `setup_gdt`. The instruction
pointer is kept where it counts, at the entry and at `iret`, and of the flags
those that `iret` takes from the stack.
-/

namespace Bedrock

open Lib

/-! ## The CPU -/

/-- The general registers. -/
inductive Reg where
  | eax | ecx | edx | ebx | esp | ebp | esi | edi
deriving DecidableEq

/-- The data segment registers. -/
inductive Seg where
  | ds | es | fs | gs
deriving DecidableEq

structure Cpu where
  gpr : Reg → UInt32
  seg : Seg → UInt16
  cs : UInt16
  ss : UInt16
  eip : UInt32
  eflags : UInt32
  mem : Mem

def Cpu.set (c : Cpu) (r : Reg) (v : UInt32) : Cpu :=
  { c with gpr := Function.update c.gpr r v }

def Cpu.setSeg (c : Cpu) (s : Seg) (v : UInt16) : Cpu :=
  { c with seg := Function.update c.seg s v }

def Cpu.push (c : Cpu) (w : UInt32) : Cpu :=
  { c.set .esp (c.gpr .esp - 4) with mem := c.mem.store32 (c.gpr .esp - 4) w }

@[simp] theorem Cpu.push_esp (c : Cpu) (w : UInt32) :
    (c.push w).gpr .esp = c.gpr .esp - 4 := rfl

@[simp] theorem Cpu.push_cs (c : Cpu) (w : UInt32) : (c.push w).cs = c.cs := rfl

@[simp] theorem Cpu.push_ss (c : Cpu) (w : UInt32) : (c.push w).ss = c.ss := rfl

/-- The word on top of the stack. -/
def Cpu.top (c : Cpu) : UInt32 := c.mem.load32 (c.gpr .esp)

/-- The stack without its top word. -/
def Cpu.drop (c : Cpu) : Cpu := c.set .esp (c.gpr .esp + 4)

def Cpu.pop (c : Cpu) (r : Reg) : Cpu := c.drop.set r c.top

/-- The privilege level in a selector; that of `cs` is the current one. -/
def rpl (selector : UInt16) : UInt16 := selector &&& 3

/-- `DPL` of the segments in `gdt`: 0 for the kernel's code and data. The null
selector can be kept at any level. -/
def dpl (selector : UInt16) : UInt16 :=
  if selector >>> 3 = 1 ∨ selector >>> 3 = 2 then 0 else 3

/-- `iret`: `eip`, `cs` and the flags are popped, and on the way to an outer
level the stack as well; the data segments of an inner level are lost there. -/
def Cpu.iret (c : Cpu) : Cpu :=
  let cs := c.drop.top.toUInt16
  let inner : Cpu :=
    { c.drop.drop.drop with eip := c.top, cs := cs, eflags := c.drop.drop.top }
  if rpl c.cs < rpl cs then
    { inner.drop.drop.set .esp inner.top with
      ss := inner.drop.top.toUInt16
      seg := fun s => if dpl (inner.seg s) < rpl cs then 0 else inner.seg s }
  else inner

/-- The C functions that the stubs call. -/
inductive CFunction where
  | isrHandler
  | irqHandler
deriving DecidableEq

inductive Instr where
  | pushByte (n : Int8)
  | push (r : Reg)
  | pusha
  /-- `mov ax, s` -/
  | movAxSeg (s : Seg)
  /-- `mov ax, n` -/
  | movAx (n : UInt16)
  /-- `mov s, r`, from the lower half of `r` -/
  | movSeg (s : Seg) (r : Reg)
  | cld
  | call (f : CFunction)
  | pop (r : Reg)
  | popa
  | addEsp (n : UInt32)
  | iret
deriving DecidableEq

/-- The lower half of `eax` replaced. -/
def Cpu.setAx (c : Cpu) (v : UInt16) : Cpu :=
  c.set .eax ((c.gpr .eax &&& 0xFFFF0000) ||| v.toUInt32)

/-- The task state segment, as far as an interrupt reads it. -/
structure Tss where
  esp0 : UInt32
  ss0 : UInt32

/-- What the stubs are linked with and `setup_gdt` has prepared: a C function
takes the state at its first instruction to that behind its `ret`. -/
structure StubEnv where
  tss : Tss
  entry : Fin 48 → UInt32
  returnTo : UInt32
  handler : CFunction → Cpu → Cpu

def Instr.exec (k : StubEnv) : Instr → Cpu → Cpu
  | .pushByte n, c => c.push n.toInt32.toUInt32
  | .push r, c => c.push (c.gpr r)
  | .pusha, c =>
      [.eax, .ecx, .edx, .ebx, .esp, .ebp, .esi, .edi].foldl (fun d r => d.push (c.gpr r)) c
  | .movAxSeg s, c => c.setAx (c.seg s)
  | .movAx n, c => c.setAx n
  | .movSeg s r, c => c.setSeg s (c.gpr r).toUInt16
  | .cld, c => { c with eflags := c.eflags &&& ~~~0x400 }
  | .call f, c => k.handler f (c.push k.returnTo)
  | .pop r, c => c.pop r
  | .popa, c =>
      -- the stack pointer in the frame is skipped
      let d := (((c.pop .edi).pop .esi).pop .ebp).drop
      (((d.pop .ebx).pop .edx).pop .ecx).pop .eax
  -- its flags are overwritten by `iret` before anything reads them
  | .addEsp n, c => c.set .esp (c.gpr .esp + n)
  | .iret, c => c.iret

def execAll (k : StubEnv) (code : List Instr) (c : Cpu) : Cpu :=
  code.foldl (fun d i => i.exec k d) c

/-! ## `interrupt.asm` -/

/-- `isr_common_stub` -/
def isrCommonStub : List Instr :=
  [.pusha, .movAxSeg .ds, .push .eax, .movAx 0x10, .movSeg .ds .eax, .movSeg .es .eax,
    .movSeg .fs .eax, .movSeg .gs .eax, .push .esp, .cld, .call .isrHandler, .pop .eax, .pop .eax,
    .movSeg .ds .eax, .movSeg .es .eax, .movSeg .fs .eax, .movSeg .gs .eax, .popa, .addEsp 8,
    .iret]

/-- `irq_common_stub` -/
def irqCommonStub : List Instr :=
  [.pusha, .movAxSeg .ds, .push .eax, .movAx 0x10, .movSeg .ds .eax, .movSeg .es .eax,
    .movSeg .fs .eax, .movSeg .gs .eax, .push .esp, .cld, .call .irqHandler, .pop .ebx, .pop .ebx,
    .movSeg .ds .ebx, .movSeg .es .ebx, .movSeg .fs .ebx, .movSeg .gs .ebx, .popa, .addEsp 8,
    .iret]

/-- The pushes of an exception's stub, and the jump. -/
def isrStub (pushes : List Int8) : List Instr := pushes.map .pushByte ++ isrCommonStub

def irqStub (pushes : List Int8) : List Instr := pushes.map .pushByte ++ irqCommonStub

def isr0 : List Instr := isrStub [0, 0]
def isr1 : List Instr := isrStub [0, 1]
def isr2 : List Instr := isrStub [0, 2]
def isr3 : List Instr := isrStub [0, 3]
def isr4 : List Instr := isrStub [0, 4]
def isr5 : List Instr := isrStub [0, 5]
def isr6 : List Instr := isrStub [0, 6]
def isr7 : List Instr := isrStub [0, 7]
def isr8 : List Instr := isrStub [8]
def isr9 : List Instr := isrStub [0, 9]
def isr10 : List Instr := isrStub [10]
def isr11 : List Instr := isrStub [11]
def isr12 : List Instr := isrStub [12]
def isr13 : List Instr := isrStub [13]
def isr14 : List Instr := isrStub [14]
def isr15 : List Instr := isrStub [0, 15]
def isr16 : List Instr := isrStub [0, 16]
def isr17 : List Instr := isrStub [0, 17]
def isr18 : List Instr := isrStub [0, 18]
def isr19 : List Instr := isrStub [0, 19]
def isr20 : List Instr := isrStub [0, 20]
def isr21 : List Instr := isrStub [0, 21]
def isr22 : List Instr := isrStub [0, 22]
def isr23 : List Instr := isrStub [0, 23]
def isr24 : List Instr := isrStub [0, 24]
def isr25 : List Instr := isrStub [0, 25]
def isr26 : List Instr := isrStub [0, 26]
def isr27 : List Instr := isrStub [0, 27]
def isr28 : List Instr := isrStub [0, 28]
def isr29 : List Instr := isrStub [0, 29]
def isr30 : List Instr := isrStub [0, 30]
def isr31 : List Instr := isrStub [0, 31]

def irq0 : List Instr := irqStub [0, 32]
def irq1 : List Instr := irqStub [1, 33]
def irq2 : List Instr := irqStub [2, 34]
def irq3 : List Instr := irqStub [3, 35]
def irq4 : List Instr := irqStub [4, 36]
def irq5 : List Instr := irqStub [5, 37]
def irq6 : List Instr := irqStub [6, 38]
def irq7 : List Instr := irqStub [7, 39]
def irq8 : List Instr := irqStub [8, 40]
def irq9 : List Instr := irqStub [9, 41]
def irq10 : List Instr := irqStub [10, 42]
def irq11 : List Instr := irqStub [11, 43]
def irq12 : List Instr := irqStub [12, 44]
def irq13 : List Instr := irqStub [13, 45]
def irq14 : List Instr := irqStub [14, 46]
def irq15 : List Instr := irqStub [15, 47]

/-- `isr_install`, which gives each vector its stub. -/
def isrInstall : Vector (List Instr) 48 :=
  #v[isr0, isr1, isr2, isr3, isr4, isr5, isr6, isr7, isr8, isr9, isr10, isr11, isr12, isr13,
    isr14, isr15, isr16, isr17, isr18, isr19, isr20, isr21, isr22, isr23, isr24, isr25, isr26,
    isr27, isr28, isr29, isr30, isr31, irq0, irq1, irq2, irq3, irq4, irq5, irq6, irq7, irq8, irq9,
    irq10, irq11, irq12, irq13, irq14, irq15]

def stub (v : Fin 48) : List Instr := isrInstall[v]

/-! What the stubs have in common. -/

/-- The common stubs up to the call. -/
def enterStub : List Instr :=
  [.pusha, .movAxSeg .ds, .push .eax, .movAx 0x10, .movSeg .ds .eax, .movSeg .es .eax,
    .movSeg .fs .eax, .movSeg .gs .eax, .push .esp, .cld]

/-- The common stubs behind the call, with the register they restore the
segments from, up to `iret`. -/
def leaveStub (q : Reg) : List Instr :=
  [.pop q, .pop q, .movSeg .ds q, .movSeg .es q, .movSeg .fs q, .movSeg .gs q, .popa, .addEsp 8]

def handlerOf (v : Fin 48) : CFunction := if v < 32 then .isrHandler else .irqHandler

def scratchOf (v : Fin 48) : Reg := if v < 32 then .eax else .ebx

def pushesOf (v : Fin 48) : List Int8 :=
  if 32 ≤ v then [Int8.ofNat (v.val - 32), Int8.ofNat v.val]
  else if v = 8 ∨ (10 ≤ v ∧ v ≤ 14) then [Int8.ofNat v.val]
  else [0, Int8.ofNat v.val]

theorem stub_eq (v : Fin 48) : stub v = (pushesOf v).map .pushByte ++
    (enterStub ++ .call (handlerOf v) :: (leaveStub (scratchOf v) ++ [.iret])) := by
  revert v
  decide

/-! ## An interrupt -/

/-- The vectors with an error code. It is zero for a double fault and for an
alignment check, and `info` otherwise. -/
def errorCode (v : Fin 48) (info : UInt32) : Option UInt32 :=
  if v = 8 ∨ v = 17 then some 0
  else if 10 ≤ v ∧ v ≤ 14 then some info
  else none

/-- `KERNEL_CS`, the selector of every gate. -/
def kernelCs : UInt16 := 0x08

/-- What the CPU does before the stub: it takes the kernel's stack if it comes
from an outer level, and pushes the context. The gates are interrupt gates. -/
def deliver (k : StubEnv) (v : Fin 48) (info : UInt32) (c : Cpu) : Cpu :=
  let inner : Cpu :=
    if rpl c.cs = 0 then c
    else (({ c with ss := k.tss.ss0.toUInt16 }.set .esp k.tss.esp0).push c.ss.toUInt32).push
      (c.gpr .esp)
  let framed := ((inner.push c.eflags).push c.cs.toUInt32).push c.eip
  let coded := match errorCode v info with
    | some code => framed.push code
    | none => framed
  { coded with eflags := c.eflags &&& ~~~0x34300, cs := kernelCs, eip := k.entry v }

/-- `registers_t` -/
structure Registers where
  ds : UInt32
  edi : UInt32
  esi : UInt32
  ebp : UInt32
  useless : UInt32
  ebx : UInt32
  edx : UInt32
  ecx : UInt32
  eax : UInt32
  intNo : UInt32
  errCode : UInt32
  eip : UInt32
  cs : UInt32
  eflags : UInt32
  esp : UInt32
  ss : UInt32

def registersAt (m : Mem) (r : UInt32) : Registers where
  ds := m.word r 0
  edi := m.word r 1
  esi := m.word r 2
  ebp := m.word r 3
  useless := m.word r 4
  ebx := m.word r 5
  edx := m.word r 6
  ecx := m.word r 7
  eax := m.word r 8
  intNo := m.word r 9
  errCode := m.word r 10
  eip := m.word r 11
  cs := m.word r 12
  eflags := m.word r 13
  esp := m.word r 14
  ss := m.word r 15

def Instr.isCall : Instr → Bool
  | .call _ => true
  | _ => false

/-- The state at the first instruction of the handler. -/
def handed (k : StubEnv) (v : Fin 48) (info : UInt32) (c : Cpu) : Cpu :=
  (execAll k ((stub v).takeWhile fun i => !i.isCall) (deliver k v info c)).push k.returnTo

/-- The handler's argument, above the return address. -/
def Cpu.argument (c : Cpu) : UInt32 := c.mem.load32 (c.gpr .esp + 4)

/-- The state behind the stub's `iret`. -/
def resumed (k : StubEnv) (v : Fin 48) (info : UInt32) (c : Cpu) : Cpu :=
  execAll k (stub v) (deliver k v info c)

end Bedrock
