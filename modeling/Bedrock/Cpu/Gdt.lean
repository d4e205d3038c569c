import Bedrock.Kernel.State
import Bedrock.Lib.Segments

/-!
# `cpu/gdt.c`

The segments of the kernel and of ring 3, and the task state segment with the
stack for interrupts. What `lgdt` and `ltr` load is returned; for a segment that
`ltr` refuses it is nothing, and the processor would not get any further.
-/

namespace Bedrock

open Lib

variable {δ : Type}

/-- Where the linker put `gdt`, `tss` and `idt`, beside the kernel's other objects. -/
class TableLayout extends Layout where
  gdt : UInt32
  tss : UInt32
  idt : UInt32
  gdt_tss : ∀ a, Span gdt 48 a → ¬ Span tss 104 a
  gdt_idt : ∀ a, Span gdt 48 a → ¬ Span idt 2048 a
  tss_idt : ∀ a, Span tss 104 a → ¬ Span idt 2048 a
  tables_kmallocMemory : ∀ a, Span gdt 48 a ∨ Span tss 104 a ∨ Span idt 2048 a →
    ¬ Span kmallocMemory (4 * (0x1000 * (kMemoryMapEntries + 10))) a
  tables_pageDirectory : ∀ a, Span gdt 48 a ∨ Span tss 104 a ∨ Span idt 2048 a →
    ¬ Span kernelPageDirectory 0x1000 a

/-- A placement the linker script allows. -/
@[reducible] def bootTables : TableLayout where
  toLayout := bootLayout
  gdt := 0xC0102000
  tss := 0xC0102040
  idt := 0xC0102800
  gdt_tss _ h := h.below (by decide) (by decide)
  gdt_idt _ h := h.below (by decide) (by decide)
  tss_idt _ h := h.below (by decide) (by decide)
  tables_kmallocMemory := by
    rintro a (h | h | h)
    all_goals exact h.below (by decide) (by decide)
  tables_pageDirectory := by
    rintro a (h | h | h) h'
    all_goals exact h'.below (by decide) (by decide) h

/-- `struct gdt_entry_bits` -/
structure GdtEntryBits where
  limitLow : BitVec 16
  baseLow : BitVec 24
  accessed : BitVec 1
  readWrite : BitVec 1
  conformingExpandDown : BitVec 1
  code : BitVec 1
  always1 : BitVec 1
  DPL : BitVec 2
  present : BitVec 1
  limitHigh : BitVec 4
  available : BitVec 1
  always0 : BitVec 1
  big : BitVec 1
  gran : BitVec 1
  baseHigh : BitVec 8

/-- The bit fields of an entry, from its lowest bit on. -/
def GdtEntryBits.fields (e : GdtEntryBits) : List (Nat × Nat) :=
  [(16, e.limitLow.toNat), (24, e.baseLow.toNat), (1, e.accessed.toNat),
    (1, e.readWrite.toNat), (1, e.conformingExpandDown.toNat), (1, e.code.toNat),
    (1, e.always1.toNat), (2, e.DPL.toNat), (1, e.present.toNat), (4, e.limitHigh.toNat),
    (1, e.available.toNat), (1, e.always0.toNat), (1, e.big.toNat), (1, e.gran.toNat),
    (8, e.baseHigh.toNat)]

/-- An entry as it lies in memory. -/
def GdtEntryBits.value (e : GdtEntryBits) : Nat := pack e.fields

/-! ## The entries of `setup_gdt` -/

/-- `code` -/
def gdtCode : GdtEntryBits where
  limitLow := 0xFFFF
  baseLow := 0
  accessed := 0
  readWrite := 1
  conformingExpandDown := 0
  code := 1
  always1 := 1
  DPL := 0
  present := 1
  limitHigh := 0xF
  available := 1
  always0 := 0
  big := 1
  gran := 1
  baseHigh := 0

/-- `data` -/
def gdtData : GdtEntryBits := { gdtCode with code := 0 }

/-- `code_user` -/
def gdtCodeUser : GdtEntryBits := { gdtCode with DPL := 3 }

/-- `data_user` -/
def gdtDataUser : GdtEntryBits := { gdtData with DPL := 3 }

/-- The entry of `write_tss`. -/
def gdtTss (base limit : UInt32) : GdtEntryBits where
  limitLow := BitVec.ofNat 16 (limit &&& 0xFFFF).toNat
  baseLow := BitVec.ofNat 24 (base &&& 0xFFFFFF).toNat
  accessed := 1
  readWrite := 0
  conformingExpandDown := 0
  code := 1
  always1 := 0
  DPL := 3
  present := 1
  limitHigh := BitVec.ofNat 4 ((limit &&& 0xF0000) >>> 16).toNat
  available := 0
  always0 := 0
  big := 0
  gran := 0
  baseHigh := BitVec.ofNat 8 ((base &&& 0xFF000000) >>> 24).toNat

/-! ## The functions -/

section

variable [TableLayout]

/-- `gdt[i] = e` -/
def setGdtEntry (i : Nat) (e : GdtEntryBits) : Kern δ Unit :=
  modify fun k => { k with mem := k.mem.setQuad TableLayout.gdt i e.value }

/-- The field of `tss` that is its word `i`. -/
def setTssWord (i : Nat) (v : UInt32) : Kern δ Unit :=
  modify fun k => { k with mem := k.mem.setWord TableLayout.tss i v }

/-- `sizeof(struct tss_table)` -/
def sizeofTss : UInt32 := 104

def writeTss (g : Nat) : Kern δ Unit := do
  setGdtEntry g (gdtTss TableLayout.tss sizeofTss)
  memorySet TableLayout.tss 0 sizeofTss
  setTssWord 2 0x10
  setTssWord 1 0

def setKernelStack (stack : UInt32) : Kern δ Unit := setTssWord 1 stack

/-- `flush_tss`: the segment that `ltr` loads, if it does. -/
def flushTss (gdtr : TableRegister) : Kern δ (Option Descriptor) := do
  let k ← get
  match loadTask gdtr 0x2B k.mem with
  | some (task, m) =>
      set { k with mem := m }
      return some task
  | none => return none

/-- `setup_gdt`, with what it loads the two registers with. -/
def setupGdt : Kern δ (TableRegister × Option Descriptor) := do
  kprint "setting up GDT\n"
  setGdtEntry 1 gdtCode
  setGdtEntry 2 gdtData
  setGdtEntry 3 gdtCodeUser
  setGdtEntry 4 gdtDataUser
  kprint "\\ creating TSS\n"
  writeTss 5
  kprint "\\ TSS registered\n"
  let gdtDescriptor : TableRegister := ⟨48 - 1, TableLayout.gdt⟩
  kprint "\\ (GDT addr.: "
  kprintHex gdtDescriptor.base
  kprint ", size: "
  kprintHex gdtDescriptor.limit.toUInt32
  kprint ")\n"
  kprint "\\ loading GDT\n"
  kprint "\\ loading TSS"
  let task ← flushTss gdtDescriptor
  kprintStatusOk
  return (gdtDescriptor, task)

end

end Bedrock
