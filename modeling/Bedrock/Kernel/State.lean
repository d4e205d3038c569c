import Bedrock.Lib.Exec
import Bedrock.Lib.Mem

/-!
# The kernel's state, `kernel_exit` and `libc/mem.c`

Kernel code is modelled as programs over one state: the bytes of memory, the
messages handed to the console, the page directory register, the byte map of
the page allocator, and whatever stands behind the I/O ports. Pointers are
`uint32_t` values and pointer arithmetic wraps as it does in the source.

`k_memory_map` is kept apart from the bytes of memory because nothing but
`kmalloc` and `kfree` names it. An index past its last entry would reach
whatever the linker placed behind the array; a run that does this stops as
`wildIndex` and nothing is claimed about it.
-/

namespace Bedrock

open Lib

/-- Why a piece of kernel code does not return. -/
inductive Halt where
  /-- `kernel_exit(code)`: prints the code and spins forever. -/
  | exit (errorCode : UInt8)
  /-- An index outside `k_memory_map`. -/
  | wildIndex
  /-- The processor's divide error. -/
  | divideError
  /-- The hardware presents nothing more: the code polls or waits forever. -/
  | noAnswer
  /-- The loop bound given to the model ran out. -/
  | fuel
deriving DecidableEq, Repr

/-- One call of a console printing function. -/
inductive Msg where
  | str (message : String)
  /-- `kprint_at_col` -/
  | strAt (message : String) (col : Nat)
  | int (value : UInt32)
  | hex (value : UInt32)
  /-- `kprint` of a string that lies in memory. -/
  | mem (message : UInt32)
  /-- `kprint` of a byte array that is not part of the modelled memory. -/
  | bytes (message : List UInt8)
  /-- `kprint_backspace` -/
  | backspace
deriving DecidableEq, Repr

/-- `BLOCK_SIZE` -/
def blockSize : UInt32 := 0x1000

/-- `k_memory_map_entries` -/
abbrev kMemoryMapEntries : Nat := 100

/-- Where the linker put the kernel's objects. `kmalloc_memory` is an array of
`BLOCK_SIZE * (k_memory_map_entries + 10)` pointers and
`kernel_page_directory` one of 1024 words, both aligned to a page; the kernel
is linked at `0xC0000000` and up. -/
class Layout where
  kmallocMemory : UInt32
  kernelPageDirectory : UInt32
  kmallocMemory_aligned : kmallocMemory.toNat % 0x1000 = 0
  kmallocMemory_kernel : 0xC0000000 ≤ kmallocMemory.toNat
  kmallocMemory_fits :
    kmallocMemory.toNat + 4 * (0x1000 * (kMemoryMapEntries + 10)) ≤ 2 ^ 32
  kernelPageDirectory_aligned : kernelPageDirectory.toNat % 0x1000 = 0
  kernelPageDirectory_kernel : 0xC0000000 ≤ kernelPageDirectory.toNat
  kernelPageDirectory_fits : kernelPageDirectory.toNat + 0x1000 ≤ 2 ^ 32
  kernelPageDirectory_apart :
    kernelPageDirectory.toNat + 0x1000 ≤ kmallocMemory.toNat ∨
      kmallocMemory.toNat + 4 * (0x1000 * (kMemoryMapEntries + 10)) ≤
        kernelPageDirectory.toNat

/-- A placement the linker script allows, for runs on given inputs. -/
@[reducible] def bootLayout : Layout where
  kmallocMemory := 0xC0110000
  kernelPageDirectory := 0xC0101000
  kmallocMemory_aligned := by decide
  kmallocMemory_kernel := by decide
  kmallocMemory_fits := by decide
  kernelPageDirectory_aligned := by decide
  kernelPageDirectory_kernel := by decide
  kernelPageDirectory_fits := by decide
  kernelPageDirectory_apart := by decide

/-- What a driver sees: memory, the console and the hardware `δ`. -/
structure Machine (δ : Type) where
  mem : Mem
  console : List Msg
  dev : δ

/-- The whole kernel state. -/
structure Kernel (δ : Type) extends Machine δ where
  kMemoryMap : Vector UInt8 kMemoryMapEntries
  cr3 : UInt32

/-- A kernel that has just been loaded. -/
def Kernel.zero {δ : Type} (dev : δ) : Kernel δ where
  mem _ := 0
  console := []
  dev := dev
  kMemoryMap := Vector.replicate kMemoryMapEntries 0
  cr3 := 0

/-- Kernel code. -/
abbrev Kern (δ α : Type) : Type := Exec Halt (Kernel δ) α

variable {δ : Type}

/-! ## The console -/

def Machine.print (s : Machine δ) (msg : Msg) : Machine δ :=
  { s with console := s.console ++ [msg] }

def Kernel.print (k : Kernel δ) (msg : Msg) : Kernel δ :=
  { k with console := k.console ++ [msg] }

@[simp] theorem Machine.print_mem (s : Machine δ) (msg : Msg) :
    (s.print msg).mem = s.mem := rfl

@[simp] theorem Machine.print_dev (s : Machine δ) (msg : Msg) :
    (s.print msg).dev = s.dev := rfl

@[simp] theorem Kernel.print_mem (k : Kernel δ) (msg : Msg) :
    (k.print msg).mem = k.mem := rfl

@[simp] theorem Kernel.print_dev (k : Kernel δ) (msg : Msg) :
    (k.print msg).dev = k.dev := rfl

def kprintMsg (msg : Msg) : Kern δ Unit := modify (·.print msg)

def kprint (message : String) : Kern δ Unit := kprintMsg (.str message)

/-- `kprint_at_col(STATUS_OK_MSG, STATUS_COL)` -/
def kprintStatusOk : Kern δ Unit := kprintMsg (.strAt "[ DONE ]\n" 30)

def kprintInt (value : UInt32) : Kern δ Unit := kprintMsg (.int value)

def kprintHex (value : UInt32) : Kern δ Unit := kprintMsg (.hex value)

@[simp] theorem kprintMsg_run (msg : Msg) (k : Kernel δ) :
    (kprintMsg msg).run k = .ok () (k.print msg) := rfl

@[simp] theorem kprint_run (message : String) (k : Kernel δ) :
    (kprint message).run k = .ok () (k.print (.str message)) := rfl

@[simp] theorem kprintInt_run (value : UInt32) (k : Kernel δ) :
    (kprintInt value).run k = .ok () (k.print (.int value)) := rfl

/-- `exit_messages` -/
def exitMessages : List String :=
  ["finished", "unknown error", "out of kernel memory", "missing system file"]

def kernelExit {α : Type} (errorCode : UInt8) : Kern δ α := do
  kprint "\nkernel exited with error code: "
  kprintHex errorCode.toUInt32
  kprint " ("
  kprint ((exitMessages[errorCode.toNat]?).getD "")
  kprint ")\n"
  throw (.exit errorCode)

/-- `kernel_exit` stops the run and touches nothing but the console. -/
theorem kernelExit_run {α : Type} (errorCode : UInt8) (k : Kernel δ) :
    ∃ k', (kernelExit errorCode : Kern δ α).run k = .error (.exit errorCode) k' ∧
      k'.mem = k.mem ∧ k'.dev = k.dev ∧ k'.kMemoryMap = k.kMemoryMap :=
  ⟨_, rfl, rfl, rfl, rfl⟩

/-- Code that never reaches the hardware. -/
abbrev KeepsDev {α : Type} (x : Kern δ α) : Prop :=
  Exec.Keeps (Exec.Same fun k : Kernel δ => k.dev) x

theorem keepsDev_of_machine {α : Type} {x : Kern δ α}
    (hx : Exec.Keeps (Exec.Same fun k : Kernel δ => k.toMachine) x) : KeepsDev x :=
  hx.mono fun _ _ h => congrArg Machine.dev h

theorem keepsDev_kprint (message : String) :
    KeepsDev (kprint message : Kern δ Unit) := fun _ => rfl

theorem keepsDev_kernelExit {α : Type} (errorCode : UInt8) :
    KeepsDev (kernelExit errorCode : Kern δ α) := fun _ => rfl

/-! ## `libc/mem.c` -/

/-- The memory after `n` rounds of `memory_copy`: round `i` reads what the
rounds before it left. -/
def memoryCopyLoop (source dest : UInt32) : Nat → Mem → Mem
  | 0, m => m
  | n + 1, m =>
      let m := memoryCopyLoop source dest n m
      m.write (dest + UInt32.ofNat n) 1 fun _ => m (source + UInt32.ofNat n)

def memoryCopy (source dest : UInt32) (nbytes : Int32) : Kern δ Unit :=
  modify fun k =>
    { k with mem := memoryCopyLoop source dest nbytes.toInt.toNat k.mem }

/-- The memory after `n` rounds of `memory_set`. -/
def memorySetLoop (dest : UInt32) (val : UInt8) : Nat → Mem → Mem
  | 0, m => m
  | n + 1, m =>
      (memorySetLoop dest val n m).write (dest + UInt32.ofNat n) 1 fun _ => val

def memorySet (dest : UInt32) (val : UInt8) (len : UInt32) : Kern δ Unit :=
  modify fun k => { k with mem := memorySetLoop dest val len.toNat k.mem }

theorem keepsDev_memoryCopy (source dest : UInt32) (nbytes : Int32) :
    KeepsDev (memoryCopy source dest nbytes : Kern δ Unit) := fun _ => rfl

theorem keepsDev_memorySet (dest : UInt32) (val : UInt8) (len : UInt32) :
    KeepsDev (memorySet dest val len : Kern δ Unit) := fun _ => rfl

theorem memorySetLoop_eq (dest : UInt32) (val : UInt8) (m : Mem) {n : Nat}
    (hn : n ≤ 2 ^ 32) :
    memorySetLoop dest val n m = m.write dest n fun _ => val := by
  induction n with
  | zero => rw [memorySetLoop, Mem.write_zero]
  | succ n ih =>
      rw [memorySetLoop, ih (by omega)]
      exact Mem.write_succ (f := fun _ => val) (by omega)

/-- A copy between ranges that do not meet delivers the bytes the source had
at the start. -/
theorem memoryCopyLoop_eq {source dest : UInt32} {m : Mem} {n : Nat}
    (hn : n ≤ 2 ^ 32) (hoff : ∀ a, Span source n a → ¬ Span dest n a) :
    memoryCopyLoop source dest n m =
      m.write dest n fun i => m (source + UInt32.ofNat i) := by
  induction n with
  | zero => rw [memoryCopyLoop, Mem.write_zero]
  | succ n ih =>
      have hsub : ∀ a, Span source n a → ¬ Span dest n a := fun a hs hd =>
        hoff a (hs.mono (Nat.le_succ n)) (hd.mono (Nat.le_succ n))
      have hsrc : (m.write dest n fun i => m (source + UInt32.ofNat i))
          (source + UInt32.ofNat n) = m (source + UInt32.ofNat n) :=
        Mem.write_off fun hd =>
          hoff _ (span_add (Nat.lt_succ_self n) hn) (hd.mono (Nat.le_succ n))
      rw [memoryCopyLoop]
      simp only [ih (by omega) hsub, hsrc]
      exact Mem.write_succ (f := fun i => m (source + UInt32.ofNat i)) (by omega)

/-- Whatever the source holds, a copy writes only its destination. -/
theorem memoryCopyLoop_sameOff {source dest : UInt32} {m : Mem} {n : Nat}
    (hn : n ≤ 2 ^ 32) :
    SameOff (Span dest n) m (memoryCopyLoop source dest n m) := by
  induction n with
  | zero => exact SameOff.refl m
  | succ n ih =>
      intro a ha
      have hin : ¬ Span (dest + UInt32.ofNat n) 1 a := fun h =>
        ha (h.sub (Nat.le_refl _) hn)
      rw [memoryCopyLoop, Mem.write_off hin]
      exact ih (by omega) a fun h => ha (h.mono (Nat.le_succ n))

end Bedrock
