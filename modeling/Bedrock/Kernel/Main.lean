import Bedrock.Cpu.Idt
import Bedrock.Drivers.Ext2
import Bedrock.Drivers.StorageInit
import Bedrock.Kernel.Vm

/-!
# `kernel_main`

The boot from `kernel_main` to `kernel_exit`. `clear_screen` is left to the
screen's own model, and the interrupts that come while the boot goes on are left
out: they reach `tick`, the key buffer and the flag of the drives.
-/

namespace Bedrock

open Lib

variable {δ : Type}

def kmallocTest [Layout] : Kern δ Unit := do
  kprint "allocating 1 page\n"
  kprint "page 0 address: "
  kprintHex Layout.kmallocMemory
  kprint "\n"
  let address ← kmalloc 1
  if address ≠ 0 then
    kprint "kmalloc address: "
    kprintHex address
    kprint "\n"
    kprint "freeing page\n"
    kfree address 1
  else
    kprint "no free pages left\n"
  kprint "[test finished]\n"

section

variable [TableLayout]

/-- `setup_interrupt_handlers`, with what `lidt` loads. -/
def setupInterruptHandlers (entry : Fin 48 → UInt32) : Kern Ata TableRegister := do
  kprint "installing interrupt handlers"
  let idtr ← Kern.ofMachine (installIsrs entry)
  Kern.ofMachine (initTimer timerFreq)
  kprintStatusOk
  return idtr

/-- `kernel_main` up to the storage drivers, with what the registers of the tables hold
then. `setup_paging` has its local array at `firstPageTable`. -/
def kernelSetup (entry : Fin 48 → UInt32) (firstPageTable : UInt32) :
    Kern Ata (Option Tables) := do
  kprint "bedrock-os v0.3 (alpha build)\n"
  let _ ← kmalloc 2
  let (gdtr, task) ← setupGdt
  let stack ← kmalloc 2
  setKernelStack (stack + blockSize * 2 - 16)
  setupPaging firstPageTable
  let idtr ← setupInterruptHandlers entry
  return task.map fun task => ⟨gdtr, idtr, 0x2B, task⟩

end

/-- `vdevices[0]`. An entry that no device has got is zero. -/
def firstDevice (vdevices : List DeviceInfo) : DeviceInfo := vdevices.headD ⟨0, 0, 0, 0⟩

def initFilesystem [Layout] (ide : Ide δ) (device : DeviceInfo) (fuel : Nat) (sysCfg : UInt32) :
    Kern δ Unit := do
  kprint "initializing filesystem on device "
  kprintInt device.vdID.toUInt32
  kprint "\n"
  ext2Init ide device fuel sysCfg
  kprint "\\ filesystem loaded"
  kprintStatusOk

/-- `kernel_main` from the storage drivers on. -/
def kernelRest [Layout] (ide : Ide Ata) (fuel : Nat) (sysCfg : UInt32) : Kern Ata Unit := do
  let vdevices ← storageDriverInit ide []
  initFilesystem ide (firstDevice vdevices) fuel sysCfg
  kprint "[setup finished]\n"
  kmallocTest
  kernelExit 0

def kernelMain [TableLayout] (ide : Ide Ata) (entry : Fin 48 → UInt32)
    (firstPageTable : UInt32) (fuel : Nat) (sysCfg : UInt32) : Kern Ata Unit := do
  let _ ← kernelSetup entry firstPageTable
  kernelRest ide fuel sysCfg

end Bedrock
