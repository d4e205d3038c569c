import Bedrock.Proofs.DeviceTable
import Bedrock.Proofs.InterruptDelivery

/-!
# A boot without drives

`kernel_main` mounts `vdevices[0]` whatever `storage_driver_init` has found. When no place
has a drive the entry is zero, and so is its sector size, by which `read_sector` divides: the
boot ends in the divide error. Until then the kernel has written to free pages alone, so the
tables of the setup are in place and the processor gets to `isr0` through them.
-/

namespace Bedrock

open Lib

/-! ## A device that is not there -/

section

variable {δ : Type} {k : Kernel δ} {device : DeviceInfo}

theorem locate_vacant (hsize : device.sectorSize = 0) (sector : Int32) :
    (locate device sector : Kern δ Place).run k = .error .divideError k := by
  have hdiv : (idiv (sector * 512) device.sectorSize : Kern δ Int32).run k =
      .error .divideError k := by
    rw [idiv, if_pos (.inl hsize)]
    rfl
  rw [locate, Exec.bind_error hdiv]

variable [Layout]

/-- The page for the sector is taken before the division. -/
theorem readSector_vacant (ide : Ide δ) (hsize : device.sectorSize = 0) (sector : Int32)
    (buffer : UInt32) (hfree : 0 < freeCount k.kMemoryMap) :
    ∃ k', (readSector ide device sector buffer).run k = .error .divideError k' ∧
      SameOff (FreeAt k.kMemoryMap) k.mem k'.mem := by
  obtain ⟨k', hrun, -, -, hmem⟩ := kmalloc_page hfree
  refine ⟨k', ?_, ?_⟩
  · rw [readSector, Exec.bind_ok hrun, Exec.bind_error (locate_vacant hsize sector)]
  · rw [hmem]
    exact sameOff_write.mono fun _ => freeAt_scratch hfree

theorem ext2Init_vacant (ide : Ide δ) (hsize : device.sectorSize = 0) (fuel : Nat)
    (sysCfg : UInt32) (hfree : 2 ≤ freeCount k.kMemoryMap) :
    ∃ k', (ext2Init ide device fuel sysCfg).run k = .error .divideError k' ∧
      SameOff (FreeAt k.kMemoryMap) k.mem k'.mem := by
  let k₀ := (k.print (.str "\\ initializing ext2\n")).print (.str "\\ loading superblock\n")
  obtain ⟨k₁, hrun₁, -, hmap₁, hmem₁⟩ := kmalloc_page (k := k₀) (Nat.lt_of_succ_lt hfree)
  have hfree₀ : 2 ≤ freeCount k₀.kMemoryMap := hfree
  have hcount : freeCount (taken k₀.kMemoryMap) + 1 = freeCount k₀.kMemoryMap :=
    freeCount_taken (by omega)
  obtain ⟨k₂, hrun₂, hoff₂⟩ := readSector_vacant ide hsize (2 + Int32.ofNat 0)
    (scratch k₀.kMemoryMap + (Int32.ofNat 0 * 512).toUInt32) (k := k₁) (by rw [hmap₁]; omega)
  have hread : (readSectors ide device 2 2 (scratch k₀.kMemoryMap)).run k₁ =
      .error .divideError k₂ :=
    Exec.bind_error hrun₂
  refine ⟨k₂, ?_, ?_⟩
  · rw [ext2Init, Exec.bind_ok (kprint_run _ _), Exec.bind_ok (kprint_run _ _),
      Exec.bind_ok hrun₁, Exec.bind_error hread]
  · have hoff₁ : SameOff (FreeAt k.kMemoryMap) k.mem k₁.mem := by
      rw [hmem₁]
      exact sameOff_write.mono fun _ => freeAt_scratch (Nat.lt_of_succ_lt hfree)
    refine hoff₁.trans (hoff₂.mono fun a ha => ?_)
    rw [hmap₁] at ha
    exact ((freeAt_taken (by omega)).mp ha).1

theorem initFilesystem_vacant (ide : Ide δ) (hsize : device.sectorSize = 0) (fuel : Nat)
    (sysCfg : UInt32) (hfree : 2 ≤ freeCount k.kMemoryMap) :
    ∃ k', (initFilesystem ide device fuel sysCfg).run k = .error .divideError k' ∧
      SameOff (FreeAt k.kMemoryMap) k.mem k'.mem := by
  let k₀ := ((k.print (.str "initializing filesystem on device ")).print
    (.int device.vdID.toUInt32)).print (.str "\n")
  obtain ⟨k', hrun, hoff⟩ := ext2Init_vacant (k := k₀) ide hsize fuel sysCfg hfree
  refine ⟨k', ?_, hoff⟩
  rw [initFilesystem, Exec.bind_ok (kprint_run _ _), Exec.bind_ok (kprintInt_run _ _),
    Exec.bind_ok (kprint_run _ _), Exec.bind_error hrun]

end

/-! ## The storage drivers -/

section

variable {k : Kernel Ata} {σs : List Sighting} {rest : List UInt8}

/-- `IDE_init` returns with the drives that replied. -/
theorem ideInit_run (hempty : ∀ n : UInt8, n ≤ 3 → (k.dev.ideDevices n).reserved = 0)
    (hsurveyed : Surveyed σs rest k.toMachine) :
    ∃ k', (ideInit []).run k = .ok ((drivesOf σs).mapIdx foundDevice) k' ∧ k'.mem = k.mem ∧
      k'.kMemoryMap = k.kMemoryMap := by
  let k₀ := k.print (.str "\\ IDE driver init\n")
  have hsurveyed₀ : Surveyed σs rest k₀.toMachine :=
    ⟨hsurveyed.places, hsurveyed.valid, hsurveyed.tape⟩
  have hlen := drivesOf_length_le σs
  rw [hsurveyed.length] at hlen
  let table := ideTable k₀.dev.words 0 k₀.dev.ideDevices σs
  let s := k₀.toMachine.initialized
    (keepNIEN (ideChannels 0x1F0 0x3F6 0x170 0x376 0x000) k₀.dev.channels) σs rest table
  have hinit : (ideInitialize 0x1F0 0x3F6 0x170 0x376 0x000).run k₀.toMachine = .ok () s :=
    ideInitialize_run_iff.mpr ⟨σs, rest, hsurveyed₀, rfl⟩
  let k₁ : Kernel Ata := { k₀ with toMachine := s }
  have hadd : (addDevices 4 0 []).run k₁ = .ok ((drivesOf σs).mapIdx foundDevice) k₁ :=
    addDevices_recorded hsurveyed₀.recorded hlen hempty
  refine ⟨k₁.print (.str "\\ IDE driver setup complete\n"), ?_, rfl, rfl⟩
  rw [ideInit, Exec.bind_ok (kprint_run _ _), Exec.bind_ok (Kern.ofMachine_ok hinit),
    Exec.bind_ok hadd, Exec.bind_ok (kprint_run _ _)]
  rfl

variable [Layout] (ide : Ide Ata)

theorem storageDriverInit_driveless
    (hempty : ∀ n : UInt8, n ≤ 3 → (k.dev.ideDevices n).reserved = 0)
    (hsurveyed : Surveyed σs rest k.toMachine) (hnone : drivesOf σs = []) :
    ∃ k', (storageDriverInit ide []).run k = .ok [] k' ∧ k'.mem = k.mem ∧
      k'.kMemoryMap = k.kMemoryMap := by
  have hsurveyed₀ : Surveyed σs rest (k.print (.str "loading storage drivers\n")).toMachine :=
    ⟨hsurveyed.places, hsurveyed.valid, hsurveyed.tape⟩
  obtain ⟨k₁, hrun, hmem, hmap⟩ := ideInit_run (k := k.print _) hempty hsurveyed₀
  rw [hnone, List.mapIdx_nil] at hrun
  have hend : ∀ k : Kernel Ata, ∃ k', (do
      kprint "\\ "
      kprintInt (UInt32.ofNat ([] : List DeviceInfo).length)
      kprint " recognized storage devices:\n"
      describeDevices ide [] 0
      kprint "\\ storage drivers loaded"
      kprintStatusOk
      return [] : Kern Ata (List DeviceInfo)).run k = .ok [] k' ∧ k'.mem = k.mem ∧
        k'.kMemoryMap = k.kMemoryMap :=
    fun k => ⟨_, rfl, rfl, rfl⟩
  obtain ⟨k₂, hrun₂, hmem₂, hmap₂⟩ := hend k₁
  refine ⟨k₂, ?_, hmem₂.trans hmem, hmap₂.trans hmap⟩
  rw [storageDriverInit, Exec.bind_ok (kprint_run _ _), Exec.bind_ok hrun, hrun₂]

theorem kernelRest_driveless (fuel : Nat) (sysCfg : UInt32)
    (hempty : ∀ n : UInt8, n ≤ 3 → (k.dev.ideDevices n).reserved = 0)
    (hsurveyed : Surveyed σs rest k.toMachine) (hnone : drivesOf σs = [])
    (hfree : 2 ≤ freeCount k.kMemoryMap) :
    ∃ k', (kernelRest ide fuel sysCfg).run k = .error .divideError k' ∧
      SameOff (FreeAt k.kMemoryMap) k.mem k'.mem := by
  obtain ⟨k₁, hrun₁, hmem₁, hmap₁⟩ := storageDriverInit_driveless ide hempty hsurveyed hnone
  have hsize : (firstDevice []).sectorSize = 0 := rfl
  obtain ⟨k₂, hrun₂, hoff₂⟩ := initFilesystem_vacant ide hsize fuel sysCfg
    (show 2 ≤ freeCount k₁.kMemoryMap by rwa [hmap₁])
  rw [hmap₁, hmem₁] at hoff₂
  refine ⟨k₂, ?_, hoff₂⟩
  rw [kernelRest, Exec.bind_ok hrun₁, Exec.bind_error hrun₂]

end

/-! ## The boot -/

section

variable [TableLayout]

/-- Whatever the loader left in memory and whatever the places without a drive reply: the
storage drivers fill no entry, and the boot ends in the divide error. The kernel has written
to free pages alone since the setup, so the gate of the error still leads to `isr0`. -/
theorem kernelMain_driveless (ide : Ide Ata) (entry : Fin 48 → UInt32) {firstPageTable : UInt32}
    (fuel : Nat) (sysCfg : UInt32) {k : Kernel Ata} {σs : List Sighting} {rest : List UInt8}
    (hfresh : k.kMemoryMap = Vector.replicate kMemoryMapEntries 0)
    (hstack : ∀ a, TableBytes a → ¬ Span firstPageTable 0x1000 a)
    (hempty : ∀ n : UInt8, n ≤ 3 → (k.dev.ideDevices n).reserved = 0)
    (hsurveyed : Surveyed σs rest k.toMachine) (hnone : drivesOf σs = []) :
    ∃ k₁ k₂ k', (kernelSetup entry firstPageTable).run k = .ok (some kernelTables) k₁ ∧
      (storageDriverInit ide []).run k₁ = .ok [] k₂ ∧
      (kernelMain ide entry firstPageTable fuel sysCfg).run k = .error .divideError k' ∧
      SameOff (FreeAt k₁.kMemoryMap) k₁.mem k'.mem ∧
      kernelTables.interrupt k'.mem 0 0 false = .entry ⟨kernelCs, entry 0, none, true⟩ := by
  obtain ⟨k₁, hrun₁, htables, hmap₁, log, hdev₁⟩ := kernelSetup_run entry hfresh hstack
  have hsurveyed₁ : Surveyed σs rest k₁.toMachine :=
    ⟨hsurveyed.places, hsurveyed.valid, by rw [hdev₁]; exact hsurveyed.tape⟩
  have hempty₁ : ∀ n : UInt8, n ≤ 3 → (k₁.dev.ideDevices n).reserved = 0 := by
    rw [hdev₁]
    exact hempty
  obtain ⟨k₂, hrun₂, -, -⟩ := storageDriverInit_driveless ide hempty₁ hsurveyed₁ hnone
  obtain ⟨k', hrun', hoff⟩ := kernelRest_driveless ide fuel sysCfg hempty₁ hsurveyed₁ hnone
    (by rw [hmap₁]; decide)
  refine ⟨k₁, k₂, k', hrun₁, hrun₂, ?_, hoff, ?_⟩
  · rw [kernelMain, Exec.bind_ok hrun₁, hrun']
  · have htables' : HoldsTables entry k'.mem := htables.congr fun a ha => hoff a (by
      rintro ⟨i, hi, -, hblock⟩
      exact tableBytes_off_block hi ha hblock)
    exact (interrupt_gate htables'.gdt (htables'.idt 0) 0 false).trans (if_neg (by simp))

omit [TableLayout] in
/-- Four places that reply nothing. -/
theorem kernelMain_driveless_silent : ∃ (_ : TableLayout) (k₁ k₂ k' : Kernel Ata),
    (kernelSetup (fun v => UInt32.ofNat (0xC0010000 + 16 * v.val)) 0xC0055000).run
      (unprobedKernel [0, 0, 0, 0]) = .ok (some kernelTables) k₁ ∧
    (storageDriverInit (Ata.ide 0) []).run k₁ = .ok [] k₂ ∧
    (kernelMain (Ata.ide 0) (fun v => UInt32.ofNat (0xC0010000 + 16 * v.val)) 0xC0055000 0
      0xC0102F00).run (unprobedKernel [0, 0, 0, 0]) = .error .divideError k' ∧
    SameOff (FreeAt k₁.kMemoryMap) k₁.mem k'.mem ∧
    kernelTables.interrupt k'.mem 0 0 false = .entry ⟨kernelCs, 0xC0010000, none, true⟩ := by
  let _ := bootTables
  have hsurveyed : Surveyed (drivePlaces.map fun p => ⟨p.1, p.2, .silent⟩) []
      (unprobedKernel [0, 0, 0, 0]).toMachine := ⟨rfl, by decide, rfl⟩
  exact ⟨bootTables, kernelMain_driveless (Ata.ide 0)
    (fun v => UInt32.ofNat (0xC0010000 + 16 * v.val)) 0 0xC0102F00
    (k := unprobedKernel [0, 0, 0, 0]) rfl bootStack_apart
    (fun n _ => unprobedKernel_empty _ n) hsurveyed rfl⟩

end

end Bedrock
