import Bedrock.Kernel.Main
import Bedrock.Proofs.InterruptFrames
import Bedrock.Proofs.KernelHalf
import Bedrock.Proofs.SegmentTables

/-!
# An interrupt through the tables

The model of the stubs starts where the processor has pushed the context and
reached the first instruction (`deliver`). Here the processor does this itself:
it finds the gate in `idt`, the segment in `gdt` and the stack in `tss`, all of
them in the memory that `kernel_main` leaves behind when it turns to the storage
drivers. `kernelSetup_run` follows the tables through the rest of the setup, which
clears pages and builds page tables; from `HoldsTables` alone it follows how an
interrupt is delivered, and what ring 3 may do.
-/

namespace Bedrock

open Lib

section

variable [TableLayout]

/-- What the registers of the processor hold after all this. -/
def kernelTables : Tables where
  gdt := ⟨48 - 1, TableLayout.gdt⟩
  idt := setIdt
  taskSelector := 0x2B
  task := taskSegment

/-- The level that may use a vector by an instruction. -/
def gateLevel (v : Fin 48) : Nat := if v.val = 1 then 3 else 0

theorem HoldsGate.ofBits {entry : Fin 48 → UInt32} {m : Mem} {v : Fin 48}
    (h : HoldsGate entry m v) : Gate.ofBits (m.quad TableLayout.idt v.val) =
      ⟨entry v, kernelCs, false, 14, gateLevel v, true⟩ := by
  rw [h, idtGate_ofBits, gateFlags, gateLevel]
  by_cases hv : v.val = 1
  · rw [if_pos hv, if_pos hv]
    rfl
  · rw [if_neg hv, if_neg hv]
    rfl

section

variable {m : Mem} {stack : UInt32}

theorem HoldsGdt.segment_code (h : HoldsGdt m stack) :
    kernelTables.gdt.segment m kernelCs = some ⟨0, 2 ^ 32 - 1, true, 10, 0, true, true⟩ := by
  have hsegment : kernelTables.gdt.segment m kernelCs = some (.ofBits (m.quad TableLayout.gdt 1)) :=
    TableRegister.segment_eq rfl (by omega) rfl gdtr_reaches
  rw [hsegment, h.code]
  rfl

theorem HoldsGdt.segment_data (h : HoldsGdt m stack) :
    kernelTables.gdt.segment m 0x10 = some ⟨0, 2 ^ 32 - 1, true, 2, 0, true, true⟩ := by
  have hsegment : kernelTables.gdt.segment m 0x10 = some (.ofBits (m.quad TableLayout.gdt 2)) :=
    TableRegister.segment_eq rfl (by omega) rfl gdtr_reaches
  rw [hsegment, h.data]
  rfl

/-- The stack of the kernel, for code of an outer level. -/
theorem HoldsGdt.innerStack (h : HoldsGdt m stack) (ext : Nat) :
    kernelTables.innerStack m 0 ext = .ok (0x10, stack) := by
  have hesp : m.load32 (TableLayout.tss + 4) = stack := h.tss 1 (by omega)
  have hss : m.load16 (TableLayout.tss + 4 + 4) = 0x10 := by
    have hword : m.load32 (TableLayout.tss + 8) = 0x10 := h.tss 2 (by omega)
    rw [Mem.load16_eq, UInt32.add_assoc]
    exact congrArg UInt32.toUInt16 hword
  have hlimit : ¬ kernelTables.task.limit < 8 * 0 + 9 := by
    show ¬ 104 < 9
    decide
  have hplace : kernelTables.task.base + UInt32.ofNat (8 * 0 + 4) = TableLayout.tss + 4 := rfl
  rw [Tables.innerStack, if_neg hlimit]
  simp only [hplace, hesp, hss, h.segment_data]
  rfl

/-- The way through an interrupt gate to the code of the kernel. -/
theorem HoldsGdt.through (h : HoldsGdt m stack) (cpl ext : Nat) {gate : Gate}
    (hselector : gate.selector = kernelCs) (htype : gate.type = 14) :
    kernelTables.through m cpl ext gate =
      .entry ⟨kernelCs, gate.offset, if cpl = 0 then none else some (0x10, stack), true⟩ := by
  have hlimit : ¬ 2 ^ 32 - 1 < gate.offset.toNat := by
    have hlt := gate.offset.toNat_lt
    omega
  have hcode : ¬ (Descriptor.isCode ⟨0, 2 ^ 32 - 1, true, 10, 0, true, true⟩ = false ∨
      cpl < 0) := by
    rintro (hcode | hlevel)
    · cases hcode
    · exact Nat.not_lt_zero cpl hlevel
  rw [Tables.through, hselector, h.segment_code]
  simp only [htype]
  rw [if_neg hcode, if_neg (by decide)]
  by_cases hcpl : cpl = 0
  · rw [if_pos (Or.inr hcpl.symm), if_neg hlimit, if_pos hcpl, hcpl]
    rfl
  · have hinner : ¬ (Descriptor.conforming ⟨0, 2 ^ 32 - 1, true, 10, 0, true, true⟩ = true ∨
        0 = cpl) := by
      rintro (hconforming | hlevel)
      · cases hconforming
      · exact hcpl hlevel.symm
    rw [if_neg hinner, h.innerStack]
    simp only []
    rw [if_neg hlimit, if_neg hcpl]
    rfl

end

/-- An interrupt reaches its stub, on the stack that `set_kernel_stack` was given if it
comes from an outer level. An instruction may cause it from there for vector 1 alone. -/
theorem interrupt_gate {m : Mem} {stack : UInt32} {entry : Fin 48 → UInt32} {v : Fin 48}
    (hgdt : HoldsGdt m stack) (hidt : HoldsGate entry m v) (cpl : Nat) (software : Bool) :
    kernelTables.interrupt m cpl v software =
      if software ∧ gateLevel v < cpl then .fault 13 (8 * v.val + 2)
      else .entry ⟨kernelCs, entry v, if cpl = 0 then none else some (0x10, stack), true⟩ := by
  have hreach : kernelTables.idt.Reaches v := by
    show 8 * v.val + 7 ≤ 2047
    omega
  have hgate : Gate.ofBits (m.quad kernelTables.idt.base v.val) =
      ⟨entry v, kernelCs, false, 14, gateLevel v, true⟩ := hidt.ofBits
  rw [Tables.interrupt, if_neg (not_not.mpr hreach)]
  simp only [hgate]
  rw [if_neg (by decide)]
  by_cases hlevel : software = true ∧ gateLevel v < cpl
  · rw [if_pos hlevel, if_pos hlevel, if_pos hlevel.1]
  · rw [if_neg hlevel, if_neg hlevel, if_neg (by decide), if_neg (by decide),
      hgdt.through _ _ rfl rfl]

/-! ## The setup -/

/-- The bytes of `gdt`, `tss` and `idt`. -/
def TableBytes (a : UInt32) : Prop :=
  Span TableLayout.gdt 48 a ∨ Span TableLayout.tss 104 a ∨ Span TableLayout.idt 2048 a

theorem tableBytes_off_block {i : Nat} (hi : i < kMemoryMapEntries) {a : UInt32}
    (ha : TableBytes a) : ¬ Span (blockAddr i) 0x1000 a := by
  intro hblock
  refine TableLayout.tables_kmallocMemory a ha ?_
  simp only [kMemoryMapEntries] at hi ⊢
  have haddr : blockAddr i = Layout.kmallocMemory + UInt32.ofNat (i * 0x1000) := by
    rw [blockAddr, UInt32.ofNat_mul]
    rfl
  rw [haddr] at hblock
  exact hblock.sub (by omega) (by omega)

omit [TableLayout] in
theorem pagingMemory_sameOff (m : Mem) (dir table : UInt32) :
    SameOff (fun a => Span dir 0x1000 a ∨ Span table 0x1000 a) m (pagingMemory m dir table) := by
  have hdir : ∀ (m : Mem) f, SameOff (fun a => Span dir 0x1000 a ∨ Span table 0x1000 a) m
      (m.fillWords dir f 1024) := fun m f => (sameOff_fillWords (by omega)).mono fun _ => .inl
  have htable : ∀ (m : Mem) f, SameOff (fun a => Span dir 0x1000 a ∨ Span table 0x1000 a) m
      (m.fillWords table f 1024) := fun m f => (sameOff_fillWords (by omega)).mono fun _ => .inr
  have hentry : ∀ (m : Mem) i v, i < 1024 →
      SameOff (fun a => Span dir 0x1000 a ∨ Span table 0x1000 a) m (m.setWord dir i v) :=
    fun m i v hi => (sameOff_setWord hi (by omega)).mono fun _ => .inl
  exact (((((htable _ _).trans (hdir _ _)).trans (htable _ _)).trans
    (hentry _ 0 _ (by omega))).trans (hentry _ 0x300 _ (by omega))).trans
    (hentry _ 0 _ (by omega))

/-- The stack that the kernel sets for interrupts: the end of the third and fourth block. -/
def kernelStack : UInt32 := blockAddr 2 + blockSize * 2 - 16

/-- The tables that a boot has built when it turns to the storage drivers. -/
structure HoldsTables (entry : Fin 48 → UInt32) (m : Mem) : Prop where
  gdt : HoldsGdt m kernelStack
  idt : ∀ v, HoldsGate entry m v

theorem HoldsTables.congr {entry : Fin 48 → UInt32} {m m' : Mem} (h : HoldsTables entry m)
    (hsame : ∀ a, TableBytes a → m' a = m a) : HoldsTables entry m' := by
  refine ⟨h.gdt.congr (fun a ha => hsame a (.inl ha)) fun a ha => hsame a (.inr (.inl ha)),
    fun v => ?_⟩
  rw [HoldsGate, ← h.idt v]
  exact Mem.load64_congr fun a ha =>
    hsame a (.inr (.inr (ha.sub (by omega) (by omega))))

theorem setupInterruptHandlers_run (entry : Fin 48 → UInt32) (k : Kernel Ata) :
    ∃ k', (setupInterruptHandlers entry).run k = .ok setIdt k' ∧
      SameOff (Span TableLayout.idt 2048) k.mem k'.mem ∧ (∀ v, HoldsGate entry k'.mem v) ∧
      k'.kMemoryMap = k.kMemoryMap ∧ ∃ log, k'.dev = { k.dev with log := log } := by
  obtain ⟨m, hrun, hoff, hgates, -⟩ :=
    installIsrs_run entry (k.print (.str "installing interrupt handlers")).toMachine
  have htimer : ∀ s, ∃ s' log, (initTimer timerFreq).run s = .ok () s' ∧ s'.mem = s.mem ∧
      s'.dev = { s.dev with log := log } :=
    fun s => ⟨_, _, rfl, rfl, rfl⟩
  obtain ⟨s, log, htimer, hmem, hdev⟩ := htimer (withLog
    { (k.print (.str "installing interrupt handlers")).toMachine with mem := m } remapWords)
  have hmem : s.mem = m := hmem
  have hdev : s.dev = { k.dev with log := log } := hdev
  have hall : (setupInterruptHandlers entry).run k = (do
      kprintStatusOk
      return setIdt : Kern Ata TableRegister).run
        { k.print (.str "installing interrupt handlers") with toMachine := s } := by
    rw [setupInterruptHandlers, Exec.bind_ok (kprint_run _ _),
      Exec.bind_ok (Kern.ofMachine_ok hrun), Exec.bind_ok (Kern.ofMachine_ok htimer)]
  refine ⟨_, hall.trans rfl, ?_, ?_, rfl, log, hdev⟩
  · show SameOff _ _ s.mem
    rw [hmem]
    exact hoff
  · show ∀ v, HoldsGate entry s.mem v
    rw [hmem]
    exact hgates

theorem kmalloc_two (k : Kernel Ata) (h : 2 ≤ freeCount k.kMemoryMap) :
    ∃ k', (kmalloc 2).run k = .ok (blockAddr (firstFree k.kMemoryMap)) k' ∧
      k'.kMemoryMap = mapRange k.kMemoryMap (firstFree k.kMemoryMap) 2 1 ∧
      SameOff (Span (blockAddr (firstFree k.kMemoryMap)) 0x1000) k.mem k'.mem := by
  refine ⟨_, kmalloc_ok (by decide) h, rfl, ?_⟩
  show SameOff _ k.mem (k.mem.write _ 0x1000 fun _ => 0)
  exact sameOff_write

/-- The page map of a kernel that has taken its two stacks. -/
def stacksTaken : Vector UInt8 kMemoryMapEntries :=
  mapRange (mapRange (Vector.replicate kMemoryMapEntries 0) 0 2 1) 2 2 1

theorem kernelSetup_run (entry : Fin 48 → UInt32) {firstPageTable : UInt32} {k : Kernel Ata}
    (hfresh : k.kMemoryMap = Vector.replicate kMemoryMapEntries 0)
    (hstack : ∀ a, TableBytes a → ¬ Span firstPageTable 0x1000 a) :
    ∃ k', (kernelSetup entry firstPageTable).run k = .ok (some kernelTables) k' ∧
      HoldsTables entry k'.mem ∧ k'.kMemoryMap = stacksTaken ∧
      ∃ log, k'.dev = { k.dev with log := log } := by
  -- blocks 0 and 1 go to the stack of the boot, and blocks 2 and 3 to that of the interrupts
  have hfirst : firstFree (Vector.replicate kMemoryMapEntries 0) = 0 := by decide
  have hsecond : firstFree (mapRange (Vector.replicate kMemoryMapEntries 0) 0 2 1) = 2 := by
    decide
  obtain ⟨k₁, hrun₁, hmap₁, -⟩ := kmalloc_two (k.print (.str "bedrock-os v0.3 (alpha build)\n"))
    (by rw [show (k.print _).kMemoryMap = k.kMemoryMap from rfl, hfresh]; decide +kernel)
  rw [show (k.print _).kMemoryMap = k.kMemoryMap from rfl, hfresh, hfirst] at hmap₁
  obtain ⟨k₂, hrun₂, hgdt₂, -, hdev₂, hmap₂, -⟩ := setupGdt_run k₁
  rw [hmap₁] at hmap₂
  obtain ⟨k₃, hrun₃, hmap₃, hoff₃⟩ := kmalloc_two k₂ (by rw [hmap₂]; decide +kernel)
  rw [hmap₂, hsecond] at hrun₃ hmap₃ hoff₃
  have hdev₁ : k₁.dev = (k.print _).dev := (keepsDev_kmalloc 2).of_ok hrun₁
  have hdev₃ : k₃.dev = k₂.dev := (keepsDev_kmalloc 2).of_ok hrun₃
  have hblock : ∀ a, TableBytes a → k₃.mem a = k₂.mem a := fun a ha =>
    hoff₃ a (tableBytes_off_block (by decide) ha)
  have hgdt₃ : HoldsGdt k₃.mem 0 :=
    hgdt₂.congr (fun a ha => hblock a (.inl ha)) fun a ha => hblock a (.inr (.inl ha))
  obtain ⟨m₄, hrun₄, hgdt₄, -⟩ := setKernelStack_run kernelStack hgdt₃
  obtain ⟨k₅, hrun₅, hmem₅, -, hmap₅, hdev₅⟩ :=
    setupPaging_run firstPageTable { k₃ with mem := m₄ }
  have hpaging : ∀ a, TableBytes a → k₅.mem a = m₄ a := by
    intro a ha
    rw [hmem₅]
    refine pagingMemory_sameOff _ _ _ a fun h => ?_
    exact h.elim (TableLayout.tables_pageDirectory a ha) (hstack a ha)
  have hgdt₅ : HoldsGdt k₅.mem kernelStack :=
    hgdt₄.congr (fun a ha => hpaging a (.inl ha)) fun a ha => hpaging a (.inr (.inl ha))
  obtain ⟨k₆, hrun₆, hoff₆, hgates₆, hmap₆, log, hdev₆⟩ := setupInterruptHandlers_run entry k₅
  have hgdt₆ : HoldsGdt k₆.mem kernelStack :=
    hgdt₅.congr (fun a ha => hoff₆ a (TableLayout.gdt_idt a ha))
      fun a ha => hoff₆ a (TableLayout.tss_idt a ha)
  have hdev : k₅.dev = k.dev := by
    rw [hdev₅, hdev₃, hdev₂, hdev₁]
    rfl
  refine ⟨k₆, ?_, ⟨hgdt₆, hgates₆⟩, hmap₆.trans (hmap₅.trans hmap₃), log, by rw [hdev₆, hdev]⟩
  rw [kernelSetup, Exec.bind_ok (kprint_run _ _), Exec.bind_ok hrun₁, Exec.bind_ok hrun₂,
    Exec.bind_ok hrun₃, ← kernelStack, Exec.bind_ok hrun₄, Exec.bind_ok hrun₅, Exec.bind_ok hrun₆]
  rfl

/-! ## The interrupts -/

omit [TableLayout] in
/-- What the processor does with an entry is what the stubs are written for. -/
theorem enter_eq_deliver (k : StubEnv) (hss : k.tss.ss0 = 0x10) (v : Fin 48) (info : UInt32)
    (c : Cpu) :
    c.enter ⟨kernelCs, k.entry v, if (rpl c.cs).toNat = 0 then none else some (0x10, k.tss.esp0),
      true⟩ (errorCode v info) = deliver k v info c := by
  have hlevel : (rpl c.cs).toNat = 0 ↔ rpl c.cs = 0 := by
    rw [← UInt16.toNat_inj]
    exact Iff.rfl
  by_cases h : rpl c.cs = 0
  · rw [if_pos (hlevel.mpr h), deliver, if_pos h]
    rfl
  · rw [if_neg (mt hlevel.mp h), deliver, if_neg h, hss]
    rfl

/-- However the loader left memory: the boot builds the tables through which the processor
enters each of the 48 stubs in the way `deliver` says, from every level, as long as nothing
writes over them; and code of ring 3 causes none of these interrupts itself but vector 1. -/
theorem kernelSetup_delivers (entry : Fin 48 → UInt32) {firstPageTable : UInt32}
    {k : Kernel Ata} (hfresh : k.kMemoryMap = Vector.replicate kMemoryMapEntries 0)
    (hstack : ∀ a, TableBytes a → ¬ Span firstPageTable 0x1000 a) :
    ∃ t k', (kernelSetup entry firstPageTable).run k = .ok (some t) k' ∧
      ∀ c : Cpu, (∀ a, TableBytes a → c.mem a = k'.mem a) → ∀ v : Fin 48,
        (∀ info returnTo handler, ∃ e,
          t.interrupt c.mem (rpl c.cs).toNat v false = .entry e ∧
          c.enter e (errorCode v info) =
            deliver ⟨⟨kernelStack, 0x10⟩, entry, returnTo, handler⟩ v info c) ∧
        ((∃ e, t.interrupt c.mem 3 v true = .entry e) ↔ v = 1) := by
  obtain ⟨k', hrun, htables, -⟩ := kernelSetup_run entry hfresh hstack
  refine ⟨kernelTables, k', hrun, fun c hsame v => ?_⟩
  have htables := htables.congr hsame
  constructor
  · intro info returnTo handler
    have hentry := interrupt_gate htables.gdt (htables.idt v) (rpl c.cs).toNat false
    rw [if_neg (by simp)] at hentry
    exact ⟨_, hentry, enter_eq_deliver ⟨⟨kernelStack, 0x10⟩, entry, returnTo, handler⟩ rfl
      v info c⟩
  · have hval : v = 1 ↔ v.val = 1 := Fin.ext_iff
    rw [interrupt_gate htables.gdt (htables.idt v) 3 true, gateLevel, hval]
    by_cases hv : v.val = 1
    · simp [hv]
    · simp [hv]

/-- A kernel that has just been loaded, before a drive that answers nothing. -/
def bootKernel : Kernel Ata := .zero (ataBoot ⟨0, ataPrimary, ataMaster, .ata, 0, 0, []⟩ []).dev

omit [TableLayout] in
/-- The stack of the boot lies elsewhere. -/
theorem bootStack_apart (a : UInt32) (h : @TableBytes bootTables a) :
    ¬ Span 0xC0055000 0x1000 a := by
  intro h'
  rcases h with h | h | h
  all_goals exact h'.below (by decide) (by decide) h

omit [TableLayout] in
/-- In zeroed memory: a key pressed while a program of ring 3 runs, and what that program can
raise itself. -/
theorem kernelSetup_delivers_boot : ∃ (_ : TableLayout) (t : Tables) (k' : Kernel Ata),
    let entry : Fin 48 → UInt32 := fun v => UInt32.ofNat (0xC0010000 + 16 * v.val)
    let c := { userCode with mem := k'.mem }
    (kernelSetup entry 0xC0055000).run bootKernel = .ok (some t) k' ∧
    (∀ returnTo handler, ∃ e, t.interrupt c.mem 3 33 false = .entry e ∧
      c.enter e none = deliver ⟨⟨kernelStack, 0x10⟩, entry, returnTo, handler⟩ 33 0 c ∧
      (c.enter e none).eip = 0xC0010210 ∧ (c.enter e none).ss = 0x10) ∧
    ∀ v : Fin 48, (∃ e, t.interrupt k'.mem 3 v true = .entry e) ↔ v = 1 := by
  let _ := bootTables
  obtain ⟨t, k', hrun, hall⟩ := kernelSetup_delivers
    (fun v => UInt32.ofNat (0xC0010000 + 16 * v.val)) (k := bootKernel) rfl bootStack_apart
  refine ⟨bootTables, t, k', hrun, fun returnTo handler => ?_, fun v =>
    (hall { userCode with mem := k'.mem } (fun _ _ => rfl) v).2⟩
  obtain ⟨e, hentry, henter⟩ :=
    (hall { userCode with mem := k'.mem } (fun _ _ => rfl) 33).1 0 returnTo handler
  have hlevel : (rpl userCode.cs).toNat = 3 := by decide
  change t.interrupt k'.mem (rpl userCode.cs).toNat 33 false = _ at hentry
  rw [hlevel] at hentry
  have henter : Cpu.enter _ e none = _ := henter
  refine ⟨e, hentry, henter, ?_, ?_⟩
  · rw [henter]
    rfl
  · have houter : ¬ rpl userCode.cs = 0 := by decide
    rw [henter, deliver, if_neg houter]
    rfl
/-! ## The ports of ring 3

`write_tss` leaves the field for the map of the ports at zero, so the map begins with the
task state segment itself. -/

omit [TableLayout] in
theorem toNat_byteOf (v i : Nat) : (byteOf v i).toNat = bits v (8 * i) 8 := by
  rw [byteOf, UInt8.toNat_ofNat', bits, Nat.pow_mul]

omit [TableLayout] in
theorem byte_load32 (m : Mem) (p : UInt32) {i : Nat} (hi : i < 4) :
    m (p + UInt32.ofNat i) = byteOf (m.load32 p).toNat i := by
  have h0 := (m p).toNat_lt
  have h1 := (m (p + 1)).toNat_lt
  have h2 := (m (p + 2)).toNat_lt
  have h3 := (m (p + 3)).toNat_lt
  apply UInt8.toNat_inj.mp
  rw [byteOf, UInt8.toNat_ofNat', Mem.load32, UInt32.toNat_ofNat']
  rcases (by omega : i = 0 ∨ i = 1 ∨ i = 2 ∨ i = 3) with rfl | rfl | rfl | rfl
  · rw [show p + UInt32.ofNat 0 = p from UInt32.add_zero p]
    omega
  · rw [show p + UInt32.ofNat 1 = p + 1 from rfl]
    omega
  · rw [show p + UInt32.ofNat 2 = p + 2 from rfl]
    omega
  · rw [show p + UInt32.ofNat 3 = p + 3 from rfl]
    omega

omit [TableLayout] in
/-- A bit of an array of words, by the byte it is in. -/
theorem bits_byte (m : Mem) (base : UInt32) (port : Nat) :
    bits (m (base + UInt32.ofNat (port / 8))).toNat (port % 8) 1 =
      bits (m.word base (port / 32)).toNat (port % 32) 1 := by
  have hplace : base + UInt32.ofNat (port / 8) =
      base + UInt32.ofNat (4 * (port / 32)) + UInt32.ofNat (port / 8 % 4) := by
    rw [UInt32.add_assoc, ← UInt32.ofNat_add]
    congr 2
    omega
  rw [hplace, byte_load32 m _ (by omega), toNat_byteOf, bits_bits (by omega), ← Mem.word]
  congr 1
  omega

omit [TableLayout] in
theorem bits_load16 (m : Mem) (p : UInt32) {i : Nat} (hi : i < 8) :
    bits (m.load16 p).toNat i 1 = bits (m p).toNat i 1 := by
  have h0 := (m p).toNat_lt
  have h1 := (m (p + 1)).toNat_lt
  have hlow : bits (m.load16 p).toNat 0 8 = (m p).toNat := by
    rw [bits, Mem.load16, UInt16.toNat_ofNat']
    omega
  rw [← hlow, bits_bits (by omega), Nat.zero_add]

/-- The map ends at port 832 and is open where the words of the segment have no bit: only the
stack and its segment have any. -/
theorem mayUse_iff {m : Mem} {stack : UInt32} (h : HoldsGdt m stack) (port : Nat) :
    kernelTables.MayUse m 3 0 port 1 ↔ port < 832 ∧ port ≠ 68 ∧
      (port / 32 = 1 → bits stack.toNat (port % 32) 1 = 0) := by
  have hmap : (m.load16 (TableLayout.tss + 102)).toNat = 0 := by
    have hbyte : ∀ i < 4, m (TableLayout.tss + UInt32.ofNat 100 + UInt32.ofNat i) = 0 := by
      intro i hi
      have hword : m.load32 (TableLayout.tss + UInt32.ofNat 100) = 0 := h.tss 25 (by omega)
      rw [byte_load32 m _ hi, hword, byteOf, UInt32.toNat_zero, Nat.zero_div]
      rfl
    have h2 : m (TableLayout.tss + 102) = 0 := by
      have := hbyte 2 (by omega)
      rwa [UInt32.add_assoc] at this
    have h3 : m (TableLayout.tss + 102 + 1) = 0 := by
      have := hbyte 3 (by omega)
      rwa [UInt32.add_assoc] at this ⊢
    rw [Mem.load16, h2, h3]
    rfl
  have hbits : port < 832 → (bits (m.load16 (TableLayout.tss + UInt32.ofNat (port / 8))).toNat
      (port % 8) 1 = 0 ↔ port ≠ 68 ∧ (port / 32 = 1 → bits stack.toNat (port % 32) 1 = 0)) := by
    intro hport
    have hzero : bits (0 : UInt32).toNat (port % 32) 1 = 0 := by
      rw [UInt32.toNat_zero, bits, Nat.zero_div, Nat.zero_mod]
    have hss : ∀ i < 32, bits (0x10 : UInt32).toNat i 1 = 0 ↔ i ≠ 4 := by decide
    rw [bits_load16 _ _ (by omega), bits_byte, h.tss (port / 32) (by omega)]
    by_cases h1 : port / 32 = 1
    · rw [if_pos h1]
      exact ⟨fun hbit => ⟨by omega, fun _ => hbit⟩, fun hport => hport.2 h1⟩
    · rw [if_neg h1]
      by_cases h2 : port / 32 = 2
      · rw [if_pos h2, hss _ (by omega)]
        exact ⟨fun hbit => ⟨by omega, fun h => absurd h h1⟩, fun hport => by omega⟩
      · rw [if_neg h2]
        exact ⟨fun _ => ⟨by omega, fun h => absurd h h1⟩, fun _ => hzero⟩
  have hlevel : ¬ 3 ≤ 0 := by decide
  rw [Tables.MayUse, or_iff_right hlevel]
  simp only [show kernelTables.task.base = TableLayout.tss from rfl,
    show kernelTables.task.limit = 104 from rfl, hmap, Nat.zero_add]
  constructor
  · rintro ⟨-, hlimit, hbit⟩
    exact ⟨by omega, (hbits (by omega)).mp hbit⟩
  · rintro ⟨hport, hfree⟩
    exact ⟨by omega, by omega, (hbits hport).mpr hfree⟩

theorem toNat_kernelStack :
    kernelStack.toNat = Layout.kmallocMemory.toNat + 0x4000 - 16 := by
  have hblock := toNat_blockAddr (i := 2) (by decide)
  have hfits := Layout.kmallocMemory_fits
  have hkernel := Layout.kmallocMemory_kernel
  simp only [kMemoryMapEntries] at hfits
  rw [kernelStack, UInt32.toNat_sub, UInt32.toNat_add, hblock,
    show (blockSize * 2 : UInt32).toNat = 0x2000 from rfl, show (16 : UInt32).toNat = 16 from rfl]
  omega

/-- The ports of the interrupt controllers, of the timer and the keyboard, and of the
command block registers of the two IDE channels (not their control registers, 0x3F6 and
0x376). -/
def devicePorts : List Nat :=
  [0x20, 0x21, 0xA0, 0xA1, 0x40, 0x43, 0x60] ++ (List.range 8).map (0x1F0 + ·) ++
    (List.range 8).map (0x170 + ·)

/-- After the boot code of ring 3 may use every port below 832, apart from port 68 and the
ports that the bits of the stack pointer in the map stand for; the devices that the kernel
drives are among those it may use. -/
theorem kernelSetup_ports (entry : Fin 48 → UInt32) {firstPageTable : UInt32}
    {k : Kernel Ata} (hfresh : k.kMemoryMap = Vector.replicate kMemoryMapEntries 0)
    (hstack : ∀ a, TableBytes a → ¬ Span firstPageTable 0x1000 a) :
    ∃ t k', (kernelSetup entry firstPageTable).run k = .ok (some t) k' ∧
      ∀ m : Mem, (∀ a, TableBytes a → m a = k'.mem a) →
        (∀ port, t.MayUse m 3 0 port 1 ↔ port < 832 ∧ port ≠ 68 ∧
          (port / 32 = 1 → bits kernelStack.toNat (port % 32) 1 = 0)) ∧
        ∀ port ∈ devicePorts, t.MayUse m 3 0 port 1 := by
  obtain ⟨k', hrun, htables, -⟩ := kernelSetup_run entry hfresh hstack
  refine ⟨kernelTables, k', hrun, fun m hsame => ?_⟩
  have hports := mayUse_iff (htables.congr hsame).gdt
  refine ⟨hports, fun port hport => (hports port).mpr ?_⟩
  have hdevice : ∀ port ∈ devicePorts,
      port < 832 ∧ port ≠ 68 ∧ (port / 32 = 1 → port % 32 < 4) := by decide
  obtain ⟨hlimit, hne, hlow⟩ := hdevice port hport
  refine ⟨hlimit, hne, fun hword => ?_⟩
  -- the stack pointer is a multiple of 16
  have hbit := hlow hword
  have haligned := Layout.kmallocMemory_aligned
  have htop := toNat_kernelStack
  rw [bits]
  rcases (by omega : port % 32 = 0 ∨ port % 32 = 1 ∨ port % 32 = 2 ∨ port % 32 = 3) with
    h | h | h | h
  all_goals
    rw [h]
    omega

omit [TableLayout] in
theorem kernelSetup_ports_boot : ∃ (_ : TableLayout) (t : Tables) (k' : Kernel Ata),
    (kernelSetup (fun v => UInt32.ofNat (0xC0010000 + 16 * v.val)) 0xC0055000).run bootKernel =
      .ok (some t) k' ∧
    t.MayUse k'.mem 3 0 0x1F7 1 ∧ ¬ t.MayUse k'.mem 3 0 0x3F6 1 := by
  let _ := bootTables
  obtain ⟨t, k', hrun, hall⟩ := kernelSetup_ports
    (fun v => UInt32.ofNat (0xC0010000 + 16 * v.val)) (k := bootKernel) rfl bootStack_apart
  obtain ⟨hports, hdevices⟩ := hall k'.mem fun _ _ => rfl
  refine ⟨bootTables, t, k', hrun, hdevices 0x1F7 (by decide), fun hctrl => ?_⟩
  exact absurd ((hports 0x3F6).mp hctrl).1 (by decide)

end

end Bedrock
