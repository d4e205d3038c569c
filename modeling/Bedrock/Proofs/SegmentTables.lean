import Bedrock.Cpu.Idt
import Bedrock.Drivers.Storage

/-!
# What the processor reads in the tables

The entries of `gdt` and the gates of `idt` as the fields the source fills in, and
as the processor takes them apart again. `setup_gdt` and `isr_install` write their
entries over whatever memory held, so what the tables hold afterwards
(`HoldsGdt`, `HoldsGate`) is known without a word about the memory before.

The tables lie apart, and each survives the writes to the others.
-/

namespace Bedrock

open Lib

variable {δ : Type}

/-! ## An entry of `gdt` -/

theorem GdtEntryBits.value_lt (e : GdtEntryBits) : e.value < 2 ^ 64 := pack_lt _

/-- An entry as the processor reads it: the two halves of its base and of its limit
are put together, and the four bits of its type. -/
theorem GdtEntryBits.ofBits (e : GdtEntryBits) :
    Descriptor.ofBits e.value = {
      base := UInt32.ofNat (e.baseLow.toNat + 2 ^ 24 * e.baseHigh.toNat)
      limit :=
        let limit := e.limitLow.toNat + 2 ^ 16 * e.limitHigh.toNat
        if e.gran.toNat = 1 then 4096 * limit + 4095 else limit
      application := e.always1.toNat = 1
      type := e.accessed.toNat + 2 ^ 1 * (e.readWrite.toNat + 2 ^ 1 *
        (e.conformingExpandDown.toNat + 2 ^ 1 * e.code.toNat))
      dpl := e.DPL.toNat
      present := e.present.toNat = 1
      big := e.big.toNat = 1 } := by
  have limitLow : bits e.value 0 16 = e.limitLow.toNat :=
    pack_field (i := 0) rfl rfl e.limitLow.isLt
  have baseLow : bits e.value 16 24 = e.baseLow.toNat := pack_field (i := 1) rfl rfl e.baseLow.isLt
  have accessed : bits e.value 40 1 = e.accessed.toNat :=
    pack_field (i := 2) rfl rfl e.accessed.isLt
  have readWrite : bits e.value 41 1 = e.readWrite.toNat :=
    pack_field (i := 3) rfl rfl e.readWrite.isLt
  have conforming : bits e.value 42 1 = e.conformingExpandDown.toNat :=
    pack_field (i := 4) rfl rfl e.conformingExpandDown.isLt
  have code : bits e.value 43 1 = e.code.toNat := pack_field (i := 5) rfl rfl e.code.isLt
  have always1 : bits e.value 44 1 = e.always1.toNat := pack_field (i := 6) rfl rfl e.always1.isLt
  have dpl : bits e.value 45 2 = e.DPL.toNat := pack_field (i := 7) rfl rfl e.DPL.isLt
  have present : bits e.value 47 1 = e.present.toNat := pack_field (i := 8) rfl rfl e.present.isLt
  have limitHigh : bits e.value 48 4 = e.limitHigh.toNat :=
    pack_field (i := 9) rfl rfl e.limitHigh.isLt
  have big : bits e.value 54 1 = e.big.toNat := pack_field (i := 12) rfl rfl e.big.isLt
  have gran : bits e.value 55 1 = e.gran.toNat := pack_field (i := 13) rfl rfl e.gran.isLt
  have baseHigh : bits e.value 56 8 = e.baseHigh.toNat :=
    pack_field (i := 14) rfl rfl e.baseHigh.isLt
  have type : bits e.value 40 4 = e.accessed.toNat + 2 ^ 1 * (e.readWrite.toNat + 2 ^ 1 *
      (e.conformingExpandDown.toNat + 2 ^ 1 * e.code.toNat)) := by
    rw [← accessed, ← readWrite, ← conforming, ← code, ← bits_add, ← bits_add, ← bits_add]
  rw [Descriptor.ofBits, limitLow, baseLow, always1, dpl, present, limitHigh, big, gran,
    baseHigh, type]

/-- The two parts of an address. -/
theorem toNat_parts (a : UInt32) :
    (a &&& 0xFFFFFF).toNat = a.toNat % 2 ^ 24 ∧
      ((a &&& 0xFF000000) >>> 24).toNat = a.toNat / 2 ^ 24 := by
  have ha := a.toNat_lt
  constructor
  · rw [UInt32.toNat_and]
    exact Nat.and_two_pow_sub_one_eq_mod a.toNat 24
  · rw [UInt32.toNat_shiftRight, UInt32.toNat_and, Nat.shiftRight_and_distrib,
      Nat.shiftRight_eq_div_pow]
    change a.toNat / 2 ^ 24 &&& 2 ^ 8 - 1 = _
    rw [Nat.and_two_pow_sub_one_eq_mod]
    omega

theorem gdtTss_ofBits (base : UInt32) :
    Descriptor.ofBits (gdtTss base sizeofTss).value = ⟨base, 104, false, 9, 3, true, false⟩ := by
  have hbase : UInt32.ofNat ((gdtTss base sizeofTss).baseLow.toNat +
      2 ^ 24 * (gdtTss base sizeofTss).baseHigh.toNat) = base := by
    obtain ⟨hlow, hhigh⟩ := toNat_parts base
    have hlt := base.toNat_lt
    apply UInt32.toNat_inj.mp
    rw [gdtTss, hlow, hhigh, BitVec.toNat_ofNat, BitVec.toNat_ofNat, UInt32.toNat_ofNat']
    omega
  rw [GdtEntryBits.ofBits, hbase]
  rfl

/-! ## A gate of `idt` -/

theorem IdtGate.value_lt (g : IdtGate) : g.value < 2 ^ 64 := pack_lt _

theorem idtGate_ofBits (handler : UInt32) (flags : UInt8) :
    Gate.ofBits (idtGate handler flags).value = {
      offset := handler
      selector := kernelCs
      application := bits flags.toNat 4 1 = 1
      type := bits flags.toNat 0 4
      dpl := bits flags.toNat 5 2
      present := bits flags.toNat 7 1 = 1 } := by
  have hhandler := handler.toNat_lt
  generalize hg : idtGate handler flags = g
  have lowOffset : bits g.value 0 16 = g.lowOffset.toNat :=
    pack_field (i := 0) rfl rfl g.lowOffset.toNat_lt
  have sel : bits g.value 16 16 = g.sel.toNat := pack_field (i := 1) rfl rfl g.sel.toNat_lt
  have flagBits : bits g.value 40 8 = g.flags.toNat :=
    pack_field (i := 3) rfl rfl g.flags.toNat_lt
  have highOffset : bits g.value 48 16 = g.highOffset.toNat :=
    pack_field (i := 4) rfl rfl g.highOffset.toNat_lt
  have part : ∀ o w, o + w ≤ 8 → bits g.value (40 + o) w = bits g.flags.toNat o w :=
    fun o w h => by rw [← flagBits, bits_bits h]
  have type : bits g.value 40 4 = bits g.flags.toNat 0 4 := part 0 4 (by omega)
  have application : bits g.value 44 1 = bits g.flags.toNat 4 1 := part 4 1 (by omega)
  have dpl : bits g.value 45 2 = bits g.flags.toNat 5 2 := part 5 2 (by omega)
  have present : bits g.value 47 1 = bits g.flags.toNat 7 1 := part 7 1 (by omega)
  subst hg
  have hlow : (low16 handler).toNat = handler.toNat % 2 ^ 16 := by
    rw [low16, UInt32.toNat_toUInt16, UInt32.toNat_and]
    change (handler.toNat &&& 2 ^ 16 - 1) % 2 ^ 16 = _
    rw [Nat.and_two_pow_sub_one_eq_mod, Nat.mod_mod]
  have hhigh : (high16 handler).toNat = handler.toNat / 2 ^ 16 := by
    rw [high16, UInt32.toNat_toUInt16, UInt32.toNat_and, UInt32.toNat_shiftRight,
      Nat.shiftRight_eq_div_pow]
    change (handler.toNat / 2 ^ 16 &&& 2 ^ 16 - 1) % 2 ^ 16 = _
    rw [Nat.and_two_pow_sub_one_eq_mod]
    omega
  have hoffset : UInt32.ofNat ((low16 handler).toNat + 2 ^ 16 * (high16 handler).toNat) =
      handler := by
    rw [hlow, hhigh]
    apply UInt32.toNat_inj.mp
    rw [UInt32.toNat_ofNat']
    omega
  rw [Gate.ofBits, lowOffset, highOffset, sel, type, application, dpl, present]
  simp only [idtGate, hoffset]
  rfl

/-! ## `setup_gdt` -/

section

variable [TableLayout]

/-- The tables of `setup_gdt`, once `ltr` has marked the task, with a stack. -/
structure HoldsGdt (m : Mem) (stack : UInt32) : Prop where
  code : m.quad TableLayout.gdt 1 = gdtCode.value
  data : m.quad TableLayout.gdt 2 = gdtData.value
  codeUser : m.quad TableLayout.gdt 3 = gdtCodeUser.value
  dataUser : m.quad TableLayout.gdt 4 = gdtDataUser.value
  task : m.quad TableLayout.gdt 5 = (gdtTss TableLayout.tss sizeofTss).value ||| 2 ^ 41
  tss : ∀ i < 26, m.word TableLayout.tss i = if i = 1 then stack else if i = 2 then 0x10 else 0

theorem HoldsGdt.congr {m m' : Mem} {stack : UInt32} (h : HoldsGdt m stack)
    (hgdt : ∀ a, Span TableLayout.gdt 48 a → m' a = m a)
    (htss : ∀ a, Span TableLayout.tss 104 a → m' a = m a) : HoldsGdt m' stack := by
  have hquad : ∀ i < 6, m'.quad TableLayout.gdt i = m.quad TableLayout.gdt i := fun i hi =>
    Mem.load64_congr fun a ha => hgdt a (ha.sub (by omega) (by omega))
  have hword : ∀ i < 26, m'.word TableLayout.tss i = m.word TableLayout.tss i := fun i hi =>
    Mem.load32_congr fun a ha => htss a (ha.sub (by omega) (by omega))
  exact ⟨(hquad 1 (by omega)).trans h.code, (hquad 2 (by omega)).trans h.data,
    (hquad 3 (by omega)).trans h.codeUser, (hquad 4 (by omega)).trans h.dataUser,
    (hquad 5 (by omega)).trans h.task, fun i hi => (hword i hi).trans (h.tss i hi)⟩

/-- The memory before `ltr`. -/
def gdtMemory (m : Mem) : Mem :=
  ((memorySetLoop TableLayout.tss 0 sizeofTss.toNat
    (((((m.setQuad TableLayout.gdt 1 gdtCode.value).setQuad TableLayout.gdt 2
      gdtData.value).setQuad TableLayout.gdt 3 gdtCodeUser.value).setQuad TableLayout.gdt 4
      gdtDataUser.value).setQuad TableLayout.gdt 5
      (gdtTss TableLayout.tss sizeofTss).value)).setWord TableLayout.tss 2 0x10).setWord
    TableLayout.tss 1 0

/-- The bytes of `gdt` and `tss`. -/
def GdtBytes (a : UInt32) : Prop := Span TableLayout.gdt 48 a ∨ Span TableLayout.tss 104 a

theorem tss_clear (m : Mem) : memorySetLoop TableLayout.tss 0 sizeofTss.toNat m =
    m.write TableLayout.tss 104 fun _ => 0 :=
  memorySetLoop_eq _ _ _ (n := 104) (by omega)

theorem gdtMemory_sameOff (m : Mem) : SameOff GdtBytes m (gdtMemory m) := by
  have hquad : ∀ (m : Mem) i v, i < 6 → SameOff GdtBytes m (m.setQuad TableLayout.gdt i v) :=
    fun m i v hi => (sameOff_setQuad hi (by omega)).mono fun _ => .inl
  have hword : ∀ (m : Mem) i v, i < 26 → SameOff GdtBytes m (m.setWord TableLayout.tss i v) :=
    fun m i v hi => (sameOff_setWord hi (by omega)).mono fun _ => .inr
  rw [gdtMemory, tss_clear]
  refine .trans ?_ (hword _ 1 _ (by omega))
  refine .trans ?_ (hword _ 2 _ (by omega))
  refine .trans ?_ (sameOff_write.mono fun _ => .inr)
  exact ((((hquad _ 1 _ (by omega)).trans (hquad _ 2 _ (by omega))).trans
    (hquad _ 3 _ (by omega))).trans (hquad _ 4 _ (by omega))).trans (hquad _ 5 _ (by omega))

/-- Writes to `tss` leave the entries of `gdt`. -/
theorem quad_gdtMemory (m : Mem) {i : Nat} (hi : i < 6) :
    (gdtMemory m).quad TableLayout.gdt i =
      (((((m.setQuad TableLayout.gdt 1 gdtCode.value).setQuad TableLayout.gdt 2
        gdtData.value).setQuad TableLayout.gdt 3 gdtCodeUser.value).setQuad TableLayout.gdt 4
        gdtDataUser.value).setQuad TableLayout.gdt 5
        (gdtTss TableLayout.tss sizeofTss).value).quad TableLayout.gdt i := by
  refine Mem.load64_congr fun a ha => ?_
  have hoff : ¬ Span TableLayout.tss (4 * 26) a :=
    TableLayout.gdt_tss a (ha.sub (by omega) (by omega))
  rw [gdtMemory, tss_clear,
    sameOff_setWord (n := 26) (by omega) (by omega) a hoff,
    sameOff_setWord (n := 26) (by omega) (by omega) a hoff, Mem.write_off hoff]

theorem gdtMemory_task (m : Mem) :
    (gdtMemory m).quad TableLayout.gdt 5 = (gdtTss TableLayout.tss sizeofTss).value := by
  rw [quad_gdtMemory m (by omega), Mem.quad_setQuad_self (GdtEntryBits.value_lt _)]

/-- What `ltr` does with the entry of the task. -/
theorem gdtMemory_holds (m : Mem) :
    HoldsGdt ((gdtMemory m).setQuad TableLayout.gdt 5
      ((gdtTss TableLayout.tss sizeofTss).value ||| 2 ^ 41)) 0 := by
  have hquad : ∀ i < 5, 0 < i → ((gdtMemory m).setQuad TableLayout.gdt 5
      ((gdtTss TableLayout.tss sizeofTss).value ||| 2 ^ 41)).quad TableLayout.gdt i =
      ((((m.setQuad TableLayout.gdt 1 gdtCode.value).setQuad TableLayout.gdt 2
        gdtData.value).setQuad TableLayout.gdt 3 gdtCodeUser.value).setQuad TableLayout.gdt 4
        gdtDataUser.value).quad TableLayout.gdt i := fun i hi h0 => by
    rw [Mem.quad_setQuad_ne (by omega) (by omega) (by omega), quad_gdtMemory m (by omega),
      Mem.quad_setQuad_ne (by omega) (by omega) (by omega)]
  have hlt : (gdtTss TableLayout.tss sizeofTss).value ||| 2 ^ 41 < 2 ^ 64 :=
    Nat.or_lt_two_pow (GdtEntryBits.value_lt _) (by decide)
  refine ⟨?_, ?_, ?_, ?_, Mem.quad_setQuad_self hlt, fun i hi => ?_⟩
  · rw [hquad 1 (by omega) (by omega), Mem.quad_setQuad_ne (by omega) (by omega) (by omega),
      Mem.quad_setQuad_ne (by omega) (by omega) (by omega),
      Mem.quad_setQuad_ne (by omega) (by omega) (by omega),
      Mem.quad_setQuad_self (GdtEntryBits.value_lt _)]
  · rw [hquad 2 (by omega) (by omega), Mem.quad_setQuad_ne (by omega) (by omega) (by omega),
      Mem.quad_setQuad_ne (by omega) (by omega) (by omega),
      Mem.quad_setQuad_self (GdtEntryBits.value_lt _)]
  · rw [hquad 3 (by omega) (by omega), Mem.quad_setQuad_ne (by omega) (by omega) (by omega),
      Mem.quad_setQuad_self (GdtEntryBits.value_lt _)]
  · rw [hquad 4 (by omega) (by omega), Mem.quad_setQuad_self (GdtEntryBits.value_lt _)]
  · have hoff : ∀ a, Span (TableLayout.tss + UInt32.ofNat (4 * i)) 4 a →
        ¬ Span TableLayout.gdt (8 * 6) a := fun a ha hg =>
      TableLayout.gdt_tss a hg (ha.sub (by omega) (by omega))
    have htss : ((gdtMemory m).setQuad TableLayout.gdt 5
        ((gdtTss TableLayout.tss sizeofTss).value ||| 2 ^ 41)).word TableLayout.tss i =
        (gdtMemory m).word TableLayout.tss i :=
      Mem.load32_congr fun a ha =>
        sameOff_setQuad (n := 6) (by omega) (by omega) a (hoff a ha)
    rw [htss, gdtMemory, tss_clear]
    by_cases h1 : i = 1
    · rw [h1, Mem.word_setWord_self, if_pos rfl]
    · rw [Mem.word_setWord_ne h1 (by omega) (by omega), if_neg h1]
      by_cases h2 : i = 2
      · rw [h2, Mem.word_setWord_self, if_pos rfl]
      · rw [Mem.word_setWord_ne h2 (by omega) (by omega), if_neg h2]
        exact Mem.load32_zero fun a ha => Mem.write_in (ha.sub (by omega) (by omega))

/-- The processor's view of the task. -/
def taskSegment : Descriptor := ⟨TableLayout.tss, 104, false, 9, 3, true, false⟩

/-- `gdt` has six entries. -/
theorem gdtr_reaches {i : Nat} (hi : i < 6 := by decide) :
    TableRegister.Reaches ⟨48 - 1, TableLayout.gdt⟩ i := by
  show 8 * i + 7 ≤ 47
  omega

theorem loadTask_gdtMemory (m : Mem) :
    loadTask ⟨48 - 1, TableLayout.gdt⟩ 0x2B (gdtMemory m) =
      some (taskSegment, (gdtMemory m).setQuad TableLayout.gdt 5
        ((gdtTss TableLayout.tss sizeofTss).value ||| 2 ^ 41)) := by
  have hindex : selectorIndex 0x2B = 5 := rfl
  have hsegment : TableRegister.segment ⟨48 - 1, TableLayout.gdt⟩ (gdtMemory m) 0x2B =
      some taskSegment := by
    rw [TableRegister.segment_eq hindex (by omega) rfl gdtr_reaches, gdtMemory_task,
      gdtTss_ofBits]
    rfl
  rw [loadTask, hsegment, hindex]
  simp only [gdtMemory_task]
  rfl

@[simp] theorem setGdtEntry_run (i : Nat) (e : GdtEntryBits) (k : Kernel δ) :
    (setGdtEntry i e).run k =
      .ok () { k with mem := k.mem.setQuad TableLayout.gdt i e.value } := rfl

@[simp] theorem writeTss_run (g : Nat) (k : Kernel δ) :
    (writeTss g).run k = .ok () { k with
      mem := ((memorySetLoop TableLayout.tss 0 sizeofTss.toNat (k.mem.setQuad TableLayout.gdt g
        (gdtTss TableLayout.tss sizeofTss).value)).setWord TableLayout.tss 2 0x10).setWord
        TableLayout.tss 1 0 } := by
  have hclear : ∀ k : Kernel δ, (memorySet TableLayout.tss 0 sizeofTss).run k =
      .ok () { k with mem := memorySetLoop TableLayout.tss 0 sizeofTss.toNat k.mem } := fun _ => rfl
  rw [writeTss, Exec.bind_ok (setGdtEntry_run _ _ _), Exec.bind_ok (hclear _)]
  rfl

/-- `setup_gdt` builds its tables, whatever was there, and `ltr` takes the task. -/
theorem setupGdt_run (k : Kernel δ) :
    ∃ k', setupGdt.run k = .ok (⟨48 - 1, TableLayout.gdt⟩, some taskSegment) k' ∧
      HoldsGdt k'.mem 0 ∧ SameOff GdtBytes k.mem k'.mem ∧ k'.dev = k.dev ∧
      k'.kMemoryMap = k.kMemoryMap ∧ k'.cr3 = k.cr3 := by
  have hoff : SameOff GdtBytes k.mem ((gdtMemory k.mem).setQuad TableLayout.gdt 5
      ((gdtTss TableLayout.tss sizeofTss).value ||| 2 ^ 41)) :=
    (gdtMemory_sameOff k.mem).trans
      ((sameOff_setQuad (n := 6) (by omega) (by omega)).mono fun _ => .inl)
  have hrun : ∃ console, setupGdt.run k = (do
      let task ← flushTss ⟨48 - 1, TableLayout.gdt⟩
      kprintStatusOk
      return (⟨48 - 1, TableLayout.gdt⟩, task) : Kern δ _).run
        { k with mem := gdtMemory k.mem, console := console } := by
    simp only [setupGdt, EStateM.run_bind, kprint_run, setGdtEntry_run,
      writeTss_run]
    exact ⟨_, rfl⟩
  obtain ⟨console, hrun⟩ := hrun
  have hflush : (flushTss ⟨48 - 1, TableLayout.gdt⟩).run
      { k with mem := gdtMemory k.mem, console := console } =
      .ok (some taskSegment) { k with
        mem := (gdtMemory k.mem).setQuad TableLayout.gdt 5
          ((gdtTss TableLayout.tss sizeofTss).value ||| 2 ^ 41)
        console := console } := by
    rw [flushTss, Exec.bind_ok (EStateM.run_get _), loadTask_gdtMemory]
    rfl
  rw [hrun, Exec.bind_ok hflush]
  exact ⟨_, rfl, gdtMemory_holds k.mem, hoff, rfl, rfl, rfl⟩

/-- `set_kernel_stack` changes the stack, and nothing else. -/
theorem setKernelStack_run (stack : UInt32) {k : Kernel δ} {old : UInt32}
    (h : HoldsGdt k.mem old) :
    ∃ m, (setKernelStack stack).run k = .ok () { k with mem := m } ∧ HoldsGdt m stack ∧
      SameOff GdtBytes k.mem m := by
  have hoff : SameOff (Span TableLayout.tss (4 * 26)) k.mem
      (k.mem.setWord TableLayout.tss 1 stack) := sameOff_setWord (by omega) (by omega)
  have hquad : ∀ i < 6, (k.mem.setWord TableLayout.tss 1 stack).quad TableLayout.gdt i =
      k.mem.quad TableLayout.gdt i := fun i hi =>
    Mem.load64_congr fun a ha =>
      hoff a (TableLayout.gdt_tss a (ha.sub (by omega) (by omega)))
  refine ⟨_, rfl, ⟨(hquad 1 (by omega)).trans h.code, (hquad 2 (by omega)).trans h.data,
    (hquad 3 (by omega)).trans h.codeUser, (hquad 4 (by omega)).trans h.dataUser,
    (hquad 5 (by omega)).trans h.task, fun i hi => ?_⟩, hoff.mono fun _ => .inr⟩
  by_cases h1 : i = 1
  · rw [h1, Mem.word_setWord_self, if_pos rfl]
  · rw [Mem.word_setWord_ne h1 (by omega) (by omega), h.tss i hi, if_neg h1, if_neg h1]

end

/-! ## `isr_install` -/

/-- A machine whose log is longer by some accesses. -/
def withLog (s : Machine Ata) (es : List PortEvent) : Machine Ata :=
  { s with dev.log := s.dev.log ++ es }

theorem portByteOut_withLog {α : Type} (port : UInt16) (data : UInt8) (f : Unit → Drv α)
    (s : Machine Ata) (es : List PortEvent) :
    (portByteOut port data >>= f).run (withLog s es) =
      (f ()).run (withLog s (es ++ [.outb port data])) := by
  have hlogged : (withLog s es).logged (.outb port data) =
      withLog s (es ++ [.outb port data]) := by
    rw [withLog, withLog, Machine.logged, ← List.append_assoc]
  rw [← hlogged]
  rfl

/-- The words of "Remap the PIC". -/
def remapWords : List PortEvent :=
  [.outb 0x20 0x11, .outb 0xA0 0x11, .outb 0x21 0x20, .outb 0xA1 0x28, .outb 0x21 0x04,
    .outb 0xA1 0x02, .outb 0x21 0x01, .outb 0xA1 0x01, .outb 0x21 0x0, .outb 0xA1 0x0]

theorem remapPic_run (s : Machine Ata) : remapPic.run s = .ok () (withLog s remapWords) := by
  have hstart : s = withLog s [] := by rw [withLog, List.append_nil]
  have hlast : remapPic = remapPic >>= fun _ => pure () := by rw [bind_pure_unit]
  rw [hlast, hstart, remapPic]
  simp only [bind_assoc, portByteOut_withLog]
  rw [← hstart]
  rfl

section

variable [TableLayout]

/-- The gates of the 48 vectors. -/
def HoldsGate (entry : Fin 48 → UInt32) (m : Mem) (n : Fin 48) : Prop :=
  m.quad TableLayout.idt n.val = (idtGate (entry n) (gateFlags n)).value

theorem setIdtGates_run (entry : Fin 48 → UInt32) (ns : List (Fin 48)) (s : Machine Ata) :
    ∃ m, (setIdtGates entry ns).run s = .ok () { s with mem := m } ∧
      SameOff (Span TableLayout.idt 2048) s.mem m ∧
      (∀ n ∈ ns, HoldsGate entry m n) ∧
      ∀ i < 256, (∀ n ∈ ns, n.val ≠ i) →
        m.quad TableLayout.idt i = s.mem.quad TableLayout.idt i := by
  induction ns generalizing s with
  | nil =>
      refine ⟨s.mem, rfl, .refl _, fun n hn => ?_, fun _ _ _ => rfl⟩
      cases hn
  | cons n ns ih =>
      obtain ⟨m, hrun, hoff, hset, hsame⟩ := ih { s with
        mem := s.mem.setQuad TableLayout.idt n.val (idtGate (entry n) (gateFlags n)).value }
      refine ⟨m, ?_, (sameOff_setQuad (n := 256) (by omega) (by omega)).trans hoff,
        fun n' hn' => ?_, fun i hi hne => ?_⟩
      · rw [setIdtGates]
        exact hrun
      · by_cases hmem : n' ∈ ns
        · exact hset n' hmem
        · obtain rfl : n' = n := (List.mem_cons.mp hn').resolve_right hmem
          have hlater : ∀ x ∈ ns, x.val ≠ n'.val := fun x hx heq =>
            hmem (Fin.ext heq ▸ hx)
          rw [HoldsGate, hsame n'.val (by omega) hlater]
          exact Mem.quad_setQuad_self (IdtGate.value_lt _)
      · rw [hsame i hi fun x hx => hne x (List.mem_cons_of_mem n hx)]
        exact Mem.quad_setQuad_ne (fun heq => hne n List.mem_cons_self heq.symm) (by omega)
          (by omega)

theorem installIsrs_run (entry : Fin 48 → UInt32) (s : Machine Ata) :
    ∃ m, (installIsrs entry).run s =
        .ok setIdt (withLog { s with mem := m } remapWords) ∧
      SameOff (Span TableLayout.idt 2048) s.mem m ∧ (∀ n, HoldsGate entry m n) ∧
      ∀ i < 256, 48 ≤ i → m.quad TableLayout.idt i = s.mem.quad TableLayout.idt i := by
  obtain ⟨m₁, hrun₁, hoff₁, hset₁, hsame₁⟩ :=
    setIdtGates_run entry ((List.finRange 48).take 32) s
  obtain ⟨m₂, hrun₂, hoff₂, hset₂, hsame₂⟩ := setIdtGates_run entry
    ((List.finRange 48).drop 32) (withLog { s with mem := m₁ } remapWords)
  have hsides : ∀ n : Fin 48, n ∈ (List.finRange 48).take 32 ∧ n ∉ (List.finRange 48).drop 32 ∨
      n ∈ (List.finRange 48).drop 32 := by decide
  refine ⟨m₂, ?_, hoff₁.trans hoff₂, fun n => ?_, fun i hi hge => ?_⟩
  · rw [installIsrs, Exec.bind_ok hrun₁, Exec.bind_ok (remapPic_run _), Exec.bind_ok hrun₂]
    rfl
  · rcases hsides n with ⟨hlow, hhigh⟩ | hhigh
    · have hkept := hsame₂ n.val (by omega) fun x hx heq => hhigh (Fin.ext heq ▸ hx)
      exact hkept.trans (hset₁ n hlow)
    · exact hset₂ n hhigh
  · rw [hsame₂ i hi fun x _ => by omega]
    exact hsame₁ i hi fun x _ => by omega

end

end Bedrock
