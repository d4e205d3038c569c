import Bedrock.Kernel.Kmalloc

/-!
# `kernel/vm.c`

Two-level paging: a directory of 1024 words, each the physical address of a
table with flags in its low 12 bits, and tables of 1024 words, each the
physical address of a page with flags. An entry that is not there is the word
`0x00000002`. The kernel reads and writes the tables at their kernel
addresses, `0xC0000000` above the physical ones.

`map_page` takes the allocator it calls as an argument, `alloc`; the kernel's
is `kmalloc(1)`.
-/

namespace Bedrock

open Lib

variable {δ : Type}

/-! ## The source -/

def kernelToPhysAddr (address : UInt32) : UInt32 := address - 0xC0000000

def physToKernelAddr (address : UInt32) : UInt32 := address + 0xC0000000

def clearEntries (table : UInt32) : Kern δ Unit :=
  modify fun k => { k with mem := k.mem.fillWords table (fun _ => 2) 1024 }

def identityMapPageTable (pageTable flags : UInt32) : Kern δ Unit :=
  modify fun k =>
    { k with
      mem := k.mem.fillWords pageTable
        (fun i => UInt32.ofNat i * 0x1000 ||| flags) 1024 }

def stripVmFlags (address : UInt32) : UInt32 := address - address % 0x1000

/-- `virtualaddr >> 22` -/
def pdIndex (virtualaddr : UInt32) : Nat := (virtualaddr >>> 22).toNat

/-- `virtualaddr >> 12 & 0x03FF` -/
def ptIndex (virtualaddr : UInt32) : Nat := (virtualaddr >>> 12 &&& 0x03FF).toNat

/-- `table[i] = v` -/
def setEntry (table : UInt32) (i : Nat) (v : UInt32) : Kern δ Unit :=
  modify fun k => { k with mem := k.mem.setWord table i v }

/-- `addr | (flags & 0xFFF) | 0x01` -/
def entryOf (addr flags : UInt32) : UInt32 := addr ||| (flags &&& 0xFFF) ||| 1

def mapPageWith (alloc : Kern δ UInt32)
    (pageDirectory physaddr virtualaddr flags : UInt32) : Kern δ Int32 := do
  let k ← get
  let entry := k.mem.word pageDirectory (pdIndex virtualaddr)
  let pageTablePtr := stripVmFlags (physToKernelAddr entry)
  let pageTable ←
    if entry = 0x00000002 then do
      let pageTablePtr ← alloc
      clearEntries pageTablePtr
      setEntry pageDirectory (pdIndex virtualaddr)
        (entryOf (kernelToPhysAddr pageTablePtr) flags)
      pure pageTablePtr
    else pure pageTablePtr
  let k ← get
  if k.mem.word pageTable (ptIndex virtualaddr) ≠ 0x00000002 then
    return 1
  setEntry pageTable (ptIndex virtualaddr) (entryOf physaddr flags)
  return 0

def mapPage [Layout] : UInt32 → UInt32 → UInt32 → UInt32 → Kern δ Int32 :=
  mapPageWith (kmalloc 1)

def loadPageDirectory (pageDirectory : UInt32) : Kern δ Unit :=
  modify fun k => { k with cr3 := pageDirectory }

/-- `setup_paging`, with its local array at `firstPageTable`. -/
def setupPaging [Layout] (firstPageTable : UInt32) : Kern δ Unit := do
  let kernelPageDirectory := Layout.kernelPageDirectory
  kprint "setting up paging"
  clearEntries firstPageTable
  clearEntries kernelPageDirectory
  identityMapPageTable firstPageTable 3
  setEntry kernelPageDirectory 0 (kernelToPhysAddr firstPageTable ||| 3)
  setEntry kernelPageDirectory 0x300 (kernelToPhysAddr firstPageTable ||| 3)
  loadPageDirectory (kernelToPhysAddr kernelPageDirectory)
  kprint "\n\\ (PD addr.: "
  kprintHex kernelPageDirectory
  kprint ")\n"
  kprint "\\ removing unused page table"
  setEntry kernelPageDirectory 0 0x00000002
  kprintStatusOk

/-! ## The walk -/

/-- The kernel address of the table a directory entry names. -/
def tableOf (entry : UInt32) : UInt32 := stripVmFlags (physToKernelAddr entry)

/-- The present bit of an entry. -/
def Present (entry : UInt32) : Prop := entry &&& 1 ≠ 0

instance {entry : UInt32} : Decidable (Present entry) :=
  inferInstanceAs (Decidable (_ ≠ _))

/-- The two entries the processor goes through to translate an address. -/
def walk (m : Mem) (dir va : UInt32) : Option (UInt32 × UInt32) :=
  let pde := m.word dir (pdIndex va)
  if Present pde then
    let pte := m.word (tableOf pde) (ptIndex va)
    if Present pte then some (pde, pte) else none
  else none

/-- The translation of a page: its frame and its flags. -/
def translate (m : Mem) (dir va : UInt32) : Option (UInt32 × UInt32) :=
  (walk m dir va).map fun e => (stripVmFlags e.2, e.2 &&& 0xFFF)

/-! ## Indices -/

theorem pdIndex_eq (va : UInt32) : pdIndex va = va.toNat / 2 ^ 22 := by
  rw [pdIndex, UInt32.toNat_shiftRight, Nat.shiftRight_eq_div_pow]
  rfl

theorem ptIndex_eq (va : UInt32) : ptIndex va = va.toNat / 2 ^ 12 % 1024 := by
  rw [ptIndex, UInt32.toNat_and, UInt32.toNat_shiftRight,
    Nat.shiftRight_eq_div_pow]
  exact Nat.and_two_pow_sub_one_eq_mod _ 10

theorem pdIndex_lt (va : UInt32) : pdIndex va < 1024 := by
  have := va.toNat_lt
  rw [pdIndex_eq]
  omega

theorem ptIndex_lt (va : UInt32) : ptIndex va < 1024 := by
  rw [ptIndex_eq]
  omega

/-- Two addresses lie in one page when they agree above the low 12 bits. -/
theorem samePage_iff {va wa : UInt32} :
    va >>> 12 = wa >>> 12 ↔ pdIndex va = pdIndex wa ∧ ptIndex va = ptIndex wa := by
  rw [← UInt32.toNat_inj, UInt32.toNat_shiftRight, UInt32.toNat_shiftRight,
    Nat.shiftRight_eq_div_pow, Nat.shiftRight_eq_div_pow, pdIndex_eq,
    pdIndex_eq, ptIndex_eq, ptIndex_eq,
    show (12 : UInt32).toNat % 32 = 12 from rfl]
  omega

/-! ## Entries -/

theorem present_iff {entry : UInt32} : Present entry ↔ entry.toNat % 2 = 1 := by
  have hand : (entry &&& 1).toNat = entry.toNat % 2 := by
    rw [UInt32.toNat_and]
    exact Nat.and_two_pow_sub_one_eq_mod _ 1
  rw [Present, ne_eq, ← UInt32.toNat_inj, hand, show (0 : UInt32).toNat = 0 from rfl]
  omega

/-- The mark for "not there" is not present. -/
theorem not_present_two : ¬ Present 2 := by decide

theorem Present.ne_two {entry : UInt32} (h : Present entry) : entry ≠ 2 := by
  rintro rfl
  exact not_present_two h

/-- The bits of an entry: the address, twelve bits of the flags, the lowest. -/
theorem testBit_entryOf (addr flags : UInt32) (i : Nat) :
    (entryOf addr flags).toNat.testBit i =
      (addr.toNat.testBit i || (decide (i < 12) && flags.toNat.testBit i) ||
        decide (i = 0)) := by
  rw [entryOf, UInt32.toNat_or, UInt32.toNat_or, UInt32.toNat_and,
    Nat.testBit_or, Nat.testBit_or, Nat.testBit_and,
    show (0xFFF : UInt32).toNat = 2 ^ 12 - 1 from rfl, Nat.testBit_two_pow_sub_one,
    show (1 : UInt32).toNat = 2 ^ 0 from rfl, Nat.testBit_two_pow, Bool.and_comm,
    decide_eq_decide.mpr (eq_comm (a := i) (b := 0))]

theorem present_entryOf (addr flags : UInt32) : Present (entryOf addr flags) := by
  have hbit := testBit_entryOf addr flags 0
  rw [Nat.testBit_zero] at hbit
  rw [present_iff]
  simpa using hbit

/-- The twelve flag bits of an entry. -/
theorem flags_lt (flags : UInt32) : ((flags &&& 0xFFF) ||| 1).toNat < 0x1000 := by
  rw [UInt32.toNat_or, UInt32.toNat_and]
  exact Nat.or_lt_two_pow (n := 12) (Nat.and_lt_two_pow _ (by decide)) (by decide)

/-- For a page-aligned address an entry is a sum. -/
theorem toNat_entryOf {addr : UInt32} (h : addr.toNat % 0x1000 = 0)
    (flags : UInt32) :
    (entryOf addr flags).toNat =
      addr.toNat + ((flags &&& 0xFFF) ||| 1).toNat := by
  have hmul : addr.toNat = 2 ^ 12 * (addr.toNat / 0x1000) := by omega
  rw [entryOf, UInt32.or_assoc, UInt32.toNat_or, hmul,
    Nat.two_pow_add_eq_or_of_lt (flags_lt flags)]

theorem toNat_stripVmFlags (a : UInt32) :
    (stripVmFlags a).toNat = a.toNat - a.toNat % 0x1000 := by
  have := a.toNat_lt
  rw [stripVmFlags, UInt32.toNat_sub, UInt32.toNat_mod,
    show (0x1000 : UInt32).toNat = 0x1000 from rfl]
  omega

/-- The frame and the flags of an entry are read back. -/
theorem stripVmFlags_entryOf {addr : UInt32} (h : addr.toNat % 0x1000 = 0)
    (flags : UInt32) : stripVmFlags (entryOf addr flags) = addr := by
  have hf := flags_lt flags
  rw [← UInt32.toNat_inj, toNat_stripVmFlags, toNat_entryOf h]
  omega

theorem flags_entryOf {addr : UInt32} (h : addr.toNat % 0x1000 = 0)
    (flags : UInt32) :
    entryOf addr flags &&& 0xFFF = (flags &&& 0xFFF) ||| 1 := by
  have hf := flags_lt flags
  rw [← UInt32.toNat_inj, UInt32.toNat_and, toNat_entryOf h,
    show (0xFFF : UInt32).toNat = 2 ^ 12 - 1 from rfl,
    Nat.and_two_pow_sub_one_eq_mod]
  omega

theorem kernelToPhysAddr_aligned {address : UInt32}
    (h : address.toNat % 0x1000 = 0) :
    (kernelToPhysAddr address).toNat % 0x1000 = 0 := by
  have hbase : (0xC0000000 : UInt32).toNat = 0xC0000000 := rfl
  rw [kernelToPhysAddr, UInt32.toNat_sub, hbase]
  omega

/-- A directory entry leads back to the table it was made for. -/
theorem tableOf_entryOf {table : UInt32} (h : table.toNat % 0x1000 = 0)
    (flags : UInt32) :
    tableOf (entryOf (kernelToPhysAddr table) flags) = table := by
  have hf := flags_lt flags
  have ht := table.toNat_lt
  have hbase : (0xC0000000 : UInt32).toNat = 0xC0000000 := rfl
  have hphys := kernelToPhysAddr_aligned h
  rw [tableOf, ← UInt32.toNat_inj, toNat_stripVmFlags, physToKernelAddr,
    UInt32.toNat_add, toNat_entryOf hphys, kernelToPhysAddr, UInt32.toNat_sub,
    hbase]
  omega

/-! ## `map_page` by its cases -/

section

variable {alloc : Kern δ UInt32} {dir phys va flags p : UInt32}
  {k k₁ : Kernel δ}

/-- The page is mapped already. -/
theorem mapPage_mapped (hpde : k.mem.word dir (pdIndex va) ≠ 2)
    (hpte : k.mem.word (tableOf (k.mem.word dir (pdIndex va))) (ptIndex va) ≠ 2) :
    (mapPageWith alloc dir phys va flags).run k = .ok 1 k := by
  rw [mapPageWith, Exec.bind_ok (EStateM.run_get k)]
  simp only [if_neg hpde, pure_bind]
  rw [Exec.bind_ok (EStateM.run_get k)]
  simp only [tableOf] at hpte
  simp only [if_pos hpte]
  rfl

/-- The region has a table and the page is not in it. -/
theorem mapPage_table (hpde : k.mem.word dir (pdIndex va) ≠ 2)
    (hpte : k.mem.word (tableOf (k.mem.word dir (pdIndex va))) (ptIndex va) = 2) :
    (mapPageWith alloc dir phys va flags).run k =
      .ok 0 { k with
        mem := k.mem.setWord (tableOf (k.mem.word dir (pdIndex va))) (ptIndex va)
          (entryOf phys flags) } := by
  rw [mapPageWith, Exec.bind_ok (EStateM.run_get k)]
  simp only [if_neg hpde, pure_bind]
  rw [Exec.bind_ok (EStateM.run_get k)]
  simp only [tableOf] at hpte
  simp only [hpte, ne_eq, not_true_eq_false, if_false]
  rfl

/-- The memory with a new table at `p` entered in the directory. -/
def withTable (m : Mem) (dir p : UInt32) (i : Nat) (flags : UInt32) : Mem :=
  (m.fillWords p (fun _ => 2) 1024).setWord dir i
    (entryOf (kernelToPhysAddr p) flags)

/-- The region has no table: what is left to do once one is allocated. -/
theorem mapPage_new (hpde : k.mem.word dir (pdIndex va) = 2)
    (halloc : alloc.run k = .ok p k₁) :
    (mapPageWith alloc dir phys va flags).run k =
      if (withTable k₁.mem dir p (pdIndex va) flags).word p (ptIndex va) ≠ 2 then
        .ok 1 { k₁ with mem := withTable k₁.mem dir p (pdIndex va) flags }
      else
        .ok 0 { k₁ with
          mem := (withTable k₁.mem dir p (pdIndex va) flags).setWord p
            (ptIndex va) (entryOf phys flags) } := by
  rw [mapPageWith, Exec.bind_ok (EStateM.run_get k)]
  simp only [hpde, if_true]
  rw [Exec.bind_ok halloc]
  simp only [clearEntries, setEntry, EStateM.run_bind, EStateM.run_modify,
    EStateM.run_get, EStateM.run_pure, withTable]
  by_cases h : ((k₁.mem.fillWords p (fun _ => 2) 1024).setWord dir (pdIndex va)
      (entryOf (kernelToPhysAddr p) flags)).word p (ptIndex va) = 2
  · simp only [h, ne_eq, not_true_eq_false, if_false]
    rfl
  · simp only [h, ne_eq, not_false_eq_true, if_true]
    rfl

theorem mapPage_stops {e : Halt} (hpde : k.mem.word dir (pdIndex va) = 2)
    (halloc : alloc.run k = .error e k₁) :
    (mapPageWith alloc dir phys va flags).run k = .error e k₁ := by
  rw [mapPageWith, Exec.bind_ok (EStateM.run_get k)]
  simp only [hpde, if_true]
  rw [Exec.bind_error halloc]

/-- A new table that does not lie in the directory is empty. -/
theorem withTable_word {m : Mem} {i j : Nat} (hi : i < 1024) (hj : j < 1024)
    (hoff : ∀ a, Span p 0x1000 a → ¬ Span dir 0x1000 a) :
    (withTable m dir p i flags).word p j = 2 := by
  rw [withTable, (sameOff_setWord hi (by omega)).word hj (by omega) hoff,
    Mem.word_fillWords hj (by omega)]

theorem mapPage_new_ok (hpde : k.mem.word dir (pdIndex va) = 2)
    (halloc : alloc.run k = .ok p k₁)
    (hoff : ∀ a, Span p 0x1000 a → ¬ Span dir 0x1000 a) :
    (mapPageWith alloc dir phys va flags).run k =
      .ok 0 { k₁ with
        mem := (withTable k₁.mem dir p (pdIndex va) flags).setWord p
          (ptIndex va) (entryOf phys flags) } :=
  (mapPage_new hpde halloc).trans
    (if_neg (not_not_intro (withTable_word (pdIndex_lt va) (ptIndex_lt va) hoff)))

/-- The directory entry of the new table, once a page is entered in it. -/
theorem withTable_entry {m : Mem} {i j : Nat} {e : UInt32} (hi : i < 1024)
    (hj : j < 1024) (hoff : ∀ a, Span p 0x1000 a → ¬ Span dir 0x1000 a) :
    ((withTable m dir p i flags).setWord p j e).word dir i =
      entryOf (kernelToPhysAddr p) flags := by
  have hdir : ∀ a, Span dir 0x1000 a → ¬ Span p 0x1000 a :=
    fun a ha hp => hoff a hp ha
  rw [(sameOff_setWord hj (by omega)).word hi (by omega) hdir, withTable,
    Mem.word_setWord_self]

/-- The other directory entries stay. -/
theorem withTable_other {m : Mem} {i i' j : Nat} {e : UInt32} (hi : i < 1024)
    (hi' : i' < 1024) (hj : j < 1024) (hne : i' ≠ i)
    (hoff : ∀ a, Span p 0x1000 a → ¬ Span dir 0x1000 a) :
    ((withTable m dir p i flags).setWord p j e).word dir i' = m.word dir i' := by
  have hdir : ∀ a, Span dir 0x1000 a → ¬ Span p 0x1000 a :=
    fun a ha hp => hoff a hp ha
  rw [(sameOff_setWord hj (by omega)).word hi' (by omega) hdir, withTable,
    Mem.word_setWord_ne hne (by omega) (by omega),
    (sameOff_fillWords (n := 1024) (by omega)).word hi' (by omega) hdir]

/-- Nothing is written but the directory and the new table. -/
theorem sameOff_withTable {m : Mem} {i j : Nat} {e : UInt32} (hi : i < 1024)
    (hj : j < 1024) :
    SameOff (fun a => Span p 0x1000 a ∨ Span dir 0x1000 a) m
      ((withTable m dir p i flags).setWord p j e) := by
  have hfill : SameOff (Span p 0x1000) m (m.fillWords p (fun _ => 2) 1024) :=
    sameOff_fillWords (n := 1024) (by omega)
  have hentry : SameOff (Span dir 0x1000) (m.fillWords p (fun _ => 2) 1024)
      (withTable m dir p i flags) := sameOff_setWord hi (by omega)
  have hpage : SameOff (Span p 0x1000) (withTable m dir p i flags)
      ((withTable m dir p i flags).setWord p j e) := sameOff_setWord hj (by omega)
  exact ((hfill.mono fun _ => .inl).trans (hentry.mono fun _ => .inr)).trans
    (hpage.mono fun _ => .inl)

/-- Where the region has a table the allocator is not called. -/
theorem mapPage_kMemoryMap {k' : Kernel δ} {r : Int32}
    (hpde : k.mem.word dir (pdIndex va) ≠ 2)
    (h : (mapPageWith alloc dir phys va flags).run k = .ok r k') :
    k'.kMemoryMap = k.kMemoryMap := by
  by_cases hpte :
      k.mem.word (tableOf (k.mem.word dir (pdIndex va))) (ptIndex va) = 2
  · rw [mapPage_table hpde hpte] at h
    injection h with _ hk
    rw [← hk]
  · rw [mapPage_mapped hpde hpte] at h
    injection h with _ hk
    rw [← hk]

end

end Bedrock
