import Bedrock.Proofs.PageMap

/-!
# The kernel half after `setup_paging`

`setup_paging` enters a table in the directory that is a local array of its
own: once it has returned, the table lies in stack memory that every later
call of `kernel_main` may use for its frames. This file follows the machine
from there on, through frame writes anywhere below `kernel_main`'s frame and
any calls of `map_page`, `kmalloc` and `kfree`.

The allocator and `map_page` never touch that table. A frame write keeps the
translation of the kernel half exactly when it is harmless, that is when the
byte it writes has the present and frame bits of the one it replaces
(`frameWrite_iff`); a run of harmless writes keeps it throughout
(`kernelHalf_run`).
-/

namespace Bedrock

open Lib

variable {δ : Type}

/-! ## The boot directory

`kernel_entry.asm` builds its tables with paging off, at physical addresses;
here they stand at their kernel addresses. -/

/-- `PAGE_DIR_ADDRESS` -/
def pageDirAddress : UInt32 := 0x80000

/-- `PAGE_TABLE_ADDRESS` -/
def pageTableAddress : UInt32 := pageDirAddress + 0x1000

def identityMapFirstMb (m : Mem) : Mem :=
  m.fillWords (physToKernelAddr pageTableAddress)
    (fun i => UInt32.ofNat i * 0x1000 + 3) 1024

def register1mbPageTable (m : Mem) : Mem :=
  (m.setWord (physToKernelAddr pageDirAddress) 0 (pageTableAddress + 3)).setWord
    (physToKernelAddr pageDirAddress) 0x300 (pageTableAddress + 3)

/-- The memory after `enable_VM`. -/
def bootMemory (m : Mem) : Mem := register1mbPageTable (identityMapFirstMb m)

/-! ## Physical addresses -/

/-- The physical address a virtual one is translated to. -/
def physical (m : Mem) (dir va : UInt32) : Option UInt32 :=
  (walk m dir va).map fun e => stripVmFlags e.2 + va % 0x1000

/-- The entry maps page `i` of the low 4 MiB. -/
def Maps (entry : UInt32) (i : Nat) : Prop :=
  Present entry ∧ stripVmFlags entry = UInt32.ofNat i * 0x1000

/-- Every address of the kernel half's first 4 MiB translates to its distance
from the start. -/
def KernelHalf (m : Mem) (dir : UInt32) : Prop :=
  ∀ va : UInt32, 0xC0000000 ≤ va.toNat → va.toNat < 0xC0400000 →
    physical m dir va = some (va - 0xC0000000)

theorem page_aligned (i : Nat) : (UInt32.ofNat i * 0x1000).toNat % 0x1000 = 0 := by
  rw [UInt32.toNat_mul, UInt32.toNat_ofNat',
    show (0x1000 : UInt32).toNat = 0x1000 from rfl]
  omega

/-- The entry `setup_paging` makes for page `i`. -/
theorem maps_identity (i : Nat) : Maps (UInt32.ofNat i * 0x1000 ||| 3) i := by
  have heq : UInt32.ofNat i * 0x1000 ||| 3 = entryOf (UInt32.ofNat i * 0x1000) 3 := by
    rw [entryOf, UInt32.or_assoc]
    rfl
  rw [heq]
  exact ⟨present_entryOf _ _, stripVmFlags_entryOf (page_aligned i) 3⟩

/-- The entry the boot code makes for it is the same. -/
theorem boot_entry (i : Nat) :
    UInt32.ofNat i * 0x1000 + 3 = UInt32.ofNat i * 0x1000 ||| 3 := by
  have haligned := page_aligned i
  have hmul : (UInt32.ofNat i * 0x1000).toNat =
      2 ^ 12 * ((UInt32.ofNat i * 0x1000).toNat / 0x1000) := by omega
  have hlt := (UInt32.ofNat i * 0x1000).toNat_lt
  rw [← UInt32.toNat_inj, UInt32.toNat_or, UInt32.toNat_add, hmul,
    ← Nat.two_pow_add_eq_or_of_lt (show (3 : UInt32).toNat < 2 ^ 12 by decide),
    show (3 : UInt32).toNat = 3 from rfl]
  omega

/-- The walk of an address of the kernel half, once its region has a table. -/
theorem physical_kernelHalf {m : Mem} {dir table va : UInt32}
    (hdir : Present (m.word dir 0x300))
    (htable : tableOf (m.word dir 0x300) = table)
    (hlo : 0xC0000000 ≤ va.toNat) (hhi : va.toNat < 0xC0400000) :
    physical m dir va =
      if Present (m.word table (ptIndex va)) then
        some (stripVmFlags (m.word table (ptIndex va)) + va % 0x1000)
      else none := by
  have hregion : pdIndex va = 0x300 := by
    rw [pdIndex_eq]
    omega
  rw [physical, walk]
  simp only [hregion, htable, if_pos hdir]
  split
  · rfl
  · rfl

/-- The kernel half is in order when its table is. -/
theorem kernelHalf_iff {m : Mem} {dir table : UInt32}
    (hdir : Present (m.word dir 0x300))
    (htable : tableOf (m.word dir 0x300) = table) :
    KernelHalf m dir ↔ ∀ i : Fin 1024, Maps (m.word table i) i := by
  have hmod : ∀ va : UInt32, (va % 0x1000).toNat = va.toNat % 0x1000 :=
    fun va => UInt32.toNat_mod va 0x1000
  have hpage : ∀ i : Nat, i < 1024 →
      (UInt32.ofNat i * 0x1000).toNat = i * 0x1000 := by
    intro i hi
    rw [UInt32.toNat_mul, UInt32.toNat_ofNat',
      show (0x1000 : UInt32).toNat = 0x1000 from rfl]
    omega
  constructor
  · intro h i
    -- the first address of page `i`
    have hi := hpage i i.isLt
    have hva : (0xC0000000 + UInt32.ofNat i * 0x1000).toNat =
        0xC0000000 + i * 0x1000 := by
      rw [UInt32.toNat_add, hi, show (0xC0000000 : UInt32).toNat = 0xC0000000 from rfl]
      omega
    have hidx : ptIndex (0xC0000000 + UInt32.ofNat i * 0x1000) = i := by
      rw [ptIndex_eq, hva]
      omega
    have hphys := h (0xC0000000 + UInt32.ofNat i * 0x1000) (by omega) (by omega)
    have hoff : (0xC0000000 + UInt32.ofNat i * 0x1000) % 0x1000 = 0 := by
      rw [← UInt32.toNat_inj, hmod, hva, show (0 : UInt32).toNat = 0 from rfl]
      omega
    rw [physical_kernelHalf hdir htable (by omega) (by omega), hidx, hoff,
      UInt32.add_zero, UInt32.add_comm, UInt32.add_sub_cancel] at hphys
    split at hphys
    · exact ⟨‹_›, Option.some.inj hphys⟩
    · cases hphys
  · intro h va hlo hhi
    obtain ⟨hpres, hframe⟩ := h ⟨ptIndex va, ptIndex_lt va⟩
    rw [physical_kernelHalf hdir htable hlo hhi, if_pos hpres, hframe]
    refine congrArg some ?_
    rw [← UInt32.toNat_inj, UInt32.toNat_add, hpage _ (ptIndex_lt va), hmod,
      UInt32.toNat_sub, ptIndex_eq,
      show (0xC0000000 : UInt32).toNat = 0xC0000000 from rfl]
    omega

/-- The boot directory translates the kernel half. -/
theorem kernelHalf_bootMemory (m : Mem) :
    KernelHalf (bootMemory m) (physToKernelAddr pageDirAddress) := by
  have hword : (bootMemory m).word (physToKernelAddr pageDirAddress) 0x300 =
      0x81003 := Mem.word_setWord_self
  have hoff : SameOff (Span (physToKernelAddr pageDirAddress) 0x1000)
      (identityMapFirstMb m) (bootMemory m) :=
    (sameOff_setWord (n := 1024) (by omega) (by omega)).trans
      (sameOff_setWord (n := 1024) (by omega) (by omega))
  have hapart : ∀ a, Span (physToKernelAddr pageTableAddress) 0x1000 a →
      ¬ Span (physToKernelAddr pageDirAddress) 0x1000 a := by
    intro a ha hd
    rw [span_iff (by decide)] at ha hd
    have h₁ : (physToKernelAddr pageTableAddress).toNat = 0xC0081000 := rfl
    have h₂ : (physToKernelAddr pageDirAddress).toNat = 0xC0080000 := rfl
    omega
  rw [kernelHalf_iff (by rw [hword]; decide)
    (show tableOf _ = physToKernelAddr pageTableAddress by rw [hword]; decide)]
  intro i
  rw [hoff.word i.isLt (by omega) hapart, identityMapFirstMb,
    Mem.word_fillWords i.isLt (by omega), boot_entry]
  exact maps_identity i

/-! ## The stack and the steps -/

/-- The stack below `kernel_main`'s frame, which starts at `top`, and the place
of `setup_paging`'s local table in it. -/
structure BootStack [Layout] where
  bottom : UInt32
  top : UInt32
  firstPageTable : UInt32
  aligned : firstPageTable.toNat % 0x1000 = 0
  below_table : bottom.toNat ≤ firstPageTable.toNat
  above_table : firstPageTable.toNat + 0x1000 ≤ top.toNat
  off_directory : top.toNat ≤ Layout.kernelPageDirectory.toNat ∨
    Layout.kernelPageDirectory.toNat + 0x1000 ≤ bottom.toNat
  off_kmallocMemory : top.toNat ≤ Layout.kmallocMemory.toNat ∨
    Layout.kmallocMemory.toNat + 4 * (0x1000 * (kMemoryMapEntries + 10)) ≤
      bottom.toNat

inductive KernelOp where
  /-- A later call writes a byte of its stack frame. -/
  | frameWrite (address : UInt32) (value : UInt8)
  | mapPage (physaddr virtualaddr flags : UInt32) (result : Int32)
  | kmalloc (blockCount address : UInt32)
  | kfree (address blockCount : UInt32)

section

variable [Layout]

inductive KernelStep (st : BootStack) : Kernel δ → KernelOp → Kernel δ → Prop
  | frameWrite {k : Kernel δ} {a : UInt32} {v : UInt8} :
      st.bottom.toNat ≤ a.toNat → a.toNat < st.top.toNat →
      KernelStep st k (.frameWrite a v) { k with mem := k.mem.write a 1 fun _ => v }
  | mapPage {k k' : Kernel δ} {phys va flags : UInt32} {r : Int32} :
      (mapPage Layout.kernelPageDirectory phys va flags).run k = .ok r k' →
      KernelStep st k (.mapPage phys va flags r) k'
  | kmalloc {k k' : Kernel δ} {n p : UInt32} : (kmalloc n).run k = .ok p k' →
      KernelStep st k (.kmalloc n p) k'
  | kfree {k k' : Kernel δ} {a n : UInt32} : (kfree a n).run k = .ok () k' →
      KernelStep st k (.kfree a n) k'

/-- The bits of byte `i` of an entry that are the present bit or the frame. -/
def SameBits (i : Nat) (v old : UInt8) : Prop :=
  match i with
  | 0 => v.toNat % 2 = old.toNat % 2
  | 1 => v.toNat / 16 = old.toNat / 16
  | _ => v = old

/-- A frame write outside the popped table, or one that leaves the present bit
and the frame of the entry it hits as they are. -/
def Harmless (st : BootStack) (m : Mem) (a : UInt32) (v : UInt8) : Prop :=
  Span st.firstPageTable 0x1000 a →
    SameBits ((a - st.firstPageTable).toNat % 4) v (m a)

def FrameGuard (st : BootStack) (k : Kernel δ) : KernelOp → Prop
  | .frameWrite a v => Harmless st k.mem a v
  | _ => True

/-- The directory and the popped table are as `setup_paging` left them, and
every other table lies in the allocator's memory. -/
structure Intact (st : BootStack) (m : Mem) : Prop where
  directory : m.word Layout.kernelPageDirectory 0x300 =
    entryOf (kernelToPhysAddr st.firstPageTable) 3
  others : ∀ i : Fin 1024, (i : Nat) ≠ 0x300 →
    m.word Layout.kernelPageDirectory i ≠ 2 → ∃ b, b < kMemoryMapEntries ∧
      tableOf (m.word Layout.kernelPageDirectory i) = blockAddr b
  entries : ∀ i : Fin 1024, Maps (m.word st.firstPageTable i) i

/-! ## What the places have to do with each other -/

variable {st : BootStack} {m m' : Mem} {k k' : Kernel δ}

theorem BootStack.table_off_directory (st : BootStack) {a : UInt32}
    (h : Span st.firstPageTable 0x1000 a) :
    ¬ Span Layout.kernelPageDirectory 0x1000 a := by
  have hdir := Layout.kernelPageDirectory_fits
  have htop := st.top.toNat_lt
  have h₁ := st.below_table
  have h₂ := st.above_table
  have h₃ := st.off_directory
  rw [span_iff (by omega)] at h ⊢
  omega

theorem BootStack.block_off_table (st : BootStack) {b : Nat} {a : UInt32}
    (hb : b < kMemoryMapEntries) (h : Span (blockAddr b) 0x1000 a) :
    ¬ Span st.firstPageTable 0x1000 a := by
  have hbase := toNat_blockAddr (Nat.le_of_lt hb)
  have hfits := Layout.kmallocMemory_fits
  have htop := st.top.toNat_lt
  have h₁ := st.below_table
  have h₂ := st.above_table
  have h₃ := st.off_kmallocMemory
  simp only [kMemoryMapEntries] at hb hfits h₃
  rw [span_iff (by omega)] at h ⊢
  omega

theorem BootStack.frame_off_directory (st : BootStack) {a : UInt32}
    (hlo : st.bottom.toNat ≤ a.toNat) (hhi : a.toNat < st.top.toNat) :
    ¬ Span Layout.kernelPageDirectory 0x1000 a := by
  have hdir := Layout.kernelPageDirectory_fits
  have h₃ := st.off_directory
  rw [span_iff (by omega)]
  omega

/-- A change elsewhere keeps everything in order. -/
theorem Intact.sameOff {W : UInt32 → Prop} (hi : Intact st m)
    (h : SameOff W m m')
    (hdir : ∀ a, Span Layout.kernelPageDirectory 0x1000 a → ¬ W a)
    (htable : ∀ a, Span st.firstPageTable 0x1000 a → ¬ W a) : Intact st m' := by
  have hword : ∀ i : Fin 1024, m'.word Layout.kernelPageDirectory i =
      m.word Layout.kernelPageDirectory i :=
    fun i => h.word i.isLt (by omega) hdir
  refine ⟨(hword 0x300).trans hi.directory, ?_, ?_⟩
  · intro i hne h2
    rw [hword] at h2 ⊢
    exact hi.others i hne h2
  · intro i
    rw [h.word i.isLt (by omega) htable]
    exact hi.entries i

/-- In order, the kernel half translates. -/
theorem Intact.kernelHalf (hi : Intact st m) :
    KernelHalf m Layout.kernelPageDirectory := by
  refine (kernelHalf_iff ?_ ?_).mpr hi.entries
  · rw [hi.directory]
    exact present_entryOf _ _
  · rw [hi.directory, tableOf_entryOf st.aligned]

/-! ## The allocator and `map_page` -/

theorem Intact.kmalloc {n p : UInt32} (hi : Intact st k.mem)
    (h : (kmalloc n).run k = .ok p k') : Intact st k'.mem := by
  obtain ⟨b, hb, hsame⟩ := kmalloc_sameOff h
  exact hi.sameOff hsame (fun a ha hblock => block_off_directory hb hblock ha)
    fun a ha hblock => st.block_off_table hb hblock ha

/-- In the kernel's own region every page is mapped, so nothing changes. -/
theorem Intact.mapPage_kernel {phys va flags : UInt32} {r : Int32}
    (hi : Intact st k.mem) (hva : pdIndex va = 0x300)
    (h : (mapPage Layout.kernelPageDirectory phys va flags).run k = .ok r k') :
    k' = k := by
  have hpde := hi.directory
  have htable : tableOf (k.mem.word Layout.kernelPageDirectory 0x300) =
      st.firstPageTable := by rw [hpde, tableOf_entryOf st.aligned]
  have hpte := (hi.entries ⟨ptIndex va, ptIndex_lt va⟩).1.ne_two
  rw [mapPage, mapPage_mapped] at h
  · injection h with _ hk
    exact hk.symm
  · rw [hva, hpde]
    exact (present_entryOf _ _).ne_two
  · rw [hva, htable]
    exact hpte

/-- Elsewhere a new table is a page of the allocator, -/
theorem Intact.mapPage_new {phys va flags : UInt32} {r : Int32}
    (hi : Intact st k.mem) (hva : pdIndex va ≠ 0x300)
    (hpde : k.mem.word Layout.kernelPageDirectory (pdIndex va) = 2)
    (h : (mapPage Layout.kernelPageDirectory phys va flags).run k = .ok r k') :
    Intact st k'.mem := by
  rcases Nat.eq_zero_or_pos (freeCount k.kMemoryMap) with hnone | hfree
  · obtain ⟨k₁, hk₁, -⟩ := kmalloc_exit (k := k) (n := 1) (by decide)
      (by rw [hnone]; decide)
    rw [mapPage, mapPage_stops hpde hk₁] at h
    cases h
  · have hlt := firstFree_lt hfree
    have hkmalloc := kmalloc_ok (k := k) (n := 1) (by decide) hfree
    have hi₁ := hi.kmalloc hkmalloc
    have hoff : ∀ a, Span (blockAddr (firstFree k.kMemoryMap)) 0x1000 a →
        ¬ Span Layout.kernelPageDirectory 0x1000 a := fun a => block_off_directory hlt
    rw [mapPage, mapPage_new_ok hpde hkmalloc hoff] at h
    injection h with _ hk
    rw [← hk]
    refine ⟨?_, fun i hne h2 => ?_, fun i => ?_⟩
    · exact (withTable_other (pdIndex_lt va) (by omega) (ptIndex_lt va) hva.symm
        hoff).trans hi₁.directory
    · by_cases hiv : (i : Nat) = pdIndex va
      · refine ⟨_, hlt, ?_⟩
        rw [hiv, withTable_entry (pdIndex_lt va) (ptIndex_lt va) hoff,
          tableOf_entryOf (blockAddr_aligned hlt).1]
      · rw [withTable_other (pdIndex_lt va) i.isLt (ptIndex_lt va) hiv hoff] at h2 ⊢
        exact hi₁.others i hne h2
    · rw [(sameOff_withTable (pdIndex_lt va) (ptIndex_lt va)).word i.isLt
        (by omega) fun a ha h => h.elim
          (fun hblock => st.block_off_table hlt hblock ha)
          (st.table_off_directory ha)]
      exact hi₁.entries i

/-- and a table that is there already is one too. -/
theorem Intact.mapPage_old {phys va flags : UInt32} {r : Int32}
    (hi : Intact st k.mem) (hva : pdIndex va ≠ 0x300)
    (hpde : k.mem.word Layout.kernelPageDirectory (pdIndex va) ≠ 2)
    (h : (mapPage Layout.kernelPageDirectory phys va flags).run k = .ok r k') :
    Intact st k'.mem := by
  obtain ⟨b, hb, htable⟩ := hi.others (regionKey va) hva hpde
  by_cases hpte : k.mem.word (tableOf (k.mem.word Layout.kernelPageDirectory
      (pdIndex va))) (ptIndex va) = 2
  · rw [mapPage, mapPage_table hpde hpte] at h
    injection h with _ hk
    rw [← hk]
    have hsame : SameOff (Span (blockAddr b) 0x1000) k.mem
        (k.mem.setWord (tableOf (k.mem.word Layout.kernelPageDirectory
          (pdIndex va))) (ptIndex va) (entryOf phys flags)) :=
      htable ▸ sameOff_setWord (ptIndex_lt va) (by omega)
    exact hi.sameOff hsame (fun a ha hblock => block_off_directory hb hblock ha)
      fun a ha hblock => st.block_off_table hb hblock ha
  · rw [mapPage, mapPage_mapped hpde hpte] at h
    injection h with _ hk
    rw [← hk]
    exact hi

end

/-! ## A byte of an entry -/

theorem maps_iff {entry : UInt32} {i : Nat} (hi : i < 1024) :
    Maps entry i ↔ entry.toNat % 2 = 1 ∧ entry.toNat / 0x1000 = i := by
  rw [Maps, present_iff, ← UInt32.toNat_inj, toNat_stripVmFlags,
    UInt32.toNat_mul, UInt32.toNat_ofNat',
    show (0x1000 : UInt32).toNat = 0x1000 from rfl]
  omega

/-- The present bit and the frame of an entry, from its bytes. -/
theorem entry_bits (m : Mem) (p : UInt32) :
    (m.load32 p).toNat % 2 = (m p).toNat % 2 ∧
      (m.load32 p).toNat / 0x1000 = (m (p + 1)).toNat / 16 +
        16 * (m (p + 2)).toNat + 0x1000 * (m (p + 3)).toNat := by
  have h0 := (m p).toNat_lt
  have h1 := (m (p + 1)).toNat_lt
  have h2 := (m (p + 2)).toNat_lt
  have h3 := (m (p + 3)).toNat_lt
  rw [Mem.load32, UInt32.toNat_ofNat']
  omega

/-- Replacing byte `c` of an entry that maps its page. -/
theorem maps_byte_iff {m m' : Mem} {p : UInt32} {v : UInt8} {c i : Nat}
    (hc : c < 4) (hi : i < 1024) (h : Maps (m.load32 p) i)
    (hself : m' (p + UInt32.ofNat c) = v)
    (hother : ∀ d < 4, d ≠ c → m' (p + UInt32.ofNat d) = m (p + UInt32.ofNat d)) :
    Maps (m'.load32 p) i ↔ SameBits c v (m (p + UInt32.ofNat c)) := by
  obtain ⟨hbit, hframe⟩ := entry_bits m p
  obtain ⟨hbit', hframe'⟩ := entry_bits m' p
  rw [maps_iff hi] at h ⊢
  have hzero : p + UInt32.ofNat 0 = p := UInt32.add_zero p
  have h0 : 0 ≠ c → m' p = m p := fun hne => hzero ▸ hother 0 (by omega) hne
  have h1 : 1 ≠ c → m' (p + 1) = m (p + 1) := hother 1 (by omega)
  have h2 : 2 ≠ c → m' (p + 2) = m (p + 2) := hother 2 (by omega)
  have h3 : 3 ≠ c → m' (p + 3) = m (p + 3) := hother 3 (by omega)
  have hcases : c = 0 ∨ c = 1 ∨ c = 2 ∨ c = 3 := by omega
  rcases hcases with rfl | rfl | rfl | rfl
  · rw [hzero] at hself ⊢
    rw [hself] at hbit'
    rw [h1 (by omega), h2 (by omega), h3 (by omega)] at hframe'
    simp only [SameBits]
    omega
  · have hs : m' (p + 1) = v := hself
    rw [h0 (by omega)] at hbit'
    rw [hs, h2 (by omega), h3 (by omega)] at hframe'
    show _ ↔ v.toNat / 16 = (m (p + 1)).toNat / 16
    omega
  · have hs : m' (p + 2) = v := hself
    rw [h0 (by omega)] at hbit'
    rw [h1 (by omega), hs, h3 (by omega)] at hframe'
    show _ ↔ v = m (p + 2)
    rw [← UInt8.toNat_inj]
    omega
  · have hs : m' (p + 3) = v := hself
    rw [h0 (by omega)] at hbit'
    rw [h1 (by omega), h2 (by omega), hs] at hframe'
    show _ ↔ v = m (p + 3)
    rw [← UInt8.toNat_inj]
    omega

/-! ## Frame writes -/

section

variable [Layout] {st : BootStack} {k k' : Kernel δ}

/-- A frame write reaches no directory entry. -/
theorem word_frameWrite {m : Mem} {a : UInt32} {v : UInt8}
    (hlo : st.bottom.toNat ≤ a.toNat) (hhi : a.toNat < st.top.toNat)
    (i : Fin 1024) :
    (m.write a 1 fun _ => v).word Layout.kernelPageDirectory i =
      m.word Layout.kernelPageDirectory i :=
  sameOff_write.word i.isLt (by omega) fun _ hx hxa =>
    st.frame_off_directory hlo hhi (span_one.mp hxa ▸ hx)

/-- A frame write outside the popped table changes no entry of it. -/
theorem maps_frameWrite_off {m : Mem} {a : UInt32} {v : UInt8}
    (hi : Intact st m) (ha : ¬ Span st.firstPageTable 0x1000 a) (i : Fin 1024) :
    Maps ((m.write a 1 fun _ => v).word st.firstPageTable i) i := by
  have hoff : ∀ x, Span st.firstPageTable 0x1000 x → ¬ Span a 1 x := by
    intro x hx hxa
    rw [span_one.mp hxa] at hx
    exact ha hx
  rw [sameOff_write.word i.isLt (by omega) hoff]
  exact hi.entries i

/-- One inside it changes one entry, by one byte. -/
theorem maps_frameWrite_iff {m : Mem} {a : UInt32} {v : UInt8}
    (hi : Intact st m) (ha : Span st.firstPageTable 0x1000 a) :
    (∀ i : Fin 1024, Maps ((m.write a 1 fun _ => v).word st.firstPageTable i) i) ↔
      SameBits ((a - st.firstPageTable).toNat % 4) v (m a) := by
  obtain ⟨j, hj, rfl⟩ := ha.exists_offset
  rw [toNat_sub_add_ofNat (by omega)]
  have haddr : st.firstPageTable + UInt32.ofNat j =
      st.firstPageTable + UInt32.ofNat (4 * (j / 4)) + UInt32.ofNat (j % 4) := by
    rw [UInt32.add_assoc, ← UInt32.ofNat_add, Nat.div_add_mod]
  have hentry : Maps ((m.write (st.firstPageTable + UInt32.ofNat j) 1
      fun _ => v).word st.firstPageTable (j / 4)) (j / 4) ↔
      SameBits (j % 4) v (m (st.firstPageTable + UInt32.ofNat j)) := by
    rw [haddr]
    refine maps_byte_iff (by omega) (by omega) (hi.entries ⟨j / 4, by omega⟩)
      (Mem.write_in (span_self (by omega))) fun d hd hne => Mem.write_off ?_
    intro hspan
    have heq := congrArg UInt32.toNat
      ((UInt32.add_right_inj _).mp (span_one.mp hspan))
    rw [UInt32.toNat_ofNat', UInt32.toNat_ofNat'] at heq
    omega
  rw [← hentry]
  refine ⟨fun h => h ⟨j / 4, by omega⟩, fun h i => ?_⟩
  by_cases hij : (i : Nat) = j / 4
  · rw [hij]
    exact h
  · have hoff : ∀ x, Span (st.firstPageTable + UInt32.ofNat (4 * i)) 4 x →
        ¬ Span (st.firstPageTable + UInt32.ofNat j) 1 x := by
      intro x hx hxj
      rcases Nat.lt_or_gt_of_ne hij with hlt | hgt
      · exact hx.disjoint_parts (by omega) (by omega) hxj
      · exact hxj.disjoint_parts (by omega) (by omega) hx
    have hsame : (m.write (st.firstPageTable + UInt32.ofNat j) 1
        fun _ => v).word st.firstPageTable i = m.word st.firstPageTable i :=
      Mem.load32_congr fun x hx => Mem.write_off (hoff x hx)
    rw [hsame]
    exact hi.entries i

/-- A frame write keeps the kernel half exactly when it is harmless. -/
theorem frameWrite_iff {m : Mem} {a : UInt32} {v : UInt8} (hi : Intact st m)
    (hlo : st.bottom.toNat ≤ a.toNat) (hhi : a.toNat < st.top.toNat) :
    KernelHalf (m.write a 1 fun _ => v) Layout.kernelPageDirectory ↔
      Harmless st m a v := by
  have hdir : (m.write a 1 fun _ => v).word Layout.kernelPageDirectory 0x300 =
      entryOf (kernelToPhysAddr st.firstPageTable) 3 :=
    (word_frameWrite hlo hhi 0x300).trans hi.directory
  have hpres : Present (entryOf (kernelToPhysAddr st.firstPageTable) 3) :=
    present_entryOf _ _
  rw [kernelHalf_iff (hdir ▸ hpres)
    (show tableOf _ = st.firstPageTable by rw [hdir, tableOf_entryOf st.aligned]),
    Harmless]
  by_cases ha : Span st.firstPageTable 0x1000 a
  · rw [maps_frameWrite_iff hi ha]
    exact ⟨fun h _ => h, fun h => h ha⟩
  · exact ⟨fun _ h => absurd h ha, fun _ => maps_frameWrite_off hi ha⟩

/-! ## Runs -/

/-- The memory `setup_paging` leaves. -/
def pagingMemory (m : Mem) (dir table : UInt32) : Mem :=
  ((((((m.fillWords table (fun _ => 2) 1024).fillWords dir (fun _ => 2) 1024).fillWords
    table (fun i => UInt32.ofNat i * 0x1000 ||| 3) 1024).setWord
      dir 0 (kernelToPhysAddr table ||| 3)).setWord
        dir 0x300 (kernelToPhysAddr table ||| 3)).setWord dir 0 2)

theorem setupPaging_run (table : UInt32) (k : Kernel δ) :
    ∃ k', (setupPaging table).run k = .ok () k' ∧
      k'.mem = pagingMemory k.mem Layout.kernelPageDirectory table ∧
      k'.cr3 = kernelToPhysAddr Layout.kernelPageDirectory ∧
      k'.kMemoryMap = k.kMemoryMap ∧ k'.dev = k.dev :=
  ⟨_, rfl, rfl, rfl, rfl, rfl⟩

theorem intact_pagingMemory (st : BootStack) (m : Mem) :
    Intact st (pagingMemory m Layout.kernelPageDirectory st.firstPageTable) := by
  have hoff : ∀ a, Span st.firstPageTable 0x1000 a →
      ¬ Span Layout.kernelPageDirectory 0x1000 a := fun a => st.table_off_directory
  have hoff' : ∀ a, Span Layout.kernelPageDirectory 0x1000 a →
      ¬ Span st.firstPageTable 0x1000 a := fun a ha ht => hoff a ht ha
  refine ⟨?_, fun i hne h2 => ?_, fun i => ?_⟩
  · rw [pagingMemory, Mem.word_setWord_ne (by omega) (by omega) (by omega),
      Mem.word_setWord_self, entryOf, UInt32.or_assoc]
    rfl
  · refine absurd ?_ h2
    by_cases h0 : (i : Nat) = 0
    · rw [h0, pagingMemory, Mem.word_setWord_self]
    · rw [pagingMemory, Mem.word_setWord_ne h0 (by omega) (by omega),
        Mem.word_setWord_ne hne (by omega) (by omega),
        Mem.word_setWord_ne h0 (by omega) (by omega),
        (sameOff_fillWords (n := 1024) (by omega)).word i.isLt (by omega) hoff',
        Mem.word_fillWords i.isLt (by omega)]
  · have hdir : ∀ (m : Mem) (j : Nat) (v : UInt32), j < 1024 →
        (m.setWord Layout.kernelPageDirectory j v).word st.firstPageTable i =
          m.word st.firstPageTable i := fun m j v hj =>
      (sameOff_setWord hj (by omega)).word i.isLt (by omega) hoff
    rw [pagingMemory, hdir _ 0 _ (by omega), hdir _ 0x300 _ (by omega),
      hdir _ 0 _ (by omega), Mem.word_fillWords i.isLt (by omega)]
    exact maps_identity i

theorem Intact.frameWrite {m : Mem} {a : UInt32} {v : UInt8} (hi : Intact st m)
    (hlo : st.bottom.toNat ≤ a.toNat) (hhi : a.toNat < st.top.toNat)
    (hv : Harmless st m a v) : Intact st (m.write a 1 fun _ => v) := by
  have hword := word_frameWrite (m := m) (v := v) hlo hhi
  refine ⟨(hword 0x300).trans hi.directory, fun i hne h2 => ?_, ?_⟩
  · rw [hword] at h2 ⊢
    exact hi.others i hne h2
  · by_cases ha : Span st.firstPageTable 0x1000 a
    · exact (maps_frameWrite_iff hi ha).mpr (hv ha)
    · exact maps_frameWrite_off hi ha

theorem Intact.step {op : KernelOp} (hi : Intact st k.mem)
    (hs : Guarded (KernelStep st) (FrameGuard st) k op k') : Intact st k'.mem := by
  obtain ⟨hg, hs⟩ := hs
  cases hs with
  | frameWrite hlo hhi => exact hi.frameWrite hlo hhi hg
  | @mapPage _ _ va _ _ h =>
      by_cases hva : pdIndex va = 0x300
      · rw [hi.mapPage_kernel hva h]
        exact hi
      · by_cases hpde : k.mem.word Layout.kernelPageDirectory (pdIndex va) = 2
        · exact hi.mapPage_new hva hpde h
        · exact hi.mapPage_old hva hpde h
  | kmalloc h => exact hi.kmalloc h
  | @kfree _ a n h =>
      have hmem : k'.mem = k.mem :=
        congrArg Machine.mem ((keepsMachine_kfree a n).of_ok h)
      rw [hmem]
      exact hi

/-- A frame write outside the popped table is a harmless step. -/
theorem KernelStep.frame_off (st : BootStack) {a : UInt32} (v : UInt8)
    (hlo : st.bottom.toNat ≤ a.toNat) (hhi : a.toNat < st.top.toNat)
    (ha : ¬ Span st.firstPageTable 0x1000 a) :
    Guarded (KernelStep st) (FrameGuard st) k (.frameWrite a v)
      { k with mem := k.mem.write a 1 fun _ => v } :=
  ⟨fun h => absurd h ha, .frameWrite hlo hhi⟩

/-- A zero in the first byte of the popped table is not. -/
theorem not_harmless_zero {m : Mem} (hi : Intact st m) :
    ¬ Harmless st m st.firstPageTable 0 := by
  intro h
  have hsame := h (span_self (by omega))
  rw [UInt32.sub_self] at hsame
  -- the byte that is overwritten has the present bit
  have hentry := ((maps_iff (by decide)).mp (hi.entries 0)).1
  have hword : m.word st.firstPageTable ((0 : Fin 1024) : Nat) =
      m.load32 st.firstPageTable := congrArg m.load32 (UInt32.add_zero _)
  rw [hword, (entry_bits m st.firstPageTable).1] at hentry
  have hzero : (0 : UInt8).toNat % 2 = (m st.firstPageTable).toNat % 2 := hsame
  rw [hentry] at hzero
  exact absurd hzero (by decide)

/-- In every run after `setup_paging` in which each frame write is harmless
every address of the kernel half translates as it did under the boot
directory. -/
theorem kernelHalf_run {k₀ k₁ : Kernel δ} {tr : List KernelOp}
    (h₀ : (setupPaging st.firstPageTable).run k₀ = .ok () k₁)
    (hrun : Run (Guarded (KernelStep st) (FrameGuard st)) k₁ tr k) :
    ∀ va : UInt32, 0xC0000000 ≤ va.toNat → va.toNat < 0xC0400000 →
      physical k.mem Layout.kernelPageDirectory va = some (va - 0xC0000000) ∧
      ∀ m, physical (bootMemory m) (physToKernelAddr pageDirAddress) va =
        physical k.mem Layout.kernelPageDirectory va := by
  obtain ⟨k', hk', hmem, -⟩ := setupPaging_run st.firstPageTable k₀
  rw [hk'] at h₀
  injection h₀ with _ hk
  subst hk
  have hstart : Intact st k'.mem := hmem ▸ intact_pagingMemory st k₀.mem
  have hi : Intact st k.mem :=
    hrun.invariant (I := fun k => Intact st k.mem) hstart fun _ _ _ => Intact.step
  intro va hlo hhi
  have hphys := hi.kernelHalf va hlo hhi
  refine ⟨hphys, fun m => ?_⟩
  rw [hphys]
  exact kernelHalf_bootMemory m va hlo hhi

end

/-- The boot stack of `kernel_entry.asm`, with a frame of 16 bytes for
`kernel_main`. -/
def bootStack : @BootStack bootLayout :=
  let _ := bootLayout
  { bottom := 0xC0050000
    top := 0xC0056FE0
    firstPageTable := 0xC0055000
    aligned := by decide
    below_table := by decide
    above_table := by decide
    off_directory := .inl (by decide)
    off_kmallocMemory := .inl (by decide) }

/-- A later frame above the popped table. -/
theorem kernelHalf_run_frame : ∃ (_ : Layout) (k : Kernel Unit),
    physical k.mem Layout.kernelPageDirectory 0xC0001234 = some 0x1234 := by
  let _ := bootLayout
  obtain ⟨k₁, h₀, -⟩ := setupPaging_run bootStack.firstPageTable (Kernel.zero ())
  have hs := KernelStep.frame_off bootStack (k := k₁) (a := 0xC0056F00) 7
    (by decide) (by decide) (by decide)
  exact ⟨bootLayout, _,
    (kernelHalf_run h₀ (.single hs) 0xC0001234 (by decide) (by decide)).1⟩

/-- A later frame that writes a zero to the first byte of the popped table. -/
theorem kernelHalf_overwritten : ∃ (_ : Layout) (st : BootStack)
    (k₁ k : Kernel Unit),
    (setupPaging st.firstPageTable).run (Kernel.zero ()) = .ok () k₁ ∧
      Run (KernelStep st) k₁ [.frameWrite st.firstPageTable 0] k ∧
      ¬ KernelHalf k.mem Layout.kernelPageDirectory := by
  have hall : ∀ [Layout] (st : BootStack), ∃ k₁ k : Kernel Unit,
      (setupPaging st.firstPageTable).run (Kernel.zero ()) = .ok () k₁ ∧
        Run (KernelStep st) k₁ [.frameWrite st.firstPageTable 0] k ∧
        ¬ KernelHalf k.mem Layout.kernelPageDirectory := by
    intro _ st
    obtain ⟨k₁, h₀, hmem, -⟩ := setupPaging_run st.firstPageTable (Kernel.zero ())
    have hi : Intact st k₁.mem := hmem ▸ intact_pagingMemory st _
    have hlo := st.below_table
    have hhi : st.firstPageTable.toNat < st.top.toNat := by
      have := st.above_table
      omega
    exact ⟨k₁, _, h₀, .single (.frameWrite hlo hhi),
      fun h => not_harmless_zero hi ((frameWrite_iff hi hlo hhi).mp h)⟩
  exact ⟨bootLayout, bootStack, @hall bootLayout bootStack⟩

end Bedrock
