import Mathlib.Data.List.Basic
import Bedrock.Kernel.State

/-!
# `kernel/kmalloc.c`

The page allocator: a byte per block, a scan from block 0 that remembers the
first free block it met and counts the free blocks after it, and a release
that recomputes the block number from the address.

The scan never starts over when it meets a used block, so what it hands out
is decided by two numbers only: the first free block, and whether the map has
enough free blocks in all (`kmallocSearch_eq`).
-/

namespace Bedrock

open Lib

variable {δ : Type}

/-- `k_memory_map[c] = v` -/
def kMemoryMapSet (c : Nat) (v : UInt8) : Kern δ Unit := do
  let k ← get
  if h : c < kMemoryMapEntries then
    set { k with kMemoryMap := k.kMemoryMap.set c v }
  else
    throw .wildIndex

/-- `n` rounds of `for (c = lo; …; c++) k_memory_map[c] = v`. -/
def kMemoryMapFill (v : UInt8) : (n lo : Nat) → Kern δ Unit
  | 0, _ => pure ()
  | n + 1, lo => do
      kMemoryMapSet lo v
      kMemoryMapFill v n (lo + 1)

/-- The search loop over the blocks from `currentBlockId` on: the start of the
sequence it settles for, if the loop does not run to its end. -/
def kmallocSearch (blockCount : Nat) :
    List UInt8 → (currentBlockId foundBlockCount startingBlockId : Nat) → Option Nat
  | [], _, _, _ => none
  | b :: rest, cur, found, start =>
      let start := if b = 0 ∧ found = 0 then cur else start
      let found := if b = 0 then found + 1 else found
      if found = blockCount then some start
      else kmallocSearch blockCount rest (cur + 1) found start

/-- The address of block `i`. -/
def blockAddr [Layout] (i : Nat) : UInt32 :=
  Layout.kmallocMemory + UInt32.ofNat i * blockSize

def kmalloc [Layout] (blockCount : UInt32) : Kern δ UInt32 := do
  let k ← get
  match kmallocSearch blockCount.toNat k.kMemoryMap.toList 0 0 0 with
  | some start =>
      -- `for (c = start; c < start + block_count; c++)`
      kMemoryMapFill 1 ((UInt32.ofNat start + blockCount).toNat - start) start
      let blockAddress := blockAddr start
      memorySet blockAddress 0 blockSize
      pure blockAddress
  | none => kernelExit 2

def kfree [Layout] (address blockCount : UInt32) : Kern δ Unit := do
  let startingBlock := (address - Layout.kmallocMemory) / blockSize
  kMemoryMapFill 0 ((startingBlock + blockCount).toNat - startingBlock.toNat)
    startingBlock.toNat

/-! ## The search -/

/-- Once the scan has found its first free block it settles for it as soon as
it has counted enough, wherever the others lie. -/
theorem kmallocSearch_found {n : Nat} {l : List UInt8} {cur found start : Nat}
    (hpos : 0 < found) (hlt : found < n) :
    kmallocSearch n l cur found start =
      if n ≤ found + l.count 0 then some start else none := by
  induction l generalizing cur found with
  | nil =>
      rw [kmallocSearch, if_neg]
      simp only [List.count_nil]
      omega
  | cons b rest ih =>
      have hne : ¬ (b = 0 ∧ found = 0) := fun h => by omega
      rw [kmallocSearch]
      simp only [if_neg hne]
      by_cases hb : b = 0
      · subst hb
        simp only [if_true, List.count_cons_self]
        by_cases heq : found + 1 = n
        · rw [if_pos heq, if_pos (by omega)]
        · rw [if_neg heq, ih (by omega) (by omega)]
          congr 1
          exact propext (by omega)
      · simp only [if_neg hb]
        rw [if_neg (by omega), ih hpos hlt, List.count_cons_of_ne hb]

/-- The answer of the search: the first free block, when there are enough free
blocks in the whole map. -/
theorem kmallocSearch_eq {n : Nat} {l : List UInt8} {cur start : Nat}
    (hn : 1 ≤ n) :
    kmallocSearch n l cur 0 start =
      if n ≤ l.count 0 then some (cur + l.idxOf 0) else none := by
  induction l generalizing cur start with
  | nil =>
      rw [kmallocSearch, if_neg]
      simp only [List.count_nil]
      omega
  | cons b rest ih =>
      rw [kmallocSearch]
      by_cases hb : b = 0
      · subst hb
        simp only [and_self, if_true, List.count_cons_self,
          List.idxOf_cons_self, Nat.add_zero, Nat.zero_add]
        by_cases heq : 1 = n
        · rw [if_pos heq, if_pos (by omega)]
        · rw [if_neg heq, kmallocSearch_found (by omega) (by omega)]
          congr 1
          exact propext (by omega)
      · simp only [hb, false_and, if_false]
        rw [if_neg (by omega), ih, List.count_cons_of_ne hb,
          List.idxOf_cons_ne _ hb]
        simp only [Nat.succ_eq_add_one]
        rw [show cur + 1 + rest.idxOf 0 = cur + (rest.idxOf 0 + 1) by omega]

/-- Past a free block the count of a search for no block at all is over. -/
theorem kmallocSearch_none {l : List UInt8} {cur found start : Nat} (hpos : 0 < found) :
    kmallocSearch 0 l cur found start = none := by
  induction l generalizing cur found start with
  | nil => rfl
  | cons b rest ih =>
      rw [kmallocSearch]
      by_cases hb : b = 0
      · simp only [if_pos hb]
        rw [if_neg (by omega), ih (by omega)]
      · simp only [if_neg hb]
        rw [if_neg (by omega), ih hpos]

/-- A search for no block looks at the first entry of the map only. -/
theorem kmallocSearch_zero {b : UInt8} {rest : List UInt8} {cur : Nat} :
    kmallocSearch 0 (b :: rest) cur 0 0 = if b = 0 then none else some 0 := by
  rw [kmallocSearch]
  by_cases hb : b = 0
  · simp only [if_pos hb]
    rw [if_neg (by omega), kmallocSearch_none (by omega)]
  · simp only [hb, false_and, if_false, if_true]

/-! ## The byte map -/

/-- The map with `v` written to the `n` entries from `lo` on. -/
def mapRange (map : Vector UInt8 kMemoryMapEntries) (lo n : Nat) (v : UInt8) :
    Vector UInt8 kMemoryMapEntries :=
  Vector.ofFn fun i => if lo ≤ i.val ∧ i.val < lo + n then v else map[i]

@[simp] theorem getElem_mapRange {map : Vector UInt8 kMemoryMapEntries}
    {lo n : Nat} {v : UInt8} {i : Nat} (hi : i < kMemoryMapEntries) :
    (mapRange map lo n v)[i] = if lo ≤ i ∧ i < lo + n then v else map[i] := by
  simp [mapRange]

theorem mapRange_zero (map : Vector UInt8 kMemoryMapEntries) (lo : Nat)
    (v : UInt8) : mapRange map lo 0 v = map := by
  ext i hi
  rw [getElem_mapRange, if_neg (by omega)]

theorem mapRange_one {map : Vector UInt8 kMemoryMapEntries} {lo : Nat}
    {v : UInt8} (h : lo < kMemoryMapEntries) :
    mapRange map lo 1 v = map.set lo v := by
  ext i hi
  rw [getElem_mapRange, Vector.getElem_set]
  split <;> split <;> first | rfl | omega

/-- Marking a free block and freeing it again. -/
theorem mapRange_restore {map : Vector UInt8 kMemoryMapEntries} {lo : Nat}
    {v : UInt8} (h : lo < kMemoryMapEntries) (h0 : map[lo] = 0) :
    mapRange (mapRange map lo 1 v) lo 1 0 = map := by
  ext i hi
  rw [getElem_mapRange, getElem_mapRange]
  split
  · obtain rfl : i = lo := by omega
    rw [h0]
  · rfl

theorem mapRange_succ {map : Vector UInt8 kMemoryMapEntries} {lo n : Nat}
    {v : UInt8} (h : lo < kMemoryMapEntries) :
    mapRange (map.set lo v) (lo + 1) n v = mapRange map lo (n + 1) v := by
  ext i hi
  rw [getElem_mapRange, getElem_mapRange, Vector.getElem_set]
  split
  · rw [if_pos (by omega)]
  · split
    · rw [if_pos (by omega)]
    · rw [if_neg (by omega)]

/-- A fill inside the map is the range write it looks like. -/
theorem kMemoryMapFill_run {v : UInt8} {n lo : Nat} {k : Kernel δ}
    (h : lo + n ≤ kMemoryMapEntries) :
    (kMemoryMapFill v n lo).run k =
      .ok () { k with kMemoryMap := mapRange k.kMemoryMap lo n v } := by
  induction n generalizing lo k with
  | zero => rw [kMemoryMapFill, EStateM.run_pure, mapRange_zero]
  | succ n ih =>
      have hlo : lo < kMemoryMapEntries := by omega
      have hset : (kMemoryMapSet lo v).run k =
          .ok () { k with kMemoryMap := k.kMemoryMap.set lo v } := by
        rw [kMemoryMapSet, Exec.bind_ok (EStateM.run_get k), dif_pos hlo]
        rfl
      rw [kMemoryMapFill, Exec.bind_ok hset, ih (by omega)]
      simp only [mapRange_succ hlo]

/-! ## The free blocks -/

/-- How many blocks are free. -/
def freeCount (map : Vector UInt8 kMemoryMapEntries) : Nat :=
  map.toList.count 0

/-- At the start every block is free. -/
@[simp] theorem freeCount_zero {δ : Type} (dev : δ) :
    freeCount (Kernel.zero dev).kMemoryMap = 100 := rfl

/-- The first free block. -/
def firstFree (map : Vector UInt8 kMemoryMapEntries) : Nat :=
  map.toList.idxOf 0

theorem firstFree_lt {map : Vector UInt8 kMemoryMapEntries}
    (h : 0 < freeCount map) : firstFree map < kMemoryMapEntries := by
  have hmem : (0 : UInt8) ∈ map.toList := List.count_pos_iff.mp h
  have hlt := List.idxOf_lt_length_of_mem hmem
  rwa [Vector.length_toList] at hlt

theorem firstFree_free {map : Vector UInt8 kMemoryMapEntries}
    (h : firstFree map < kMemoryMapEntries) : map[firstFree map] = 0 := by
  have hlt : map.toList.idxOf 0 < map.toList.length := by
    rw [Vector.length_toList]
    exact h
  have := List.getElem_idxOf hlt
  rwa [Vector.getElem_toList] at this

theorem used_before_firstFree {map : Vector UInt8 kMemoryMapEntries} {i : Nat}
    (hi : i < kMemoryMapEntries) (hlt : i < firstFree map) : map[i] ≠ 0 := by
  have hne := @List.not_of_lt_findIdx UInt8 (· == 0) map.toList i hlt
  simpa using hne

/-- From the first free block on there is room for as many blocks as are
free. -/
theorem firstFree_add_freeCount (map : Vector UInt8 kMemoryMapEntries) :
    firstFree map + freeCount map ≤ kMemoryMapEntries := by
  have hgen : ∀ l : List UInt8, l.idxOf 0 + l.count 0 ≤ l.length := by
    intro l
    induction l with
    | nil => simp
    | cons b rest ih =>
        by_cases hb : b = 0
        · subst hb
          have := List.count_le_length (a := (0 : UInt8)) (l := rest)
          simp only [List.idxOf_cons_self, List.count_cons_self, List.length_cons]
          omega
        · rw [List.idxOf_cons_ne _ hb, List.count_cons_of_ne hb, List.length_cons]
          omega
  have := hgen map.toList
  rwa [Vector.length_toList] at this

/-! ## Block addresses -/

section

variable [Layout]

theorem toNat_blockAddr {i : Nat} (hi : i ≤ kMemoryMapEntries) :
    (blockAddr i).toNat = Layout.kmallocMemory.toNat + i * 0x1000 := by
  have hfit := Layout.kmallocMemory_fits
  simp only [kMemoryMapEntries] at hi hfit
  rw [blockAddr, UInt32.toNat_add, UInt32.toNat_mul, UInt32.toNat_ofNat',
    show blockSize.toNat = 4096 from rfl]
  omega

/-- The block number `kfree` computes, for an address inside a block. -/
theorem blockAddr_div {i : Nat} {a : UInt32} (hi : i < kMemoryMapEntries)
    (ha : Span (blockAddr i) 0x1000 a) :
    ((a - Layout.kmallocMemory) / blockSize).toNat = i := by
  have hfit := Layout.kmallocMemory_fits
  have hbase := toNat_blockAddr (Nat.le_of_lt hi)
  simp only [kMemoryMapEntries] at hi hfit
  rw [span_iff (by omega)] at ha
  rw [UInt32.toNat_div, UInt32.toNat_sub, show blockSize.toNat = 4096 from rfl]
  have := Layout.kmallocMemory.toNat_lt
  omega

theorem blockAddr_div_self {i : Nat} (hi : i < kMemoryMapEntries) :
    ((blockAddr i - Layout.kmallocMemory) / blockSize).toNat = i :=
  blockAddr_div hi (span_self (by omega))

/-- Different blocks have no byte in common. -/
theorem block_disjoint {i j : Nat} {a : UInt32} (hi : i < kMemoryMapEntries)
    (hj : j < kMemoryMapEntries) (hai : Span (blockAddr i) 0x1000 a)
    (haj : Span (blockAddr j) 0x1000 a) : i = j := by
  rw [← blockAddr_div hi hai, blockAddr_div hj haj]

/-! ## `kmalloc` and `kfree` -/

/-- With enough free blocks `kmalloc` hands out the range that starts at the
first free block, marks it and clears its first page. -/
theorem kmalloc_ok {n : UInt32} {k : Kernel δ} (hn : 1 ≤ n.toNat)
    (hfree : n.toNat ≤ freeCount k.kMemoryMap) :
    (kmalloc n).run k =
      .ok (blockAddr (firstFree k.kMemoryMap))
        { k with
          kMemoryMap :=
            mapRange k.kMemoryMap (firstFree k.kMemoryMap) n.toNat 1
          mem := k.mem.write (blockAddr (firstFree k.kMemoryMap)) 0x1000
            fun _ => 0 } := by
  have hroom := firstFree_add_freeCount k.kMemoryMap
  have hsearch : kmallocSearch n.toNat k.kMemoryMap.toList 0 0 0 =
      some (firstFree k.kMemoryMap) := by
    rw [kmallocSearch_eq hn, Nat.zero_add]
    exact if_pos hfree
  have hcount : (UInt32.ofNat (firstFree k.kMemoryMap) + n).toNat -
      firstFree k.kMemoryMap = n.toNat := by
    simp only [kMemoryMapEntries] at hroom
    rw [UInt32.toNat_add, UInt32.toNat_ofNat']
    omega
  rw [kmalloc, Exec.bind_ok (EStateM.run_get k)]
  simp only [hsearch, hcount]
  rw [Exec.bind_ok (kMemoryMapFill_run (by omega))]
  simp only [memorySet, EStateM.run_bind, EStateM.run_modify,
    EStateM.run_pure, show blockSize.toNat = 0x1000 from rfl,
    memorySetLoop_eq _ _ _ (show 0x1000 ≤ 2 ^ 32 by omega)]

/-- With too few free blocks `kmalloc` stops the kernel. -/
theorem kmalloc_exit {n : UInt32} {k : Kernel δ}
    (hn : 1 ≤ n.toNat) (hfree : freeCount k.kMemoryMap < n.toNat) :
    ∃ k', (kmalloc n).run k = .error (.exit 2) k' ∧ k'.mem = k.mem ∧
      k'.dev = k.dev ∧ k'.kMemoryMap = k.kMemoryMap := by
  have hsearch : kmallocSearch n.toNat k.kMemoryMap.toList 0 0 0 = none := by
    rw [kmallocSearch_eq hn]
    exact if_neg (Nat.not_le_of_lt hfree)
  rw [kmalloc, Exec.bind_ok (EStateM.run_get k)]
  simp only [hsearch]
  exact kernelExit_run 2 k

/-- A return of `kmalloc` is the one `kmalloc_ok` describes. -/
theorem kmalloc_inv {n p : UInt32} {k k' : Kernel δ} (hn : 1 ≤ n.toNat)
    (h : (kmalloc n).run k = .ok p k') :
    n.toNat ≤ freeCount k.kMemoryMap ∧
      p = blockAddr (firstFree k.kMemoryMap) ∧
      k'.kMemoryMap =
        mapRange k.kMemoryMap (firstFree k.kMemoryMap) n.toNat 1 ∧
      k'.mem = k.mem.write p 0x1000 (fun _ => 0) := by
  rcases Nat.lt_or_ge (freeCount k.kMemoryMap) n.toNat with hlt | hge
  · obtain ⟨k₁, hk₁, -⟩ := kmalloc_exit hn hlt
    rw [hk₁] at h
    cases h
  · rw [kmalloc_ok hn hge] at h
    injection h with hp hk
    subst hp hk
    exact ⟨hge, rfl, rfl, rfl⟩

omit [Layout] in
theorem kmallocSearch_map_zero {map : Vector UInt8 kMemoryMapEntries} :
    kmallocSearch (0 : UInt32).toNat map.toList 0 0 0 = if map[0] = 0 then none else some 0 := by
  obtain ⟨b, rest, hmap⟩ : ∃ b rest, map.toList = b :: rest :=
    List.exists_cons_of_length_pos (by rw [Vector.length_toList]; decide)
  have hb : map[0] = b := by
    rw [← Vector.getElem_toList (by rw [Vector.length_toList]; decide)]
    simp only [hmap, List.getElem_cons_zero]
  rw [hmap, hb]
  exact kmallocSearch_zero

/-- `kmalloc(0)` with block 0 in use marks nothing and clears block 0. -/
theorem kmalloc_zero_ok {k : Kernel δ} (hbusy : k.kMemoryMap[0] ≠ 0) :
    (kmalloc 0).run k = .ok (blockAddr 0)
      { k with mem := k.mem.write (blockAddr 0) 0x1000 fun _ => 0 } := by
  have hcount : (UInt32.ofNat 0 + (0 : UInt32)).toNat - 0 = 0 := rfl
  rw [kmalloc, Exec.bind_ok (EStateM.run_get k)]
  simp only [kmallocSearch_map_zero, if_neg hbusy, hcount, kMemoryMapFill, pure_bind]
  simp only [memorySet, EStateM.run_bind, EStateM.run_modify,
    EStateM.run_pure, show blockSize.toNat = 0x1000 from rfl,
    memorySetLoop_eq _ _ _ (show 0x1000 ≤ 2 ^ 32 by omega)]

theorem kmalloc_zero_inv {p : UInt32} {k k' : Kernel δ} (h : (kmalloc 0).run k = .ok p k') :
    p = blockAddr 0 ∧ k'.mem = k.mem.write p 0x1000 (fun _ => 0) := by
  by_cases hbusy : k.kMemoryMap[0] = 0
  · rw [kmalloc, Exec.bind_ok (EStateM.run_get k)] at h
    simp only [kmallocSearch_map_zero, if_pos hbusy] at h
    obtain ⟨k₁, hk₁, -⟩ := kernelExit_run (α := UInt32) 2 k
    rw [hk₁] at h
    cases h
  · rw [kmalloc_zero_ok hbusy] at h
    injection h with hp hk
    subst hp hk
    exact ⟨rfl, rfl⟩

/-- `kfree` clears the blocks from the one its address lies in. -/
theorem kfree_run {a n : UInt32} {k : Kernel δ}
    (hn : ((a - Layout.kmallocMemory) / blockSize).toNat + n.toNat ≤
      kMemoryMapEntries) :
    (kfree a n).run k =
      .ok () { k with
        kMemoryMap := mapRange k.kMemoryMap
          ((a - Layout.kmallocMemory) / blockSize).toNat n.toNat 0 } := by
  have hcount : ((a - Layout.kmallocMemory) / blockSize + n).toNat -
      ((a - Layout.kmallocMemory) / blockSize).toNat = n.toNat := by
    simp only [kMemoryMapEntries] at hn
    rw [UInt32.toNat_add]
    omega
  rw [kfree]
  simp only [hcount]
  exact kMemoryMapFill_run hn

/-- A page is given back through the pointer `kmalloc` returned. -/
theorem kfree_block {i : Nat} {k : Kernel δ} (hi : i < kMemoryMapEntries) :
    (kfree (blockAddr i) 1).run k =
      .ok () { k with kMemoryMap := mapRange k.kMemoryMap i 1 0 } := by
  have hfit : ((blockAddr i - Layout.kmallocMemory) / blockSize).toNat + (1 : UInt32).toNat ≤
      kMemoryMapEntries := by
    rw [blockAddr_div_self hi]
    exact hi
  rw [kfree_run hfit, blockAddr_div_self hi]
  rfl

end

/-! ## What stays the same -/

theorem keepsMachine_kMemoryMapFill (v : UInt8) (n lo : Nat) :
    Exec.Keeps (Exec.Same fun k : Kernel δ => k.toMachine)
      (kMemoryMapFill v n lo : Kern δ Unit) := by
  induction n generalizing lo with
  | zero => exact .pure ()
  | succ n ih =>
      refine .bind (fun k => ?_) fun _ => ih (lo + 1)
      by_cases hlo : lo < kMemoryMapEntries
      · simp [kMemoryMapSet, hlo, Exec.Same]
      · simp [kMemoryMapSet, hlo, Exec.Same]

theorem keepsMachine_kfree [Layout] (a n : UInt32) :
    Exec.Keeps (Exec.Same fun k : Kernel δ => k.toMachine)
      (kfree a n : Kern δ Unit) :=
  keepsMachine_kMemoryMapFill _ _ _

theorem keepsDev_kmalloc [Layout] (n : UInt32) :
    KeepsDev (kmalloc n : Kern δ UInt32) := by
  refine .bind .get fun k => ?_
  split
  · refine .bind (keepsDev_of_machine (keepsMachine_kMemoryMapFill _ _ _)) fun _ => ?_
    exact .bind (keepsDev_memorySet _ _ _) fun _ => .pure _
  · exact keepsDev_kernelExit 2

theorem keepsDev_kfree [Layout] (a n : UInt32) :
    KeepsDev (kfree a n : Kern δ Unit) :=
  keepsDev_of_machine (keepsMachine_kfree a n)

/-- Wherever the search settles, it is inside the map. -/
theorem kmallocSearch_lt {n : Nat} {l : List UInt8} {cur found start s : Nat}
    (h : kmallocSearch n l cur found start = some s) :
    s = start ∨ s < cur + l.length := by
  induction l generalizing cur found start with
  | nil => cases h
  | cons b rest ih =>
      rw [kmallocSearch] at h
      have hs : s = (if b = 0 ∧ found = 0 then cur else start) ∨
          s < cur + 1 + rest.length := by
        by_cases hfound : (if b = 0 then found + 1 else found) = n
        · simp only [if_pos hfound] at h
          exact .inl (Option.some.inj h).symm
        · simp only [if_neg hfound] at h
          exact ih h
      rw [List.length_cons]
      split at hs
      · omega
      · omega

/-- Whatever it is asked for, a call of `kmalloc` writes one block at most. -/
theorem kmalloc_sameOff [Layout] {n p : UInt32} {k k' : Kernel δ}
    (h : (kmalloc n).run k = .ok p k') :
    ∃ b < kMemoryMapEntries, SameOff (Span (blockAddr b) 0x1000) k.mem k'.mem := by
  rw [kmalloc, Exec.bind_ok (EStateM.run_get k)] at h
  split at h
  · rename_i start hsearch
    obtain ⟨_, k₁, hfill, hrest⟩ := Exec.bind_inv h
    have hmem : k₁.mem = k.mem :=
      congrArg Machine.mem ((keepsMachine_kMemoryMapFill _ _ _).of_ok hfill)
    have hlt := kmallocSearch_lt hsearch
    rw [Vector.length_toList] at hlt
    simp only [kMemoryMapEntries] at hlt ⊢
    refine ⟨start, by omega, ?_⟩
    injection hrest with _ hk
    rw [← hk, ← hmem]
    show SameOff _ _ (memorySetLoop (blockAddr start) 0 0x1000 k₁.mem)
    rw [memorySetLoop_eq _ _ _ (by omega)]
    exact sameOff_write
  · obtain ⟨k₁, hk₁, -⟩ := kernelExit_run (α := UInt32) 2 k
    rw [hk₁] at h
    cases h

end Bedrock
