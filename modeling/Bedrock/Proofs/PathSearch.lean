import Bedrock.Proofs.SplitWalk

/-!
# The search for a string

`ext2_find_file_inode` called with any string of less than a page. A run takes
three pages and splits a copy of the string. Its first character is skipped; of
the segments behind it as many are looked for as the string has slashes, and a
string without a slash is left to `ext2_read_root_directory`.

A search ends behind its last name, or at a name that is not there. What is
returned and what is copied to the caller's buffer is said by these two
(`ext2FindFileInode_search`).
-/

namespace Bedrock

open Lib Image

/-- The names a search for `l` looks for. -/
def searchNames (l : List UInt8) : List (List UInt8) :=
  (l.tail.splitOn slash).take (l.count slash)

theorem zero_not_mem_searchNames {l name : List UInt8} (h0 : 0 ∉ l)
    (hname : name ∈ searchNames l) : 0 ∉ name := fun hmem =>
  h0 (List.mem_of_mem_tail ((mem_splitOn (List.take_subset _ _ hname)).2 0 hmem))

theorem count_slash_le (l : List UInt8) : l.count slash ≤ (l.tail.splitOn slash).length := by
  rw [length_splitOn]
  cases l with
  | nil => exact Nat.zero_le _
  | cons b l =>
      rw [List.count_cons, List.tail_cons]
      split <;> omega

theorem length_searchNames (l : List UInt8) : (searchNames l).length = l.count slash := by
  rw [searchNames, List.length_take]
  exact Nat.min_eq_left (count_slash_le l)

/-- The names behind the first character, and what is left of the string. -/
theorem nameStrings_searchNames (l : List UInt8) :
    nameStrings (l.tail.splitOn slash) = nameStrings (searchNames l) ++
      nameStrings ((l.tail.splitOn slash).drop (l.count slash)) := by
  rw [nameStrings, nameStrings, nameStrings, ← List.flatMap_append, searchNames,
    List.take_append_drop]

theorem length_nameStrings_splitOn (l : List UInt8) :
    (nameStrings (l.splitOn slash)).length = l.length + 1 := by
  rw [← map_splitOn, List.length_append, List.length_map, List.length_singleton]

theorem length_nameStrings_searchNames (l : List UInt8) :
    (nameStrings (searchNames l)).length ≤ l.length := by
  cases l with
  | nil => exact Nat.le_refl _
  | cons b l =>
      have hall := congrArg List.length (nameStrings_searchNames (b :: l))
      rw [length_nameStrings_splitOn, List.length_append, List.tail_cons] at hall
      rw [List.length_cons]
      omega

section

variable [Layout]

/-! ## Taking pages -/

/-- One page is taken: block `i`. -/
structure Takes {δ : Type} (k k' : Kernel δ) (i : Nat) : Prop where
  run : (kmalloc 1).run k = .ok (blockAddr i) k'
  lt : i < kMemoryMapEntries
  free : k.kMemoryMap[i] = 0
  busy : k'.kMemoryMap[i] ≠ 0
  map : k'.kMemoryMap = taken k.kMemoryMap
  count : freeCount k'.kMemoryMap + 1 = freeCount k.kMemoryMap
  room : i + freeCount k.kMemoryMap ≤ kMemoryMapEntries
  dev : k'.dev = k.dev
  mem : k'.mem = k.mem.write (blockAddr i) 0x1000 fun _ => 0
  freeAt : ∀ a, FreeAt k'.kMemoryMap a → FreeAt k.kMemoryMap a

theorem kmalloc_takes {δ : Type} {k : Kernel δ} (hfree : 0 < freeCount k.kMemoryMap) :
    ∃ i k', Takes k k' i := by
  obtain ⟨k', hrun, hdev, hmap, hmem⟩ := kmalloc_page hfree
  have hlt := firstFree_lt hfree
  refine ⟨firstFree k.kMemoryMap, k', hrun, hlt, firstFree_free hlt, ?_, hmap, ?_,
    firstFree_add_freeCount _, hdev, hmem, ?_⟩
  · simp only [hmap, taken, getElem_mapRange]
    rw [if_pos (by omega)]
    decide
  · rw [hmap]
    exact freeCount_taken hfree
  · intro a ha
    rw [hmap] at ha
    exact ((freeAt_taken hfree).mp ha).1

theorem kmalloc_stops {δ : Type} {k : Kernel δ} (hfree : freeCount k.kMemoryMap = 0) :
    ∃ k', (kmalloc 1).run k = .error (.exit 2) k' := by
  obtain ⟨k', hexit, -⟩ := kmalloc_exit (n := 1) (k := k) (by decide)
    (by rw [hfree]; decide)
  exact ⟨k', hexit⟩

/-- A program that begins with `kmalloc(1)` stops if it does so with every page. -/
theorem kmalloc_bind_exit {δ α : Type} {k : Kernel δ} {x : UInt32 → Kern δ α}
    (h : ∀ i k', Takes k k' i → ∃ k'', (x (blockAddr i)).run k' = .error (.exit 2) k'') :
    ∃ k', (kmalloc 1 >>= x).run k = .error (.exit 2) k' := by
  rcases Nat.eq_zero_or_pos (freeCount k.kMemoryMap) with hzero | hpos
  · obtain ⟨k', hexit⟩ := kmalloc_stops hzero
    exact ⟨k', Exec.bind_error hexit⟩
  · obtain ⟨i, k₁, htakes⟩ := kmalloc_takes hpos
    obtain ⟨k', hexit⟩ := h i k₁ htakes
    exact ⟨k', (Exec.bind_ok htakes.run).trans hexit⟩

/-- What was in use before is another page, and still in use. -/
theorem Takes.other {δ : Type} {k k' : Kernel δ} {i j : Nat} (h : Takes k k' i)
    (hj : j < kMemoryMapEntries) (hbusy : k.kMemoryMap[j] ≠ 0) :
    j ≠ i ∧ k'.kMemoryMap[j] ≠ 0 := by
  constructor
  · rintro rfl
    exact hbusy h.free
  · simp only [h.map]
    exact busy_taken hj hbusy

theorem Takes.sameOff {δ : Type} {k k' : Kernel δ} {i : Nat} (h : Takes k k' i) :
    SameOff (FreeAt k.kMemoryMap) k.mem k'.mem := by
  rw [h.mem]
  exact sameOff_write.mono fun a ha => ⟨i, h.lt, h.free, ha⟩

/-- The three pages of the search. -/
theorem findPages {δ : Type} {k k₁ k₂ k₃ : Kernel δ} {i r f : Nat} (hi : Takes k k₁ i)
    (hr : Takes k₁ k₂ r) (hf : Takes k₂ k₃ f) : Pages k₃.kMemoryMap i r f := by
  obtain ⟨hir, hi₂⟩ := hr.other hi.lt hi.busy
  obtain ⟨hif, hi₃⟩ := hf.other hi.lt hi₂
  obtain ⟨hrf, hr₃⟩ := hf.other hr.lt hr.busy
  exact ⟨hi.lt, hr.lt, hf.lt, hir, hif, hrf, hi₃, hr₃, hf.busy⟩

/-! ## Setting up -/

/-- The string lies in memory, and not in a free page. -/
structure HoldsString {δ : Type} (k : Kernel δ) (ff : UInt32) (l : List UInt8) : Prop where
  string : BytesAt k.mem ff (l ++ [0])
  apart : ∀ a, Span ff (l.length + 1) a → ¬ FreeAt k.kMemoryMap a
  nonzero : 0 ∉ l
  short : l.length < 0x1000

/-- A string is copied to the page `f` and split there. -/
theorem splitString_ok {δ : Type} {k : Kernel δ} {fuel f : Nat} {ff : UInt32} {l : List UInt8}
    (h0 : 0 ∉ l) (hshort : l.length < 0x1000) (hfuel : l.length < fuel)
    (hff : BytesAt k.mem ff (l ++ [0]))
    (hapart : ∀ a, Span ff (l.length + 1) a → ¬ Span (blockAddr f) 0x1000 a) :
    ∃ k₁ m, (strlen fuel (chars k.mem ff)).run k = .ok (Int32.ofNat l.length) k ∧
      (memoryCopy ff (blockAddr f) (Int32.ofNat l.length + 1)).run k = .ok () k₁ ∧
      (strsplit fuel (blockAddr f) slash).run k₁ =
        .ok (Int32.ofNat (l.count slash) + 1) { k with mem := m } ∧
      BytesAt m (blockAddr f) ((l.map fun b => if b = slash then 0 else b) ++ [0]) ∧
      SameOff (Span (blockAddr f) (l.length + 1)) k.mem m := by
  have hlen : (l ++ [0]).length = l.length + 1 := List.length_append
  have hbytes : (Int32.ofNat l.length + 1).toInt.toNat = l.length + 1 := by
    rw [show Int32.ofNat l.length + 1 = Int32.ofNat (l.length + 1) by
      rw [Int32.ofNat_add]; rfl, Int32.toInt_ofNat_of_lt (by omega)]
    rfl
  have hcopy := memoryCopy_run (k := k) hbytes fun a ha hd =>
    hapart a ha (hd.mono (by omega))
  have hcopied : BytesAt (k.mem.write (blockAddr f) (l.length + 1)
      fun i => k.mem (ff + UInt32.ofNat i)) (blockAddr f) (l ++ [0]) :=
    bytesAt_write (by omega) (by omega) fun i hi => hff i hi
  generalize hm₁ : (k.mem.write (blockAddr f) (l.length + 1)
      fun i => k.mem (ff + UInt32.ofNat i)) = m₁ at *
  have hoff₁ : SameOff (Span (blockAddr f) (l.length + 1)) k.mem m₁ := hm₁ ▸ sameOff_write
  obtain ⟨m₂, hsplit, hnames, hoff₂⟩ := strsplit_run (k := { k with mem := m₁ }) slash
    h0 hcopied hfuel (by omega)
  exact ⟨_, m₂, strlen_run (isStr_of_bytesAt h0 hff) hfuel, hcopy, hsplit, hnames,
    hoff₁.trans (hoff₂.mono fun a ha => ha.mono (by omega))⟩

omit [Layout] in
/-- Behind the first character of the copy are the other segments. Of an empty string there
are none, and the page is zero. -/
theorem segments_behind {m₀ m : Mem} {p : UInt32} {l : List UInt8}
    (h : BytesAt m p ((l.map fun b => if b = slash then 0 else b) ++ [0]))
    (hzero : ∀ a, Span p 0x1000 a → m₀ a = 0) (hoff : SameOff (Span p (l.length + 1)) m₀ m) :
    BytesAt m (p + UInt32.ofNat 1) (nameStrings (l.tail.splitOn slash)) := by
  cases l with
  | nil =>
      refine bytesAt_cons.mpr ⟨?_, bytesAt_nil⟩
      rw [hoff _ fun hfirst => ?_, hzero _ (span_add (by omega) (by omega))]
      rw [Span, toNat_sub_add_ofNat (by omega)] at hfirst
      exact Nat.lt_irrefl _ hfirst
  | cons b l =>
      rw [List.map_cons, List.cons_append, bytesAt_cons, map_splitOn] at h
      exact h.2

/-- The pages of the search are taken, and the segments behind the first character lie in
theirs. -/
structure SetUp {δ : Type} (k k' : Kernel δ) (i r f : Nat) (l : List UInt8) : Prop where
  pages : Pages k'.kMemoryMap i r f
  count : freeCount k'.kMemoryMap + 3 = freeCount k.kMemoryMap
  last : f + freeCount k'.kMemoryMap < kMemoryMapEntries
  dev : k'.dev = k.dev
  free : ∀ a, FreeAt k'.kMemoryMap a ∨ Span (blockAddr r) 0x1000 a ∨
    Span (blockAddr i) 0x1000 a → FreeAt k.kMemoryMap a
  zero : ∀ a, Span (blockAddr r) 0x1000 a ∨ Span (blockAddr i) 0x1000 a → k'.mem a = 0
  names : BytesAt k'.mem (blockAddr f + UInt32.ofNat 1) (nameStrings (l.tail.splitOn slash))
  mem : SameOff (FreeAt k.kMemoryMap) k.mem k'.mem

omit [Layout] in
theorem toInt_count {n : Nat} (hn : n < 0x1000) : (Int32.ofNat n + 1).toInt = n + 1 := by
  rw [show Int32.ofNat n + 1 = Int32.ofNat (n + 1) by rw [Int32.ofNat_add]; rfl,
    Int32.toInt_ofNat_of_lt (by omega)]
  rfl

omit [Layout] in
/-- More than one segment: the string has a slash. -/
theorem one_lt_segments {l : List UInt8} (hl : l.length < 0x1000) :
    (1 : Int32) < Int32.ofNat (l.count slash) + 1 ↔ slash ∈ l := by
  rw [Int32.lt_iff_toInt_lt, toInt_count (Nat.lt_of_le_of_lt List.count_le_length hl),
    ← List.count_pos_iff]
  show (1 : Int) < _ ↔ _
  omega

/-- `ext2_find_file_inode` up to the split of the string. -/
def ext2FindSetup {δ : Type} (fuel : Nat) (ff : UInt32) :
    Kern δ (UInt32 × UInt32 × UInt32 × Int32) := do
  let inode ← kmalloc 1
  let rootBuf ← kmalloc 1
  let filename ← kmalloc 1
  let len ← strlen fuel (chars (← get).mem ff)
  memoryCopy ff filename (len + 1)
  let n ← strsplit fuel filename slash
  return (inode, rootBuf, filename + 1, n)

theorem ext2FindFileInode_eq {δ : Type} (ide : Ide δ) (dev : DeviceInfo) (priv : Ext2PrivData)
    (fuel : Nat) (ff inodeBuf : UInt32) :
    ext2FindFileInode ide dev priv fuel ff inodeBuf = (do
      let (inode, rootBuf, filename, n) ← ext2FindSetup fuel ff
      if 1 < n then
        ext2FindFromRoot ide dev priv fuel ff inodeBuf inode rootBuf filename
          (n.toInt.toNat - 1)
      else
        let _ ← ext2ReadRootDirectory ide dev priv fuel filename inode
        memoryCopy inode inodeBuf 128
        ext2FindRelease filename inode rootBuf
        return 0) := by
  simp only [ext2FindFileInode, ext2FindSetup, bind_assoc, pure_bind]

theorem ext2FindSetup_ok {δ : Type} {k : Kernel δ} {ff : UInt32} {l : List UInt8} {fuel : Nat}
    (hff : HoldsString k ff l) (hfuel : l.length < fuel) (hfree : 3 ≤ freeCount k.kMemoryMap) :
    ∃ i r f k', SetUp k k' i r f l ∧ (ext2FindSetup fuel ff).run k =
      .ok (blockAddr i, blockAddr r, blockAddr f + UInt32.ofNat 1,
        Int32.ofNat (l.count slash) + 1) k' := by
  obtain ⟨i, k₁, h₁⟩ := kmalloc_takes (k := k) (by omega)
  have hcount₁ := h₁.count
  obtain ⟨r, k₂, h₂⟩ := kmalloc_takes (k := k₁) (by omega)
  have hcount₂ := h₂.count
  obtain ⟨f, k₃, h₃⟩ := kmalloc_takes (k := k₂) (by omega)
  have hcount₃ := h₃.count
  have hroom₃ := h₃.room
  have hpages := findPages h₁ h₂ h₃
  have hmap : ∀ a, FreeAt k₂.kMemoryMap a → FreeAt k.kMemoryMap a := fun a ha =>
    h₁.freeAt a (h₂.freeAt a ha)
  have hsame : SameOff (FreeAt k.kMemoryMap) k.mem k₃.mem :=
    (h₁.sameOff.trans (h₂.sameOff.mono h₁.freeAt)).trans (h₃.sameOff.mono hmap)
  have hpage : ∀ a, Span (blockAddr f) 0x1000 a → FreeAt k.kMemoryMap a := fun a ha =>
    hmap a ⟨f, h₃.lt, h₃.free, ha⟩
  have hlen : (l ++ [0]).length = l.length + 1 := List.length_append
  have hshort := hff.short
  obtain ⟨k₄, m, hstrlen, hcopy, hsplit, hbytes, hoff⟩ := splitString_ok (k := k₃) (f := f)
    hff.nonzero hshort hfuel (hff.string.congr (by omega) fun a ha =>
      hsame a (hff.apart a (by rwa [hlen] at ha))) fun a ha hd => hff.apart a ha (hpage a hd)
  have hzero : ∀ a, Span (blockAddr r) 0x1000 a ∨ Span (blockAddr i) 0x1000 a → m a = 0 := by
    rintro a (ha | ha)
    · have hfile : ¬ Span (blockAddr f) 0x1000 a := fun hf =>
        hpages.root_file (block_disjoint h₂.lt h₃.lt ha hf)
      rw [hoff a (fun hf => hfile (hf.mono (by omega))), h₃.mem, Mem.write_off hfile, h₂.mem,
        Mem.write_in ha]
    · have hfile : ¬ Span (blockAddr f) 0x1000 a := fun hf =>
        hpages.inode_file (block_disjoint h₁.lt h₃.lt ha hf)
      have hroot : ¬ Span (blockAddr r) 0x1000 a := fun hr =>
        hpages.inode_root (block_disjoint h₁.lt h₂.lt ha hr)
      rw [hoff a (fun hf => hfile (hf.mono (by omega))), h₃.mem, Mem.write_off hfile, h₂.mem,
        Mem.write_off hroot, h₁.mem, Mem.write_in ha]
  refine ⟨i, r, f, { k₃ with mem := m }, ⟨hpages, ?_, ?_, ?_, ?_, hzero, ?_, ?_⟩, ?_⟩
  · show freeCount k₃.kMemoryMap + 3 = _
    omega
  · show f + freeCount k₃.kMemoryMap < _
    omega
  · exact h₃.dev.trans (h₂.dev.trans h₁.dev)
  · rintro a (ha | ha | ha)
    · exact hmap a (h₃.freeAt a ha)
    · exact h₁.freeAt a ⟨r, h₂.lt, h₂.free, ha⟩
    · exact ⟨i, h₁.lt, h₁.free, ha⟩
  · exact segments_behind hbytes (fun a ha => by rw [h₃.mem, Mem.write_in ha]) hoff
  · exact hsame.trans (hoff.mono fun a ha => hpage a (ha.mono (by omega)))
  · rw [ext2FindSetup, Exec.bind_ok h₁.run, Exec.bind_ok h₂.run, Exec.bind_ok h₃.run,
      Exec.bind_ok (EStateM.run_get k₃), Exec.bind_ok hstrlen, Exec.bind_ok hcopy,
      Exec.bind_ok hsplit]
    rfl

/-- Everything before the first inode is read. -/
theorem findSetup_ok {δ : Type} (ide : Ide δ) (dev : DeviceInfo) {k : Kernel δ} {ff : UInt32}
    {l : List UInt8} {fuel : Nat} (priv : Ext2PrivData) (inodeBuf : UInt32)
    (hff : HoldsString k ff l) (hfuel : l.length < fuel) (hfree : 3 ≤ freeCount k.kMemoryMap) :
    ∃ i r f k', SetUp k k' i r f l ∧
      (ext2FindFileInode ide dev priv fuel ff inodeBuf).run k = (if slash ∈ l then
          ext2FindFromRoot ide dev priv fuel ff inodeBuf (blockAddr i) (blockAddr r)
            (blockAddr f + UInt32.ofNat 1) (searchNames l).length
        else do
          let _ ← ext2ReadRootDirectory ide dev priv fuel (blockAddr f + UInt32.ofNat 1)
            (blockAddr i)
          memoryCopy (blockAddr i) inodeBuf 128
          ext2FindRelease (blockAddr f + UInt32.ofNat 1) (blockAddr i) (blockAddr r)
          return 0 : Kern δ UInt8).run k' := by
  have hshort := hff.short
  obtain ⟨i, r, f, k', hsetup, hrun⟩ := ext2FindSetup_ok hff hfuel hfree
  have hcount : (Int32.ofNat (l.count slash) + 1).toInt = l.count slash + 1 :=
    toInt_count (Nat.lt_of_le_of_lt List.count_le_length hshort)
  refine ⟨i, r, f, k', hsetup, ?_⟩
  rw [ext2FindFileInode_eq, Exec.bind_ok hrun]
  simp only [one_lt_segments hshort, hcount, length_searchNames]
  rw [show ((l.count slash : Int) + 1).toNat - 1 = l.count slash by omega]

/-- Three pages are needed to begin a search. -/
theorem ext2FindSetup_noPages {δ : Type} {k : Kernel δ} {fuel : Nat} (ff : UInt32)
    (hfree : freeCount k.kMemoryMap < 3) :
    ∃ k', (ext2FindSetup fuel ff).run k = .error (.exit 2) k' := by
  rw [ext2FindSetup]
  refine kmalloc_bind_exit fun i k₁ h₁ => kmalloc_bind_exit fun r k₂ h₂ => ?_
  have hcount₁ := h₁.count
  have hcount₂ := h₂.count
  obtain ⟨k', hexit⟩ := kmalloc_stops (k := k₂) (by omega)
  exact ⟨k', Exec.bind_error hexit⟩

theorem ext2FindFileInode_noPages {δ : Type} (ide : Ide δ) {dev : DeviceInfo} {k : Kernel δ}
    {priv : Ext2PrivData} {fuel : Nat} (ff inodeBuf : UInt32)
    (hfree : freeCount k.kMemoryMap < 3) :
    ∃ k', (ext2FindFileInode ide dev priv fuel ff inodeBuf).run k = .error (.exit 2) k' := by
  obtain ⟨k', hexit⟩ := ext2FindSetup_noPages ff hfree
  exact ⟨k', by rw [ext2FindFileInode_eq, Exec.bind_error hexit]⟩

/-! ## From the root's inode on -/

variable {k : Kernel Disk} {rel sectors fuel : Nat} {dev : DeviceInfo} {priv : Ext2PrivData}
  {ff : UInt32} {l : List UInt8} {path : List (List UInt8)}

/-- The root's inode is read to its page, and the search can start. -/
theorem readRoot_ok {disk : Disk} {i r f : Nat} (hv : Volume dev rel priv disk)
    (hl : InodeReadable rel disk 2) (hk : k.dev = disk) (hpages : Pages k.kMemoryMap i r f)
    (hfree : 2 ≤ freeCount k.kMemoryMap)
    (htail : ∀ a, Span (blockAddr r + UInt32.ofNat 1024) 0xC00 a → k.mem a = 0)
    (hnames : BytesAt k.mem (blockAddr f + UInt32.ofNat 1) (nameStrings path))
    (hroom : 1 + (nameStrings path).length ≤ 0x1000) :
    ∃ k', (ext2ReadInode Disk.ide dev priv 2 (blockAddr i)).run k = .ok () k' ∧
      k'.dev = disk ∧ k'.kMemoryMap = taken k.kMemoryMap ∧
      Searching k' disk.content i r f 1 2 path ∧
      SameOff (fun a => FreeAt k.kMemoryMap a ∨ Span (blockAddr i) 128 a) k.mem k'.mem := by
  obtain ⟨k', hrun, hdev, hmap, hinode, hoff⟩ := ext2ReadInode_ok (n := 2) hv hk .root hl
    hfree
    fun a ha => not_freeAt_busy hpages.inode_lt hpages.inode_busy (ha.mono (by omega))
  refine ⟨k', hrun, hdev, hmap, ⟨?_, hinode, ?_, ?_, hroom⟩, hoff⟩
  · rw [hmap]
    exact pages_taken hpages
  · intro a ha
    exact (hoff a (page_apart hpages.root_lt hpages.root_busy hpages.inode_lt
      hpages.inode_root.symm (by omega) (ha.sub (by omega) (by omega)))).trans (htail a ha)
  · exact hnames.congr (by omega) fun a ha => hoff a (page_apart hpages.file_lt
      hpages.file_busy hpages.inode_lt hpages.inode_file.symm (by omega)
      (ha.sub (by omega) (by omega)))

/-- The block `kfree` computes for the pointer behind the last name: the page
of the names or the one after it. -/
theorem fileBlock_lt {f off : Nat} (hf : f + 1 < kMemoryMapEntries) (hoff : off ≤ 0x1000) :
    ((blockAddr f + UInt32.ofNat off - Layout.kmallocMemory) / blockSize).toNat <
      kMemoryMapEntries := by
  have hbase := toNat_blockAddr (i := f) (by omega)
  have hfits := Layout.kmallocMemory_fits
  simp only [kMemoryMapEntries] at hf hfits ⊢
  rw [UInt32.toNat_div, UInt32.toNat_sub, UInt32.toNat_add, UInt32.toNat_ofNat', hbase,
    show blockSize.toNat = 4096 from rfl]
  omega

/-- The end of a search that copies what is in the page of the inode. -/
theorem findReturn_ok {i r f : Nat} (off : Nat) (inodeBuf : UInt32) (v : UInt8)
    (hi : i < kMemoryMapEntries) (hr : r < kMemoryMapEntries) (hf : f + 1 < kMemoryMapEntries)
    (hoff : off ≤ 0x1000) :
    ∃ k', (do
      memoryCopy (blockAddr i) inodeBuf 128
      ext2FindRelease (blockAddr f + UInt32.ofNat off) (blockAddr i) (blockAddr r)
      return v : Kern Disk UInt8).run k = .ok v k' ∧
      ∀ {c : Image} {place : Nat}, (∀ a, Span (blockAddr i) 128 a → ¬ Span inodeBuf 128 a) →
        Mirrors k.mem (blockAddr i) 128 c place → Mirrors k'.mem inodeBuf 128 c place := by
  obtain ⟨k₁, hcopy⟩ : ∃ k₁, (memoryCopy (blockAddr i) inodeBuf 128).run k = .ok () k₁ :=
    ⟨_, rfl⟩
  obtain ⟨k₂, hrelease, hmem⟩ := ext2FindRelease_ok (k := k₁) hi hr (fileBlock_lt hf hoff)
  refine ⟨k₂, by rw [Exec.bind_ok hcopy, Exec.bind_ok hrelease, EStateM.run_pure], ?_⟩
  intro c place hapart hpage
  obtain ⟨k₃, hcopy', hbytes, -⟩ := memoryCopy_mirrors
    (show (128 : Int32).toInt.toNat = 128 from rfl) hapart hpage
  rw [hcopy] at hcopy'
  injection hcopy' with _ heq
  rw [hmem, heq]
  exact hbytes

/-! ## Where a search ends -/

/-- The state a search for `l` ends in, and the names that are left. -/
def searchEnd (c : Image) (l : List UInt8) : SearchState × List (List UInt8) :=
  followTo (searchStep c) ⟨2, 0, 0⟩ (searchNames l)

/-- The driver may look for every name on the way. -/
def Explores (c : Image) (l : List UInt8) : Prop :=
  Along (searchStep c) (Passable c) ⟨2, 0, 0⟩ (searchNames l)

/-- What a search returns, and the place on the volume that its 128 bytes come from if it
copies any. -/
structure Outcome where
  value : UInt8
  source : Option Nat
deriving DecidableEq

/-- The outcome of a search for `l` that ends here. -/
def outcomeAt (c : Image) (l : List UInt8) : SearchState × List (List UInt8) → Outcome
  | (s, []) => ⟨s.retnode.toUInt8, some (inodeOff c s.inode)⟩
  | (s, name :: _) => ⟨missingValue l s.retnode name, none⟩

/-- The buffer holds what was copied from the volume, or what it held before. -/
def Receives (c : Image) (m m' : Mem) (inodeBuf : UInt32) : Option Nat → Prop
  | some place => Mirrors m' inodeBuf 128 c place
  | none => ∀ a, Span inodeBuf 128 a → m' a = m a

/-- The run up to the loop over the names. -/
theorem findSearch_ok (inodeBuf : UInt32) (hv : Volume dev rel priv k.dev)
    (hl : InodeReadable rel k.dev 2) (hff : HoldsString k ff l) (hslash : slash ∈ l)
    (hfuel : l.length < fuel)
    (hfree : 5 ≤ freeCount k.kMemoryMap) :
    ∃ i r f k', Searching k' k.dev.content i r f 1 2 (searchNames l) ∧
      f + 1 < kMemoryMapEntries ∧ k'.dev = k.dev ∧
      freeCount k'.kMemoryMap + 4 = freeCount k.kMemoryMap ∧
      (∀ a, Written k'.kMemoryMap i r a → FreeAt k.kMemoryMap a) ∧
      SameOff (FreeAt k.kMemoryMap) k.mem k'.mem ∧
      (ext2FindFileInode Disk.ide dev priv fuel ff inodeBuf).run k = (do
        match ← ext2FindLoop Disk.ide dev priv fuel ff (blockAddr i) (blockAddr r)
            (searchNames l).length (blockAddr f + UInt32.ofNat 1) 0 with
        | .error r => return r
        | .ok (filename, retnode) =>
            memoryCopy (blockAddr i) inodeBuf 128
            ext2FindRelease filename (blockAddr i) (blockAddr r)
            return retnode.toUInt8 : Kern Disk UInt8).run k' := by
  obtain ⟨i, r, f, k₁, h₁, hrun⟩ :=
    findSetup_ok Disk.ide dev priv inodeBuf hff hfuel (by omega)
  have hcount := h₁.count
  have hlast := h₁.last
  have hshort := hff.short
  have hlen := length_nameStrings_searchNames l
  have hnames := h₁.names
  rw [nameStrings_searchNames, bytesAt_append] at hnames
  obtain ⟨k₂, hroot, hdev₂, hmap₂, h₂, hoff₂⟩ := readRoot_ok hv hl h₁.dev h₁.pages
    (by omega) (fun a ha => h₁.zero a (.inl (ha.sub (by omega) (by omega)))) hnames.1 (by omega)
  have hpage : freeCount (taken k₁.kMemoryMap) + 1 = freeCount k₁.kMemoryMap :=
    freeCount_taken (by omega)
  refine ⟨i, r, f, k₂, h₂, by omega, hdev₂, by rw [hmap₂]; omega, ?_, ?_, ?_⟩
  · rintro a (ha | ha | ha)
    · exact h₁.free a (.inl ((freeAt_taken (by omega)).mp (hmap₂ ▸ ha)).1)
    · exact h₁.free a (.inr (.inl (ha.mono (by omega))))
    · exact h₁.free a (.inr (.inr (ha.mono (by omega))))
  · refine h₁.mem.trans (hoff₂.mono fun a ha => h₁.free a ?_)
    exact ha.imp_right fun ha => .inr (ha.mono (by omega))
  · rw [hrun, if_pos hslash, ext2FindFromRoot]
    exact Exec.bind_ok hroot

/-- With pages enough, a search for a string with a slash returns what its end says, and
leaves that in a buffer outside the free pages. -/
theorem ext2FindFileInode_search (inodeBuf : UInt32) (hm : Mounted dev rel sectors priv k.dev)
    (hff : HoldsString k ff l) (hslash : slash ∈ l) (hfuel : 0x1000 ≤ fuel)
    (hpass : Explores k.dev.content l)
    (hfree : 5 + (searchEnd k.dev.content l).1.reads ≤ freeCount k.kMemoryMap) :
    ∃ k', (ext2FindFileInode Disk.ide dev priv fuel ff inodeBuf).run k =
        .ok (outcomeAt k.dev.content l (searchEnd k.dev.content l)).value k' ∧
      ((∀ a, Span inodeBuf 128 a → ¬ FreeAt k.kMemoryMap a) →
        Receives k.dev.content k.mem k'.mem inodeBuf
          (outcomeAt k.dev.content l (searchEnd k.dev.content l)).source) := by
  have hshort := hff.short
  obtain ⟨i, r, f, k₁, h₁, hlast, hdev₁, hcount₁, hwritten, hsame, hrun⟩ :=
    findSearch_ok inodeBuf hm.volume (hm.inodeReadable .root) hff hslash
      (show l.length < fuel by omega) (by omega)
  have hlen : (l ++ [0]).length = l.length + 1 := List.length_append
  have hp := h₁.pages
  have hroom := h₁.room
  obtain ⟨k₂, hloop, hoff₂, hinode⟩ := ext2FindLoop_ok (s := ⟨2, 0, 0⟩) ff hm hdev₁ h₁ .root
    hpass ⟨hff.string.congr (by omega) fun a ha => hsame a (hff.apart a (by rwa [hlen] at ha)),
      fun a ha hw => hff.apart a ha (hwritten a hw), hff.nonzero, hshort⟩
    (fun name => zero_not_mem_searchNames hff.nonzero) hfuel rfl
    (show _ ≤ freeCount k₁.kMemoryMap + 0 by rw [searchEnd] at hfree; omega)
  rw [hrun, Exec.bind_ok hloop]
  have hend : followTo (searchStep k.dev.content) ⟨2, 0, 0⟩ (searchNames l) =
    searchEnd k.dev.content l := rfl
  rw [hend] at hinode ⊢
  rcases hs : searchEnd k.dev.content l with ⟨s, rest⟩
  rw [hs] at hinode
  cases rest with
  | nil =>
      obtain ⟨k₃, hreturn, hbytes⟩ := findReturn_ok (k := k₂) (f := f)
        (1 + (nameStrings (searchNames l)).length) inodeBuf s.retnode.toUInt8 hp.inode_lt
        hp.root_lt hlast hroom
      refine ⟨k₃, hreturn, fun hbuf => hbytes (fun a ha hb => ?_) (hinode rfl)⟩
      exact hbuf a hb (hwritten a (.inr (.inr ha)))
  | cons name rest =>
      exact ⟨k₂, rfl, fun hbuf a ha => (hoff₂ a fun hw => hbuf a ha (hwritten a hw)).trans
        (hsame a (hbuf a ha))⟩

/-- Without the pages for every inode on the way the kernel stops. -/
theorem ext2FindFileInode_searchExit (inodeBuf : UInt32)
    (hm : Mounted dev rel sectors priv k.dev) (hff : HoldsString k ff l) (hslash : slash ∈ l)
    (hfuel : 0x1000 ≤ fuel) (hpass : Explores k.dev.content l)
    (hfree : freeCount k.kMemoryMap < 5 + (searchEnd k.dev.content l).1.reads) :
    ∃ k', (ext2FindFileInode Disk.ide dev priv fuel ff inodeBuf).run k =
      .error (.exit 2) k' := by
  have hshort := hff.short
  rcases Nat.lt_or_ge (freeCount k.kMemoryMap) 3 with hfew | hthree
  · exact ext2FindFileInode_noPages Disk.ide ff inodeBuf hfew
  rcases Nat.lt_or_ge (freeCount k.kMemoryMap) 5 with hfew | hfive
  · obtain ⟨i, r, f, k₁, h₁, hrun⟩ := findSetup_ok Disk.ide dev priv inodeBuf hff
      (show l.length < fuel by omega) hthree
    have hcount := h₁.count
    obtain ⟨k₂, hexit⟩ := ext2ReadInode_exit (k := k₁) 2 (blockAddr i) hm (by omega)
    rw [hrun, if_pos hslash, ext2FindFromRoot]
    exact ⟨k₂, Exec.bind_error hexit⟩
  · obtain ⟨i, r, f, k₁, h₁, -, hdev₁, hcount₁, -, -, hrun⟩ :=
      findSearch_ok inodeBuf hm.volume (hm.inodeReadable .root) hff hslash
        (show l.length < fuel by omega) hfive
    obtain ⟨k₂, hexit⟩ := ext2FindLoop_exit (s := ⟨2, 0, 0⟩) ff hm hdev₁ h₁ .root hpass
      (fun name => zero_not_mem_searchNames hff.nonzero) hfuel rfl (by omega)
      (show freeCount k₁.kMemoryMap + 0 < _ by rw [searchEnd] at hfree; omega)
    rw [hrun]
    exact ⟨k₂, Exec.bind_error hexit⟩

end

end Bedrock
