import Bedrock.Proofs.Ext2Directory

/-!
# The search along a path

The `while` loop of `ext2_find_file_inode`, from a state in which the inode of a
directory and the names still to follow are in their pages (`Searching`).

A round looks at the first block of the directory only, and there as far as the
first unused entry; a name in a file without a first block is passed over. Over
a whole path the loop therefore takes the walk along `searchStep`, as long as
that reads no data as directory entries that lead astray (`ext2FindLoop_ok`).
Every inode it reads costs a page, and without pages the kernel stops
(`ext2FindLoop_exit`).
-/

namespace Bedrock

open Lib Image

/-! ## Paths -/

/-- The characters of `/c1/c2/…/ck`. -/
def pathString (path : List (List UInt8)) : List UInt8 :=
  path.flatMap fun name => slash :: name

/-- An absolute path of non-empty names that fits in a page. -/
structure IsPath (path : List (List UInt8)) : Prop where
  nonempty : path ≠ []
  names : ∀ name ∈ path, name ≠ [] ∧ 0 ∉ name ∧ slash ∉ name
  short : (pathString path).length < 0x1000

/-- The names of a path, one terminated string after the other. -/
def nameStrings (path : List (List UInt8)) : List UInt8 :=
  path.flatMap fun name => name ++ [0]

theorem nameStrings_cons (name : List UInt8) (path : List (List UInt8)) :
    nameStrings (name :: path) = (name ++ [0]) ++ nameStrings path := rfl

theorem zero_not_mem_pathString {path : List (List UInt8)}
    (h : ∀ name ∈ path, 0 ∉ name) : 0 ∉ pathString path := by
  intro h0
  obtain ⟨name, hname, hmem⟩ := List.mem_flatMap.mp h0
  rcases List.mem_cons.mp hmem with hslash | hin
  · exact absurd hslash (by decide)
  · exact h name hname hin

/-- `strsplit` finds as many delimiters as there are names. -/
theorem count_pathString {path : List (List UInt8)}
    (h : ∀ name ∈ path, slash ∉ name) : (pathString path).count slash = path.length := by
  induction path with
  | nil => rfl
  | cons name path ih =>
      have hname := h name List.mem_cons_self
      rw [pathString, List.flatMap_cons, List.cons_append, List.count_cons_self,
        List.count_append, List.count_eq_zero.mpr hname, Nat.zero_add, List.length_cons]
      exact congrArg (· + 1) (ih fun n hn => h n (List.mem_cons_of_mem _ hn))

/-! ## The blocks of the search -/

/-- The driver may look for the name in `d`: it is a directory, or a file whose
first block misses the name. -/
def Searchable (c : Image) (d : UInt32) (name : List UInt8) : Prop :=
  IsDirectory c d ∨ Misses c d name

theorem Searchable.scans {c : Image} {d : UInt32} {name : List UInt8} (hc : WellFormed c)
    (hd : Reachable c d) (h : Searchable c d name) :
    Scans c d name (lookupListed c d name) := by
  by_cases hdir : IsDirectory c d
  · exact scans_directory hc hd hdir name
  · rw [lookupListed, if_neg hdir]
    exact scans_misses (h.resolve_left hdir)

/-! ## The way of the search -/

/-- Where the search is: the inode it has in its page, `retnode`, and how many inodes it
has read behind the root's. -/
structure SearchState where
  inode : UInt32
  retnode : UInt32
  reads : Nat
deriving DecidableEq

/-- The search at a name. In a file without a first block the name is passed over. -/
def searchStep (c : Image) (s : SearchState) (name : List UInt8) : Option SearchState :=
  if directBlock c s.inode 0 = 0 then some s
  else (lookupListed c s.inode name).map fun n => ⟨n, n, s.reads + 1⟩

/-- There is nothing to look in for the name, or the driver may look there. -/
def Passable (c : Image) (s : SearchState) (name : List UInt8) : Prop :=
  directBlock c s.inode 0 = 0 ∨ Searchable c s.inode name

section

variable {c : Image} {s t : SearchState} {name : List UInt8}

theorem searchStep_skip (name : List UInt8) (h : directBlock c s.inode 0 = 0) :
    searchStep c s name = some s := if_pos h

theorem searchStep_found {n : UInt32} (h : directBlock c s.inode 0 ≠ 0)
    (hn : lookupListed c s.inode name = some n) :
    searchStep c s name = some ⟨n, n, s.reads + 1⟩ := by
  rw [searchStep, if_neg h, hn]
  rfl

theorem searchStep_missing (h : directBlock c s.inode 0 ≠ 0)
    (hn : lookupListed c s.inode name = none) : searchStep c s name = none := by
  rw [searchStep, if_neg h, hn]
  rfl

theorem searchStep_reads (h : searchStep c s name = some t) : s.reads ≤ t.reads := by
  rw [searchStep] at h
  split at h
  · injection h with h
    exact Nat.le_of_eq (congrArg SearchState.reads h)
  · obtain ⟨n, -, rfl⟩ := Option.map_eq_some_iff.mp h
    exact Nat.le_succ s.reads

theorem searchStep_reachable (hc : WellFormed c) (hs : Reachable c s.inode)
    (h : searchStep c s name = some t) : Reachable c t.inode := by
  rw [searchStep] at h
  split at h
  · injection h with h
    exact h ▸ hs
  · obtain ⟨n, hn, rfl⟩ := Option.map_eq_some_iff.mp h
    exact reachable_of_lookup hs (lookup_of_listed hc hs hn)

/-- The inodes read only become more. -/
theorem reads_le_followTo (s : SearchState) (path : List (List UInt8)) :
    s.reads ≤ (followTo (searchStep c) s path).1.reads :=
  followTo_invariant (I := fun t => s.reads ≤ t.reads)
    (fun _ _ _ hs h => Nat.le_trans hs (searchStep_reads h)) (Nat.le_refl _) path

end

/-- What the function returns at a name that is not there, if it was called with `l`. -/
def missingValue (l : List UInt8) (retnode : UInt32) (name : List UInt8) : UInt8 :=
  if name = [] then
    if l = [slash] then 1 else retnode.toUInt8
  else 0

/-- What the loop ends with where the search does. -/
def searchResult (l : List UInt8) (filename : UInt32) :
    SearchState × List (List UInt8) → Except UInt8 (UInt32 × UInt32)
  | (s, []) => .ok (filename, s.retnode)
  | (s, name :: _) => .error (missingValue l s.retnode name)

/-! ## The pages of the search -/

section

variable [Layout]

/-- A page in use is not free. -/
theorem not_freeAt_busy {map : Vector UInt8 kMemoryMapEntries} {i : Nat} {a : UInt32}
    (hi : i < kMemoryMapEntries) (hbusy : map[i] ≠ 0)
    (ha : Span (blockAddr i) 0x1000 a) : ¬ FreeAt map a := by
  rintro ⟨j, hj, h0, hj'⟩
  obtain rfl := block_disjoint hi hj ha hj'
  exact hbusy h0

/-- A page in use shares nothing with the free pages and another page. -/
theorem page_apart {map : Vector UInt8 kMemoryMapEntries} {i j n : Nat} {a : UInt32}
    (hi : i < kMemoryMapEntries) (hbusy : map[i] ≠ 0) (hj : j < kMemoryMapEntries)
    (hne : i ≠ j) (hn : n ≤ 0x1000) (ha : Span (blockAddr i) 0x1000 a) :
    ¬ (FreeAt map a ∨ Span (blockAddr j) n a) := by
  rintro (hfree | hspan)
  · exact not_freeAt_busy hi hbusy ha hfree
  · exact hne (block_disjoint hi hj ha (hspan.mono hn))

end

/-- Three different pages in use: for the inode, for a directory block and for
the names. -/
structure Pages (map : Vector UInt8 kMemoryMapEntries) (i r f : Nat) : Prop where
  inode_lt : i < kMemoryMapEntries
  root_lt : r < kMemoryMapEntries
  file_lt : f < kMemoryMapEntries
  inode_root : i ≠ r
  inode_file : i ≠ f
  root_file : r ≠ f
  inode_busy : map[i] ≠ 0
  root_busy : map[r] ≠ 0
  file_busy : map[f] ≠ 0

theorem busy_taken {map : Vector UInt8 kMemoryMapEntries} {i : Nat}
    (hi : i < kMemoryMapEntries) (h : map[i] ≠ 0) : (taken map)[i] ≠ 0 := by
  rw [taken, getElem_mapRange]
  split
  · decide
  · exact h

theorem pages_taken {map : Vector UInt8 kMemoryMapEntries} {i r f : Nat}
    (h : Pages map i r f) : Pages (taken map) i r f := by
  exact ⟨h.inode_lt, h.root_lt, h.file_lt, h.inode_root, h.inode_file, h.root_file,
    busy_taken h.inode_lt h.inode_busy, busy_taken h.root_lt h.root_busy,
    busy_taken h.file_lt h.file_busy⟩

section

variable [Layout] {k : Kernel Disk} {c : Image} {i r f off : Nat} {d : UInt32}
  {path : List (List UInt8)}

/-- The state of the search at `d`, with `path` still to follow: the inode of
`d` is in its page, the page for directory blocks is zero behind its first 1024
bytes, and the names lie from `off` on. -/
structure Searching (k : Kernel Disk) (c : Image) (i r f off : Nat) (d : UInt32)
    (path : List (List UInt8)) : Prop where
  pages : Pages k.kMemoryMap i r f
  inode : Mirrors k.mem (blockAddr i) 128 c (inodeOff c d)
  tail : ∀ a, Span (blockAddr r + UInt32.ofNat 1024) 0xC00 a → k.mem a = 0
  names : BytesAt k.mem (blockAddr f + UInt32.ofNat off) (nameStrings path)
  room : off + (nameStrings path).length ≤ 0x1000

/-- The rest of the names lies in their page. -/
theorem Searching.names_in (h : Searching k c i r f off d path) {a : UInt32}
    (ha : Span (blockAddr f + UInt32.ofNat off) (nameStrings path).length a) :
    Span (blockAddr f) 0x1000 a := ha.sub h.room (by omega)

/-- The next name comes first, and the others behind it. -/
theorem Searching.name_at {name : List UInt8}
    (h : Searching k c i r f off d (name :: path)) :
    BytesAt k.mem (blockAddr f + UInt32.ofNat off) (name ++ [0]) ∧
      BytesAt k.mem (blockAddr f + UInt32.ofNat (off + (name.length + 1)))
        (nameStrings path) := by
  have hnames := h.names
  rwa [nameStrings_cons, bytesAt_append, UInt32.add_assoc, ← UInt32.ofNat_add,
    List.length_append, List.length_singleton] at hnames

theorem Searching.name_room {name : List UInt8}
    (h : Searching k c i r f off d (name :: path)) :
    off + (name.length + 1) + (nameStrings path).length ≤ 0x1000 := by
  have hroom := h.room
  rwa [nameStrings_cons, List.length_append, List.length_append, List.length_singleton,
    ← Nat.add_assoc] at hroom

/-- The search goes on from a state in which only free pages and the buffer for
directory blocks have changed. -/
theorem Searching.of_sameOff {k' : Kernel Disk} (h : Searching k c i r f off d path)
    (hpages : Pages k'.kMemoryMap i r f)
    (hoff : SameOff (fun a => FreeAt k.kMemoryMap a ∨ Span (blockAddr r) 1024 a) k.mem k'.mem) :
    Searching k' c i r f off d path := by
  have hp := h.pages
  have hroom := h.room
  refine ⟨hpages, ?_, fun a ha => ?_, ?_, hroom⟩
  · exact h.inode.congr (by omega) fun a ha => hoff a
      (page_apart hp.inode_lt hp.inode_busy hp.root_lt hp.inode_root (by omega)
        (ha.mono (by omega)))
  · refine (hoff a ?_).trans (h.tail a ha)
    rintro (hfree | hroot)
    · exact not_freeAt_busy hp.root_lt hp.root_busy (ha.sub (by omega) (by omega)) hfree
    · rw [← UInt32.add_zero (blockAddr r)] at hroot
      exact hroot.disjoint_parts (i := 0) (by omega) (by omega) ha
  · exact h.names.congr (by omega) fun a ha => hoff a
      (page_apart hp.file_lt hp.file_busy hp.root_lt hp.root_file.symm (by omega) (h.names_in ha))

theorem Searching.congr {k' : Kernel Disk} (h : Searching k c i r f off d path)
    (hleave : Leaves (fun a => FreeAt k.kMemoryMap a ∨ Span (blockAddr r) 1024 a) k k') :
    Searching k' c i r f off d path :=
  h.of_sameOff (by rw [hleave.kMemoryMap]; exact h.pages) hleave.mem

/-- Reading the next inode to its page. -/
theorem Searching.next {k' : Kernel Disk} {name : List UInt8} {n : UInt32}
    (h : Searching k c i r f off d (name :: path))
    (hmap : k'.kMemoryMap = taken k.kMemoryMap)
    (hinode : Mirrors k'.mem (blockAddr i) 128 c (inodeOff c n))
    (hoff : SameOff (fun a => FreeAt k.kMemoryMap a ∨ Span (blockAddr i) 128 a)
      k.mem k'.mem) :
    Searching k' c i r f (off + (name.length + 1)) n path ∧
      BytesAt k'.mem (blockAddr f + UInt32.ofNat off) (name ++ [0]) := by
  have hp := h.pages
  have hroom := h.name_room
  have hfile : ∀ a, Span (blockAddr f) 0x1000 a → k'.mem a = k.mem a := fun a ha =>
    hoff a (page_apart hp.file_lt hp.file_busy hp.inode_lt hp.inode_file.symm (by omega) ha)
  have hlen : (name ++ [0]).length = name.length + 1 := List.length_append
  refine ⟨⟨?_, hinode, ?_, ?_, hroom⟩, ?_⟩
  · rw [hmap]
    exact pages_taken hp
  · intro a ha
    exact (hoff a (page_apart hp.root_lt hp.root_busy hp.inode_lt hp.inode_root.symm
      (by omega) (ha.sub (by omega) (by omega)))).trans (h.tail a ha)
  · exact h.name_at.2.congr (by omega) fun a ha =>
      hfile a (ha.sub (by omega) (by omega))
  · exact h.name_at.1.congr (by omega) fun a ha =>
      hfile a (ha.sub (by omega) (by omega))

/-- The search passes over the next name. -/
theorem Searching.skip {name : List UInt8} (h : Searching k c i r f off d (name :: path)) :
    Searching k c i r f (off + (name.length + 1)) d path :=
  ⟨h.pages, h.inode, h.tail, h.name_at.2, h.name_room⟩

/-- Where a search writes: in free pages, and in its pages for directory blocks and for an
inode. -/
def Written (map : Vector UInt8 kMemoryMapEntries) (i r : Nat) (a : UInt32) : Prop :=
  FreeAt map a ∨ Span (blockAddr r) 1024 a ∨ Span (blockAddr i) 128 a

theorem Written.of_map {map map' : Vector UInt8 kMemoryMapEntries} {a : UInt32}
    (hmap : ∀ a, FreeAt map' a → FreeAt map a) (h : Written map' i r a) : Written map i r a :=
  h.imp_left (hmap a)

/-- The string the function was called with, where the search does not write. -/
structure HoldsArg (k : Kernel Disk) (i r : Nat) (ff : UInt32) (l : List UInt8) : Prop where
  string : BytesAt k.mem ff (l ++ [0])
  apart : ∀ a, Span ff (l.length + 1) a → ¬ Written k.kMemoryMap i r a
  nonzero : 0 ∉ l
  short : l.length < 0x1000

theorem HoldsArg.congr {k' : Kernel Disk} {ff : UInt32} {l : List UInt8}
    (h : HoldsArg k i r ff l) (hmap : ∀ a, FreeAt k'.kMemoryMap a → FreeAt k.kMemoryMap a)
    (hoff : SameOff (Written k.kMemoryMap i r) k.mem k'.mem) : HoldsArg k' i r ff l := by
  have hshort := h.short
  have hlen : (l ++ [0]).length = l.length + 1 := List.length_append
  refine ⟨h.string.congr (by omega) fun a ha => hoff a (h.apart a (by rwa [hlen] at ha)),
    fun a ha hw => h.apart a ha (hw.of_map hmap), h.nonzero, hshort⟩

theorem Searching.filename_ne_zero (h : Searching k c i r f off d path)
    (hoff : off < 0x1000) : blockAddr f + UInt32.ofNat off ≠ 0 := by
  have hp := h.pages
  have hf := hp.file_lt
  have hbase := toNat_blockAddr (Nat.le_of_lt hf)
  have hkernel := Layout.kmallocMemory_kernel
  have hfits := Layout.kmallocMemory_fits
  simp only [kMemoryMapEntries] at hf hfits
  intro h0
  have hzero := congrArg UInt32.toNat h0
  rw [UInt32.toNat_add, UInt32.toNat_ofNat', show (0 : UInt32).toNat = 0 from rfl] at hzero
  omega

/-- What the scan of a block in the page needs. -/
theorem Searching.dirPage {block : UInt32} {name : List UInt8}
    (h : Searching k c i r f off d (name :: path)) (hfree : 0 < freeCount k.kMemoryMap)
    (hpage : Mirrors k.mem (blockAddr r) 1024 c (1024 * block.toNat)) :
    DirPage k (pageOf c 1024 block.toNat) 0x1000 (blockAddr r) (blockAddr f + UInt32.ofNat off)
      name := by
  have hp := h.pages
  have hroom := h.name_room
  have hlen : (name ++ [0]).length = name.length + 1 := List.length_append
  refine ⟨fun i hi => ?_, ?_, h.name_at.1, ?_, by omega, by omega⟩
  · rw [pageOf, Nat.zero_add]
    by_cases hblock : i < 1024
    · rw [if_pos hblock]
      exact hpage i hblock
    · have hin : Span (blockAddr r + UInt32.ofNat 1024) 0xC00 (blockAddr r + UInt32.ofNat i) := by
        rw [show i = 1024 + (i - 1024) by omega, UInt32.ofNat_add, ← UInt32.add_assoc]
        exact span_add (by omega) (by omega)
      rw [if_neg hblock]
      exact h.tail _ hin
  · exact fun a ha hs => not_freeAt_busy hp.root_lt hp.root_busy ha
      (freeAt_scratch hfree hs)
  · exact fun a ha hs => not_freeAt_busy hp.file_lt hp.file_busy (ha.sub (by omega) (by omega))
      (freeAt_scratch hfree hs)

/-! ## One round -/

variable {dev : DeviceInfo} {rel sectors : Nat} {priv : Ext2PrivData} {disk : Disk}
  {fuel : Nat} {name : List UInt8} (ff retnode : UInt32)

/-- The block in the page is scanned for the name. -/
theorem scanPage_ok {block : UInt32} {es : List DirEntry}
    (h : Searching k c i r f off d (name :: path)) (hfree : 0 < freeCount k.kMemoryMap)
    (hpage : Mirrors k.mem (blockAddr r) 1024 c (1024 * block.toNat))
    (hes : scanEntries (pageOf c 1024 block.toNat) 0x1000 0 = some es)
    (h0 : 0 ∉ name) (hfuel : 0x1000 ≤ fuel) :
    ∃ k', (ext2ReadDirectory fuel (blockAddr f + UInt32.ofNat off) (blockAddr r)).run k =
        .ok (((es.find? fun e => cString e.name = name).map DirEntry.inode).getD 0) k' ∧
      Leaves (Span (scratch k.kMemoryMap) 0x1000) k k' ∧
      Mirrors k'.mem (blockAddr r) 1024 c (1024 * block.toNat) := by
  have hp := h.pages
  have hroom := h.name_room
  obtain ⟨k', hleave, hrun⟩ := ext2ReadDirectoryLoop_ok (h.dirPage hfree hpage) hfree
    (h.filename_ne_zero (by omega)) h0 (show name.length < fuel by omega) hes hfuel
  rw [show UInt32.ofNat 0 = 0 from rfl, UInt32.add_zero] at hrun
  refine ⟨k', hrun, hleave, hpage.congr (by omega) fun a ha => hleave.mem a fun hs => ?_⟩
  exact not_freeAt_busy hp.root_lt hp.root_busy (ha.mono (by omega)) (freeAt_scratch hfree hs)

/-- A block is read to the page and scanned for the name. -/
theorem readScan_ok {b : UInt32} {es : List DirEntry} (hv : Volume dev rel priv disk)
    (hk : k.dev = disk) (h : Searching k disk.content i r f off d (name :: path))
    (hes : scanEntries (pageOf disk.content 1024 b.toNat) 0x1000 0 = some es)
    (hr : Readable rel 2 disk b.toNat) (hfree : 0 < freeCount k.kMemoryMap) (h0 : 0 ∉ name)
    (hfuel : 0x1000 ≤ fuel) :
    ∃ k₁ k₂, (ext2ReadBlock Disk.ide dev priv b (blockAddr r)).run k = .ok () k₁ ∧
      (ext2ReadDirectory fuel (blockAddr f + UInt32.ofNat off) (blockAddr r)).run k₁ =
        .ok (((es.find? fun e => cString e.name = name).map DirEntry.inode).getD 0) k₂ ∧
      Leaves (fun a => FreeAt k.kMemoryMap a ∨ Span (blockAddr r) 1024 a) k k₂ ∧
      Mirrors k₂.mem (blockAddr r) 1024 disk.content (1024 * b.toNat) := by
  have hp := h.pages
  obtain ⟨k₁, hrun₁, hbytes, hleave₁⟩ := ext2ReadBlock_read hv.toHolds hv.blockSize hk hfree hr
    fun a (ha : Span (blockAddr r) 1024 a) hs =>
      not_freeAt_busy hp.root_lt hp.root_busy (ha.mono (by omega)) (freeAt_scratch hfree hs)
  have hleave : Leaves (fun a => FreeAt k.kMemoryMap a ∨ Span (blockAddr r) 1024 a) k k₁ :=
    hleave₁.mono fun a => Or.imp_left (freeAt_scratch hfree)
  obtain ⟨k₂, hrun₂, hleave₂, hbytes₂⟩ := scanPage_ok (h.congr hleave)
    (by rw [hleave₁.kMemoryMap]; exact hfree) hbytes hes h0 hfuel
  rw [hleave₁.kMemoryMap] at hleave₂
  exact ⟨k₁, k₂, hrun₁, hrun₂, hleave.trans (hleave₂.mono fun a ha => .inl
    (freeAt_scratch hfree ha)), hbytes₂⟩

/-- The first block is read and scanned for the name. -/
theorem findScan_ok {found : Option UInt32} (hv : Volume dev rel priv disk)
    (hk : k.dev = disk) (h : Searching k disk.content i r f off d (name :: path))
    (hs : Scans disk.content d name found)
    (hr : Readable rel 2 disk (directBlock disk.content d 0).toNat)
    (hfree : 0 < freeCount k.kMemoryMap) (h0 : 0 ∉ name) (hfuel : 0x1000 ≤ fuel) :
    ∃ k₁ k₂, (ext2ReadBlock Disk.ide dev priv (directBlock disk.content d 0)
        (blockAddr r)).run k = .ok () k₁ ∧
      (ext2ReadDirectory fuel (blockAddr f + UInt32.ofNat off) (blockAddr r)).run k₁ =
        .ok (found.getD 0) k₂ ∧
      Leaves (fun a => FreeAt k.kMemoryMap a ∨ Span (blockAddr r) 1024 a) k k₂ ∧
      Mirrors k₂.mem (blockAddr r) 1024 disk.content
        (1024 * (directBlock disk.content d 0).toNat) := by
  obtain ⟨es, hes, hfound⟩ := hs.scan
  rw [← hfound]
  exact readScan_ok hv hk h hes hr hfree h0 hfuel

theorem load_directBlock {δ : Type} {k : Kernel δ} {t : Nat}
    (hinode : Mirrors k.mem (blockAddr i) 128 c (inodeOff c d)) (ht : t < 12) :
    k.mem.load32 (blockAddr i + 40 + UInt32.ofNat (4 * t)) = directBlock c d t := by
  rw [show (40 : UInt32) = UInt32.ofNat 40 from rfl, UInt32.add_assoc, ← UInt32.ofNat_add,
    hinode.load32 (by omega), ← Nat.add_assoc]
  rfl

/-- The loop over the direct blocks starts with the first one, and ends there
if its round leaves it. -/
theorem forDirectBlocks_some {α : Type} {body : UInt32 → Kern Disk (Option α)}
    {a : α} {k' : Kernel Disk} (hinode : Mirrors k.mem (blockAddr i) 128 c (inodeOff c d))
    (hb : directBlock c d 0 ≠ 0)
    (hbody : (body (directBlock c d 0)).run k = .ok (some a) k') :
    (forDirectBlocks (blockAddr i) body 12 0).run k = .ok (some a) k' := by
  rw [show (12 : Nat) = 11 + 1 from rfl, forDirectBlocks,
    Exec.bind_ok (read32_run _ _), load_directBlock hinode (by decide), if_neg hb,
    Exec.bind_ok hbody]
  rfl

/-- Without a first block there is no round. -/
theorem forDirectBlocks_none {δ α : Type} {k : Kernel δ} {body : UInt32 → Kern δ (Option α)}
    (hinode : Mirrors k.mem (blockAddr i) 128 c (inodeOff c d)) (hb : directBlock c d 0 = 0) :
    (forDirectBlocks (blockAddr i) body 12 0).run k = .ok none k := by
  rw [show (12 : Nat) = 11 + 1 from rfl, forDirectBlocks,
    Exec.bind_ok (read32_run _ _), load_directBlock hinode (by decide), if_pos hb]
  rfl

theorem forDirectBlocks_error {α : Type} {body : UInt32 → Kern Disk (Option α)}
    {e : Halt} {k' : Kernel Disk} (hinode : Mirrors k.mem (blockAddr i) 128 c (inodeOff c d))
    (hb : directBlock c d 0 ≠ 0)
    (hbody : (body (directBlock c d 0)).run k = .error e k') :
    (forDirectBlocks (blockAddr i) body 12 0).run k = .error e k' := by
  rw [show (12 : Nat) = 11 + 1 from rfl, forDirectBlocks,
    Exec.bind_ok (read32_run _ _), load_directBlock hinode (by decide), if_neg hb,
    Exec.bind_error hbody]

theorem ext2FindRelease_ok {a : UInt32} (hi : i < kMemoryMapEntries)
    (hr : r < kMemoryMapEntries)
    (ha : ((a - Layout.kmallocMemory) / blockSize).toNat < kMemoryMapEntries) :
    ∃ k', (ext2FindRelease a (blockAddr i) (blockAddr r)).run k = .ok () k' ∧
      k'.mem = k.mem := by
  refine ⟨_, by rw [ext2FindRelease, Exec.bind_ok (kfree_run (n := 1) ha),
    Exec.bind_ok (kfree_block hi), kfree_block hr], ?_⟩
  rfl

/-- A round whose scan answers an inode: it is read, and the search goes on there.
The block that was scanned stays in its page. -/
theorem findRound_of_scan {n : UInt32} {block : Nat} {k₁ k₂ : Kernel Disk}
    (hv : Volume dev rel priv disk)
    (hinode : Mirrors k.mem (blockAddr i) 128 disk.content (inodeOff disk.content d))
    (hblock : directBlock disk.content d 0 ≠ 0)
    (hrun₁ : (ext2ReadBlock Disk.ide dev priv (directBlock disk.content d 0)
      (blockAddr r)).run k = .ok () k₁)
    (hrun₂ : (ext2ReadDirectory fuel (blockAddr f + UInt32.ofNat off) (blockAddr r)).run k₁ =
      .ok n k₂)
    (hk₂ : k₂.dev = disk) (h₂ : Searching k₂ disk.content i r f off d (name :: path))
    (hpage₂ : Mirrors k₂.mem (blockAddr r) 1024 disk.content (1024 * block))
    (hne : n ≠ 0) (hreach : Reachable disk.content n) (hl : InodeReadable rel disk n)
    (hfree : 2 ≤ freeCount k₂.kMemoryMap) :
    ∃ k', (forDirectBlocks (blockAddr i) (ext2FindInBlock Disk.ide dev priv fuel ff
        (blockAddr i) (blockAddr r) (blockAddr f + UInt32.ofNat off) retnode) 12 0).run k =
          .ok (some (.ok n)) k' ∧
      k'.dev = disk ∧ k'.kMemoryMap = taken k₂.kMemoryMap ∧
      Searching k' disk.content i r f (off + (name.length + 1)) n path ∧
      BytesAt k'.mem (blockAddr f + UInt32.ofNat off) (name ++ [0]) ∧
      Mirrors k'.mem (blockAddr r) 1024 disk.content (1024 * block) ∧
      SameOff (fun a => FreeAt k₂.kMemoryMap a ∨ Span (blockAddr i) 128 a) k₂.mem k'.mem := by
  have hp := h₂.pages
  obtain ⟨k₃, hrun₃, hdev₃, hmap₃, hinode₃, hoff₃⟩ := ext2ReadInode_ok hv hk₂ hreach hl hfree
    fun a (ha : Span (blockAddr i) 128 a) =>
      not_freeAt_busy hp.inode_lt hp.inode_busy (ha.mono (by omega))
  obtain ⟨hnext, hname⟩ := h₂.next hmap₃ hinode₃ hoff₃
  refine ⟨k₃, forDirectBlocks_some hinode hblock ?_, hdev₃, hmap₃, hnext, hname,
    hpage₂.congr (by omega) fun a ha => hoff₃ a (page_apart hp.root_lt hp.root_busy hp.inode_lt
      hp.inode_root.symm (by omega) (ha.mono (by omega))), hoff₃⟩
  rw [ext2FindInBlock, Exec.bind_ok hrun₁, Exec.bind_ok hrun₂, if_neg hne, Exec.bind_ok hrun₃]
  rfl

/-- A round at a name the scan finds. -/
theorem findRound_found {n : UInt32} (hv : Volume dev rel priv disk)
    (hk : k.dev = disk) (h : Searching k disk.content i r f off d (name :: path))
    (hs : Scans disk.content d name (some n)) (hreach : Reachable disk.content n)
    (hr : Readable rel 2 disk (directBlock disk.content d 0).toNat)
    (hl : InodeReadable rel disk n) (hfree : 2 ≤ freeCount k.kMemoryMap) (h0 : 0 ∉ name)
    (hfuel : 0x1000 ≤ fuel) :
    ∃ k', (forDirectBlocks (blockAddr i) (ext2FindInBlock Disk.ide dev priv fuel ff
        (blockAddr i) (blockAddr r) (blockAddr f + UInt32.ofNat off) retnode) 12 0).run k =
          .ok (some (.ok n)) k' ∧
      k'.dev = disk ∧ k'.kMemoryMap = taken k.kMemoryMap ∧
      Searching k' disk.content i r f (off + (name.length + 1)) n path ∧
      BytesAt k'.mem (blockAddr f + UInt32.ofNat off) (name ++ [0]) ∧
      Mirrors k'.mem (blockAddr r) 1024 disk.content
        (1024 * (directBlock disk.content d 0).toNat) ∧
      SameOff (Written k.kMemoryMap i r) k.mem k'.mem := by
  obtain ⟨k₁, k₂, hrun₁, hrun₂, hleave, hpage⟩ := findScan_ok hv hk h hs hr (by omega) h0 hfuel
  obtain ⟨k₃, hrun₃, hdev₃, hmap₃, hnext, hname, hpage₃, hoff₃⟩ := findRound_of_scan ff retnode
    hv h.inode hs.block hrun₁ hrun₂ (hleave.dev.trans hk) (h.congr hleave) hpage
    (hs.found_ne_zero n rfl) hreach hl (by rw [hleave.kMemoryMap]; exact hfree)
  rw [hleave.kMemoryMap] at hoff₃
  exact ⟨k₃, hrun₃, hdev₃, hmap₃.trans (congrArg taken hleave.kMemoryMap), hnext, hname, hpage₃,
    (hleave.mem.mono fun a => Or.imp_right .inl).trans (hoff₃.mono fun a => Or.imp_right .inr)⟩

/-- A round at a name the scan does not find: the function returns. -/
theorem findRound_missing {l : List UInt8} (hm : Mounted dev rel sectors priv disk)
    (hk : k.dev = disk) (h : Searching k disk.content i r f off d (name :: path))
    (hs : Scans disk.content d name none) (hff : HoldsArg k i r ff l)
    (hfree : 0 < freeCount k.kMemoryMap) (h0 : 0 ∉ name) (hfuel : 0x1000 ≤ fuel) :
    ∃ k', (forDirectBlocks (blockAddr i) (ext2FindInBlock Disk.ide dev priv fuel ff
        (blockAddr i) (blockAddr r) (blockAddr f + UInt32.ofNat off) retnode) 12 0).run k =
          .ok (some (.error (missingValue l retnode name))) k' ∧
      SameOff (Written k.kMemoryMap i r) k.mem k'.mem := by
  have hp := h.pages
  obtain ⟨k₁, k₂, hrun₁, hrun₂, hleave, -⟩ :=
    findScan_ok hm.volume hk h hs (hm.readable hs.block_lt) hfree h0 hfuel
  have h₂ := h.congr hleave
  have hroom := h₂.name_room
  have hoff : SameOff (Written k.kMemoryMap i r) k.mem k₂.mem :=
    hleave.mem.mono fun a => Or.imp_right .inl
  obtain ⟨cmp, hcmp, hzero⟩ := strcmp_run
    (isStr_of_bytesAt h0 h₂.name_at.1)
    (isStr_literal (l := []) List.not_mem_nil) (show name.length < fuel by omega) k₂
  have hfile : ((blockAddr f + UInt32.ofNat off - Layout.kmallocMemory) / blockSize).toNat =
      f := blockAddr_div hp.file_lt (span_add (by omega) (by omega))
  have hrelease : ∀ k₂ : Kernel Disk, ∃ k', (ext2FindRelease (blockAddr f + UInt32.ofNat off)
      (blockAddr i) (blockAddr r)).run k₂ = .ok () k' ∧ k'.mem = k₂.mem := fun k₂ =>
    ext2FindRelease_ok hp.inode_lt hp.root_lt (by rw [hfile]; exact hp.file_lt)
  by_cases hempty : name = []
  · -- the empty name is not an error
    obtain ⟨k₃, hrun₃, hmem₃⟩ := hrelease k₂
    have hff₃ := (hff.congr (fun a => hleave.kMemoryMap ▸ id) hoff).string
    have hshort := hff.short
    rw [← hmem₃] at hff₃
    obtain ⟨cmp', hcmp', hzero'⟩ := strcmp_run (isStr_of_bytesAt hff.nonzero hff₃)
      (isStr_literal (l := [slash]) (by decide)) (show l.length < fuel by omega) k₃
    refine ⟨k₃, forDirectBlocks_some h.inode hs.block ?_, hmem₃ ▸ hoff⟩
    rw [ext2FindInBlock, Exec.bind_ok hrun₁, Exec.bind_ok hrun₂, Option.getD_none,
      if_pos rfl, Exec.bind_ok (EStateM.run_get k₂), Exec.bind_ok hcmp,
      if_pos (hzero.mpr hempty), Exec.bind_ok hrun₃, Exec.bind_ok (EStateM.run_get k₃),
      Exec.bind_ok hcmp', missingValue, if_pos hempty]
    by_cases hslash : l = [slash]
    · rw [if_pos (hzero'.mpr hslash), if_pos hslash]
      rfl
    · rw [if_neg (mt hzero'.mp hslash), if_neg hslash]
      rfl
  · obtain ⟨k₃, hrun₃, hmem₃⟩ := hrelease (((k₂.print (.str "File not found: ")).print
      (.mem (blockAddr f + UInt32.ofNat off))).print (.str "\n"))
    refine ⟨k₃, forDirectBlocks_some h.inode hs.block ?_, hmem₃ ▸ hoff⟩
    rw [ext2FindInBlock, Exec.bind_ok hrun₁, Exec.bind_ok hrun₂, Option.getD_none,
      if_pos rfl, Exec.bind_ok (EStateM.run_get k₂), Exec.bind_ok hcmp,
      if_neg (mt hzero.mp hempty), Exec.bind_ok (kprint_run _ _),
      Exec.bind_ok (kprintMsg_run _ _), Exec.bind_ok (kprint_run _ _), Exec.bind_ok hrun₃,
      missingValue, if_neg hempty]
    rfl

/-- A round at a name the scan finds, without the pages to read its inode. -/
theorem findRound_exit {n : UInt32} (hm : Mounted dev rel sectors priv disk)
    (hk : k.dev = disk) (h : Searching k disk.content i r f off d (name :: path))
    (hs : Scans disk.content d name (some n)) (hfree : 0 < freeCount k.kMemoryMap)
    (hlast : freeCount k.kMemoryMap < 2) (h0 : 0 ∉ name) (hfuel : 0x1000 ≤ fuel) :
    ∃ k', (forDirectBlocks (blockAddr i) (ext2FindInBlock Disk.ide dev priv fuel ff
        (blockAddr i) (blockAddr r) (blockAddr f + UInt32.ofNat off) retnode) 12 0).run k =
          .error (.exit 2) k' := by
  obtain ⟨k₁, k₂, hrun₁, hrun₂, hleave, -⟩ :=
    findScan_ok hm.volume hk h hs (hm.readable hs.block_lt) hfree h0 hfuel
  obtain ⟨k₃, hexit⟩ := ext2ReadInode_exit (k := k₂) n (blockAddr i) hm
    (by rw [hleave.kMemoryMap]; exact hlast)
  refine ⟨k₃, forDirectBlocks_error h.inode hs.block ?_⟩
  rw [ext2FindInBlock, Exec.bind_ok hrun₁, Exec.bind_ok hrun₂, Option.getD_some,
    if_neg (hs.found_ne_zero n rfl)]
  exact Exec.bind_error hexit

/-! ## The whole path -/

/-- `filename` moved behind the name it points at. -/
theorem advance_run {n : UInt32}
    (hname : BytesAt k.mem (blockAddr f + UInt32.ofNat off) (name ++ [0]))
    (h0 : 0 ∉ name) (hfuel : name.length < fuel) (m : Nat) :
    (do
      let s ← strlen fuel (chars (← get).mem (blockAddr f + UInt32.ofNat off))
      ext2FindLoop Disk.ide dev priv fuel ff (blockAddr i) (blockAddr r) m
        (blockAddr f + UInt32.ofNat off + (s.toUInt32 + 1)) n :
        Kern Disk (Except UInt8 (UInt32 × UInt32))).run k =
      (ext2FindLoop Disk.ide dev priv fuel ff (blockAddr i) (blockAddr r) m
        (blockAddr f + UInt32.ofNat (off + (name.length + 1))) n).run k := by
  rw [Exec.bind_ok (EStateM.run_get k),
    Exec.bind_ok (strlen_run (isStr_of_bytesAt h0 hname) hfuel), Int32.toUInt32_ofNat',
    UInt32.add_assoc, UInt32.ofNat_add off, UInt32.ofNat_add name.length]
  rfl

/-- The `while` loop at its next name, behind the messages. -/
theorem ext2FindLoop_cons (dev : DeviceInfo) (priv : Ext2PrivData) (fuel : Nat)
    (ff retnode : UInt32) (hk : k.dev = disk)
    (h : Searching k disk.content i r f off d (name :: path)) :
    ∃ k', k'.dev = disk ∧ k'.kMemoryMap = k.kMemoryMap ∧ k'.mem = k.mem ∧
      Searching k' disk.content i r f off d (name :: path) ∧
      (ext2FindLoop Disk.ide dev priv fuel ff (blockAddr i) (blockAddr r)
        (name :: path).length (blockAddr f + UInt32.ofNat off) retnode).run k = (do
          let left ← forDirectBlocks (blockAddr i) (ext2FindInBlock Disk.ide dev priv fuel ff
            (blockAddr i) (blockAddr r) (blockAddr f + UInt32.ofNat off) retnode) 12 0
          match left with
          | some (.error r) => return .error r
          | some (.ok rc) =>
              let s ← strlen fuel (chars (← get).mem (blockAddr f + UInt32.ofNat off))
              ext2FindLoop Disk.ide dev priv fuel ff (blockAddr i) (blockAddr r) path.length
                (blockAddr f + UInt32.ofNat off + (s.toUInt32 + 1)) rc
          | none =>
              let s ← strlen fuel (chars (← get).mem (blockAddr f + UInt32.ofNat off))
              ext2FindLoop Disk.ide dev priv fuel ff (blockAddr i) (blockAddr r) path.length
                (blockAddr f + UInt32.ofNat off + (s.toUInt32 + 1)) retnode :
          Kern Disk (Except UInt8 (UInt32 × UInt32))).run k' := by
  refine ⟨((k.print (.str "Looking for: ")).print
    (.mem (blockAddr f + UInt32.ofNat off))).print (.str "\n"), hk, rfl, rfl,
    h.congr ⟨rfl, rfl, SameOff.refl _⟩, ?_⟩
  rw [List.length_cons, ext2FindLoop]
  exact (Exec.bind_ok (kprint_run _ _)).trans
    ((Exec.bind_ok (kprintMsg_run _ _)).trans (Exec.bind_ok (kprint_run _ _)))

omit [Layout] in
theorem length_nameStrings_cons (off : Nat) (name : List UInt8) (path : List (List UInt8)) :
    off + (nameStrings (name :: path)).length =
      off + (name.length + 1) + (nameStrings path).length := by
  rw [nameStrings_cons, List.length_append, List.length_append, List.length_singleton,
    Nat.add_assoc off]

/-- The loop over names ends where the search does, as long as the pages last. The inode it
ends at is in its page. -/
theorem ext2FindLoop_ok {s : SearchState} {e : SearchState × List (List UInt8)} {l : List UInt8}
    (hm : Mounted dev rel sectors priv disk) (hk : k.dev = disk)
    (h : Searching k disk.content i r f off s.inode path) (hs : Reachable disk.content s.inode)
    (hpass : Along (searchStep disk.content) (Passable disk.content) s path)
    (hff : HoldsArg k i r ff l) (h0 : ∀ name ∈ path, 0 ∉ name) (hfuel : 0x1000 ≤ fuel)
    (he : followTo (searchStep disk.content) s path = e)
    (hfree : e.1.reads + 1 ≤ freeCount k.kMemoryMap + s.reads) :
    ∃ k', (ext2FindLoop Disk.ide dev priv fuel ff (blockAddr i) (blockAddr r)
        path.length (blockAddr f + UInt32.ofNat off) s.retnode).run k =
      .ok (searchResult l (blockAddr f + UInt32.ofNat (off + (nameStrings path).length)) e) k' ∧
      SameOff (Written k.kMemoryMap i r) k.mem k'.mem ∧
      (e.2 = [] → Mirrors k'.mem (blockAddr i) 128 disk.content
        (inodeOff disk.content e.1.inode)) := by
  induction path generalizing k off s with
  | nil =>
      subst he
      exact ⟨k, rfl, SameOff.refl _, fun _ => h.inode⟩
  | cons name path ih =>
      have h0' : ∀ n ∈ path, 0 ∉ n := fun n hn => h0 n (List.mem_cons_of_mem _ hn)
      obtain ⟨hname, hrest⟩ := hpass
      have hroom := h.name_room
      obtain ⟨k₁, hdev₁, hmap₁, hmem₁, h₁, hloop₁⟩ := ext2FindLoop_cons dev priv fuel ff
        s.retnode hk h
      have hff₁ : HoldsArg k₁ i r ff l :=
        hff.congr (fun a => hmap₁ ▸ id) fun a _ => congrFun hmem₁ a
      rw [hloop₁, length_nameStrings_cons]
      rw [← hmem₁, ← hmap₁]
      rw [← hmap₁] at hfree
      by_cases hblock : directBlock disk.content s.inode 0 = 0
      · -- the name is passed over
        have hstep := searchStep_skip name hblock
        rw [followTo_some hstep] at he
        obtain ⟨k₂, hloop, hrest₂⟩ := ih hdev₁ h₁.skip hs (hrest s hstep) hff₁ h0' he hfree
        rw [Exec.bind_ok (forDirectBlocks_none h₁.inode hblock)]
        exact ⟨k₂, (advance_run ff h₁.name_at.1 (h0 name List.mem_cons_self)
          (show name.length < fuel by omega) _).trans hloop, hrest₂⟩
      · have hscans := (hname.resolve_left hblock).scans hm.image hs
        cases hn : lookupListed disk.content s.inode name with
        | none =>
            rw [followTo_none (searchStep_missing hblock hn)] at he
            subst he
            have hlast : s.reads + 1 ≤ freeCount k₁.kMemoryMap + s.reads := hfree
            obtain ⟨k₂, hround, hoff₂⟩ := findRound_missing ff s.retnode hm hdev₁ h₁
              (hn ▸ hscans) hff₁ (by omega) (h0 name List.mem_cons_self) hfuel
            rw [Exec.bind_ok hround]
            exact ⟨k₂, rfl, hoff₂, fun hnil => nomatch hnil⟩
        | some n =>
            have hstep := searchStep_found hblock hn
            have hreach := searchStep_reachable hm.image hs hstep
            rw [followTo_some hstep] at he
            have hreads : s.reads + 1 ≤ e.1.reads :=
              he ▸ reads_le_followTo (c := disk.content) ⟨n, n, s.reads + 1⟩ path
            obtain ⟨k₂, hround, hdev₂, hmap₂, h₂, hname₂, -, hoff₂⟩ := findRound_found ff
              s.retnode hm.volume hdev₁ h₁ (hn ▸ hscans) hreach (hm.readable hscans.block_lt)
              (hm.inodeReadable hreach) (by omega) (h0 name List.mem_cons_self) hfuel
            have hpage : freeCount (taken k₁.kMemoryMap) + 1 = freeCount k₁.kMemoryMap :=
              freeCount_taken (by omega)
            have hmap : ∀ a, FreeAt k₂.kMemoryMap a → FreeAt k₁.kMemoryMap a := fun a ha =>
              ((freeAt_taken (by omega)).mp (hmap₂ ▸ ha)).1
            obtain ⟨k₃, hloop, hoff₃, hinode⟩ := ih hdev₂ h₂ hreach (hrest _ hstep)
              (hff₁.congr hmap hoff₂) h0' he
              (show _ ≤ freeCount k₂.kMemoryMap + (s.reads + 1) by rw [hmap₂]; omega)
            rw [Exec.bind_ok hround]
            exact ⟨k₃, (advance_run ff hname₂ (h0 name List.mem_cons_self)
              (show name.length < fuel by omega) _).trans hloop,
              hoff₂.trans (hoff₃.mono fun a ha => ha.of_map hmap), hinode⟩

/-- When the pages run out on the way, the kernel stops. -/
theorem ext2FindLoop_exit {s : SearchState} {e : SearchState × List (List UInt8)}
    (hm : Mounted dev rel sectors priv disk) (hk : k.dev = disk)
    (h : Searching k disk.content i r f off s.inode path) (hs : Reachable disk.content s.inode)
    (hpass : Along (searchStep disk.content) (Passable disk.content) s path)
    (h0 : ∀ name ∈ path, 0 ∉ name) (hfuel : 0x1000 ≤ fuel)
    (he : followTo (searchStep disk.content) s path = e) (hpos : 0 < freeCount k.kMemoryMap)
    (hfree : freeCount k.kMemoryMap + s.reads < e.1.reads + 1) :
    ∃ k', (ext2FindLoop Disk.ide dev priv fuel ff (blockAddr i) (blockAddr r)
        path.length (blockAddr f + UInt32.ofNat off) s.retnode).run k =
      .error (.exit 2) k' := by
  induction path generalizing k off s with
  | nil =>
      subst he
      have hlast : freeCount k.kMemoryMap + s.reads < s.reads + 1 := hfree
      omega
  | cons name path ih =>
      have h0' : ∀ n ∈ path, 0 ∉ n := fun n hn => h0 n (List.mem_cons_of_mem _ hn)
      obtain ⟨hname, hrest⟩ := hpass
      have hroom := h.name_room
      obtain ⟨k₁, hdev₁, hmap₁, -, h₁, hloop₁⟩ := ext2FindLoop_cons dev priv fuel ff
        s.retnode hk h
      rw [hloop₁]
      rw [← hmap₁] at hfree hpos
      by_cases hblock : directBlock disk.content s.inode 0 = 0
      · have hstep := searchStep_skip name hblock
        rw [followTo_some hstep] at he
        obtain ⟨k₂, hloop⟩ := ih hdev₁ h₁.skip hs (hrest s hstep) h0' he hpos hfree
        rw [Exec.bind_ok (forDirectBlocks_none h₁.inode hblock)]
        exact ⟨k₂, (advance_run ff h₁.name_at.1 (h0 name List.mem_cons_self)
          (show name.length < fuel by omega) _).trans hloop⟩
      · have hscans := (hname.resolve_left hblock).scans hm.image hs
        cases hn : lookupListed disk.content s.inode name with
        | none =>
            rw [followTo_none (searchStep_missing hblock hn)] at he
            subst he
            have hlast : freeCount k₁.kMemoryMap + s.reads < s.reads + 1 := hfree
            omega
        | some n =>
            have hstep := searchStep_found hblock hn
            have hreach := searchStep_reachable hm.image hs hstep
            rw [followTo_some hstep] at he
            rcases Nat.lt_or_ge (freeCount k₁.kMemoryMap) 2 with hlast | htwo
            · obtain ⟨k₂, hround⟩ := findRound_exit ff s.retnode hm hdev₁ h₁ (hn ▸ hscans) hpos
                hlast (h0 name List.mem_cons_self) hfuel
              exact ⟨k₂, Exec.bind_error hround⟩
            · obtain ⟨k₂, hround, hdev₂, hmap₂, h₂, hname₂, -⟩ := findRound_found ff s.retnode
                hm.volume hdev₁ h₁ (hn ▸ hscans) hreach (hm.readable hscans.block_lt)
                (hm.inodeReadable hreach) htwo (h0 name List.mem_cons_self) hfuel
              have hpage : freeCount (taken k₁.kMemoryMap) + 1 = freeCount k₁.kMemoryMap :=
                freeCount_taken hpos
              obtain ⟨k₃, hloop⟩ := ih hdev₂ h₂ hreach (hrest _ hstep) h0' he
                (by rw [hmap₂]; omega)
                (show freeCount k₂.kMemoryMap + (s.reads + 1) < _ by rw [hmap₂]; omega)
              rw [Exec.bind_ok hround]
              exact ⟨k₃, (advance_run ff hname₂ (h0 name List.mem_cons_self)
                (show name.length < fuel by omega) _).trans hloop⟩

end

end Bedrock
