import Bedrock.Drivers.Ext2
import Bedrock.Lib.Follow

/-!
# Volumes

What a volume with blocks of 1024 bytes says, read off its bytes: where an
inode lies, which blocks a directory has, which entries are in a block, and
which inode a path names. Nothing here is about the driver.

A directory's entries are the used entries of all its blocks, and a path is
looked up one name at a time from the root. The volume is well formed when
everything that can be reached in this way lies where it should.
-/

namespace Bedrock

open Lib

/-- The bytes of a volume. -/
abbrev Image : Type := Nat → UInt8

/-- A directory entry; `size` is the distance to the next one. -/
structure DirEntry where
  inode : UInt32
  size : Nat
  name : List UInt8
deriving DecidableEq

/-- An entry with inode 0 is unused. -/
def DirEntry.used (e : DirEntry) : Bool := e.inode ≠ 0

/-- The used entry of this name. -/
def DirEntry.names (name : List UInt8) (e : DirEntry) : Bool :=
  e.used && e.name = name

namespace Image

/-- Bytes given by those that are not zero. -/
def ofBytes (l : List (Nat × UInt8)) : Image := fun i => (l.lookup i).getD 0

variable (c : Image)

/-! ## Superblock, group descriptors and inodes -/

/-- The superblock, in block 1. -/
def superblock : Superblock where
  blocks := le32 c (1024 + 4)
  superblockId := le32 c (1024 + 20)
  blocksizeHint := le32 c (1024 + 24)
  blocksInBlockgroup := le32 c (1024 + 32)
  inodesInBlockgroup := le32 c (1024 + 40)

/-- How many inodes the volume has. -/
def inodes : UInt32 := le32 c 1024

/-- The block group and the position in its table of an inode. -/
def groupOf (n : UInt32) : Nat :=
  (n.toNat - 1) / (superblock c).inodesInBlockgroup.toNat

def indexOf (n : UInt32) : Nat :=
  (n.toNat - 1) % (superblock c).inodesInBlockgroup.toNat

/-- The first block of a group's inode table, from the group descriptors in
block 2. -/
def inodeTable (group : Nat) : UInt32 := le32 c (2048 + 32 * group + 8)

/-- The block an inode lies in. -/
def inodeBlock (n : UInt32) : Nat :=
  (inodeTable c (groupOf c n)).toNat + 128 * indexOf c n / 1024

/-- The offset of an inode. -/
def inodeOff (n : UInt32) : Nat :=
  1024 * (inodeTable c (groupOf c n)).toNat + 128 * indexOf c n

def IsDirectory (n : UInt32) : Prop :=
  le16 c (inodeOff c n) &&& 0xF000 = 0x4000

instance (n : UInt32) : Decidable (IsDirectory c n) :=
  inferInstanceAs (Decidable (_ = _))

/-- The size in bytes of a file, and its direct blocks. -/
def sizeOf (n : UInt32) : Nat := (le32 c (inodeOff c n + 4)).toNat

def directBlock (n : UInt32) (i : Nat) : UInt32 :=
  le32 c (inodeOff c n + 40 + 4 * i)

/-! ## Directories -/

def entryAt (off : Nat) : DirEntry where
  inode := le32 c off
  size := (le16 c (off + 4)).toNat
  name := (List.range (c (off + 6)).toNat).map fun i => c (off + 8 + i)

/-- The entry fits between itself and the next one, which is not behind the
block, and its name, if it is used, is a string. -/
def Fits (size : Nat) (e : DirEntry) (off : Nat) : Prop :=
  8 + e.name.length ≤ e.size ∧ off + e.size ≤ size ∧ (e.inode ≠ 0 → 0 ∉ e.name)

instance (size : Nat) (e : DirEntry) (off : Nat) : Decidable (Fits size e off) :=
  inferInstanceAs (Decidable (_ ∧ _))

/-- The entries of the block of `size` bytes at `base` from `off` on; `none` if
they do not fill it exactly. -/
def parseEntries (base size : Nat) : (n off : Nat) → Option (List DirEntry)
  | 0, _ => none
  | n + 1, off =>
      if off = size then some []
      else if Fits size (entryAt c (base + off)) off then
        (parseEntries base size n (off + (entryAt c (base + off)).size)).map
          (entryAt c (base + off) :: ·)
      else none

/-- The entries of a directory block. There are 128 at most. -/
def parseBlock (block : UInt32) : Option (List DirEntry) :=
  parseEntries c (1024 * block.toNat) 1024 129 0

def blockEntries (block : UInt32) : List DirEntry := (parseBlock c block).getD []

/-- The entries of a directory, all its blocks together. -/
def directory (d : UInt32) : List DirEntry :=
  (List.range (sizeOf c d / 1024)).flatMap fun i => blockEntries c (directBlock c d i)

def lookup (d : UInt32) (name : List UInt8) : Option UInt32 :=
  if IsDirectory c d then
    ((directory c d).find? (DirEntry.names name)).map DirEntry.inode
  else none

/-- The inode a path names, from the root directory. -/
def resolve (path : List (List UInt8)) : Option UInt32 := follow (lookup c) 2 path

/-! ## Well-formed volumes -/

/-- What can be reached from the root. -/
inductive Reachable : UInt32 → Prop
  | root : Reachable 2
  | entry {d : UInt32} {e : DirEntry} : Reachable d → IsDirectory c d →
      e ∈ directory c d → e.inode ≠ 0 → Reachable e.inode

/-- A volume of 1024-byte blocks with its group descriptors in one block, whose
directories lie in direct blocks. A group has at most as many blocks as its
bitmap, one block, has bits. -/
structure WellFormed : Prop where
  blocksize : (superblock c).blocksizeHint = 0
  superblockId : (superblock c).superblockId = 1
  blocksInBlockgroup : 0 < (superblock c).blocksInBlockgroup.toNat ∧
    (superblock c).blocksInBlockgroup.toNat ≤ 8192
  inodesInBlockgroup : 0 < (superblock c).inodesInBlockgroup.toNat
  groups : (superblock c).blocks.toNat ≤
      1 + 32 * (superblock c).blocksInBlockgroup.toNat ∧
    (inodes c).toNat ≤ 32 * (superblock c).inodesInBlockgroup.toNat
  descriptors : 2 < (superblock c).blocks.toNat
  root : IsDirectory c 2
  inode : ∀ n, Reachable c n → 1 ≤ n.toNat ∧ n.toNat ≤ (inodes c).toNat ∧
    inodeBlock c n < (superblock c).blocks.toNat
  directory : ∀ d, Reachable c d → IsDirectory c d →
    0 < sizeOf c d / 1024 ∧ sizeOf c d ≤ 12 * 1024 ∧ sizeOf c d % 1024 = 0 ∧
      ∀ i < sizeOf c d / 1024, directBlock c d i ≠ 0 ∧
        (directBlock c d i).toNat < (superblock c).blocks.toNat ∧
        (parseBlock c (directBlock c d i)).isSome

variable {c}

theorem lookup_eq {d : UInt32} (h : IsDirectory c d) (name : List UInt8) :
    lookup c d name =
      ((directory c d).find? (DirEntry.names name)).map DirEntry.inode :=
  if_pos h

/-- What a lookup finds can be reached. -/
theorem reachable_of_lookup {d n : UInt32} {name : List UInt8}
    (hd : Reachable c d) (h : lookup c d name = some n) : Reachable c n := by
  rw [lookup] at h
  split at h
  · rename_i hdir
    obtain ⟨e, he, rfl⟩ := Option.map_eq_some_iff.mp h
    have hnames := List.find?_some he
    simp only [DirEntry.names, DirEntry.used, Bool.and_eq_true,
      decide_eq_true_eq] at hnames
    exact .entry hd hdir (List.mem_of_find?_eq_some he) hnames.1
  · cases h

/-! ## The first block -/

section

variable (c)

/-- The entries of a directory's first block before its first unused one. -/
def listed (d : UInt32) : List DirEntry :=
  (blockEntries c (directBlock c d 0)).takeWhile DirEntry.used

/-- The lookup of a name among these. -/
def lookupListed (d : UInt32) (name : List UInt8) : Option UInt32 :=
  if IsDirectory c d then
    ((listed c d).find? (DirEntry.names name)).map DirEntry.inode
  else none

/-- A page that begins with a block of `size` bytes and is zero behind it. -/
def pageOf (size block : Nat) (i : Nat) : UInt8 :=
  if i < size then c (size * block + i) else 0

/-- The entries met when a page is read as a directory block from `off` on, up
to the first unused one; `none` if that leads out of the page. -/
def scanEntries (page : Image) : (n off : Nat) → Option (List DirEntry)
  | 0, _ => none
  | n + 1, off =>
      if 0x1000 < off + 4 then none
      else if (entryAt page off).inode = 0 then some []
      else if 0x1000 < off + 8 + (entryAt page off).name.length then none
      else (scanEntries page n (off + (entryAt page off).size)).map (entryAt page off :: ·)

/-- A file whose first block, read as a directory block, does not list the
name. -/
structure Misses (d : UInt32) (name : List UInt8) : Prop where
  block : directBlock c d 0 ≠ 0
  block_lt : (directBlock c d 0).toNat < (superblock c).blocks.toNat
  scan : ∃ es, scanEntries (pageOf c 1024 (directBlock c d 0).toNat) 0x1000 0 = some es ∧
    ∀ e ∈ es, cString e.name ≠ name

end

/-- A name found there is found by the lookup. -/
theorem lookup_of_listed (hc : WellFormed c) {d n : UInt32} {name : List UInt8}
    (hd : Reachable c d) (h : lookupListed c d name = some n) :
    lookup c d name = some n := by
  rw [lookupListed] at h
  split at h
  · rename_i hdir
    obtain ⟨hsize, -, -, -⟩ := hc.directory d hd hdir
    obtain ⟨e, he, rfl⟩ := Option.map_eq_some_iff.mp h
    obtain ⟨m, hm⟩ := Nat.exists_eq_add_one_of_ne_zero (Nat.ne_of_gt hsize)
    rw [lookup_eq hdir, directory, hm, List.range_succ_eq_map, List.flatMap_cons,
      ← List.takeWhile_append_dropWhile (p := DirEntry.used)
        (l := blockEntries c (directBlock c d 0)), List.append_assoc, List.find?_append]
    rw [listed] at he
    rw [he]
    rfl
  · cases h

/-- An entry depends on its own bytes only. -/
theorem entryAt_congr {c' : Image} {off off' : Nat}
    (h : ∀ i < 8 + (entryAt c off).name.length, c' (off' + i) = c (off + i)) :
    entryAt c' off' = entryAt c off := by
  have hlen : (entryAt c off).name.length = (c (off + 6)).toNat := by
    rw [entryAt, List.length_map, List.length_range]
  rw [hlen] at h
  have hinode := le32_congr fun i hi => h i (by omega)
  have hsize : le16 c' (off' + 4) = le16 c (off + 4) := le16_congr fun i hi => by
    rw [Nat.add_assoc, Nat.add_assoc]
    exact h (4 + i) (by omega)
  rw [entryAt, entryAt, hinode, hsize, h 6 (by omega)]
  congr 1
  refine List.map_congr_left fun i hi => ?_
  rw [Nat.add_assoc, Nat.add_assoc]
  exact h (8 + i) (by have := List.mem_range.mp hi; omega)

/-- On a directory block the two readings agree. -/
theorem scanEntries_of_parse {block : UInt32} {n m off : Nat} {es : List DirEntry}
    (h : parseEntries c (1024 * block.toNat) 1024 n off = some es) (hn : n ≤ m) :
    scanEntries (pageOf c 1024 block.toNat) m off = some (es.takeWhile DirEntry.used) := by
  induction n generalizing m off es with
  | zero => cases h
  | succ n ih =>
      obtain ⟨m, rfl⟩ := Nat.exists_eq_add_one_of_ne_zero (n := m) (by omega)
      rw [parseEntries] at h
      rw [scanEntries]
      by_cases hend : off = 1024
      · -- behind the last entry the page is zero
        rw [if_pos hend] at h
        injection h with h
        subst h hend
        have hzero : (entryAt (pageOf c 1024 block.toNat) 1024).inode = 0 :=
          (le32_congr (c := fun _ => 0) fun i hi => if_neg (by omega)).trans
            (rfl : le32 (fun _ => 0) 0 = 0)
        rw [if_neg (by omega), if_pos hzero]
        rfl
      · rw [if_neg hend] at h
        split at h
        · rename_i hfits
          obtain ⟨hsize, hin, -⟩ := hfits
          obtain ⟨rest, hrest, rfl⟩ := Option.map_eq_some_iff.mp h
          have hentry : entryAt (pageOf c 1024 block.toNat) off =
              entryAt c (1024 * block.toNat + off) := by
            refine entryAt_congr fun i hi => ?_
            rw [pageOf, if_pos (by omega), Nat.add_assoc]
          rw [hentry, if_neg (by omega)]
          by_cases hused : (entryAt c (1024 * block.toNat + off)).inode = 0
          · rw [if_pos hused, List.takeWhile_cons_of_neg (by simp [DirEntry.used, hused])]
          · rw [if_neg hused, if_neg (by omega),
              List.takeWhile_cons_of_pos (by simp [DirEntry.used, hused]),
              ih hrest (by omega)]
            rfl
        · cases h

/-- The parts of a block that was read as entries. -/
theorem parseEntries_cons {base size n off : Nat} {e : DirEntry} {es : List DirEntry}
    (h : parseEntries c base size n off = some (e :: es)) :
    ∃ n', entryAt c (base + off) = e ∧ Fits size e off ∧
      parseEntries c base size n' (off + e.size) = some es := by
  cases n with
  | zero => cases h
  | succ n =>
      rw [parseEntries] at h
      by_cases hend : off = size
      · rw [if_pos hend] at h
        cases h
      · rw [if_neg hend] at h
        split at h
        · rename_i hfits
          obtain ⟨rest, hrest, heq⟩ := Option.map_eq_some_iff.mp h
          injection heq with he hes
          subst he hes
          exact ⟨n, rfl, hfits, hrest⟩
        · cases h

theorem parseEntries_nil {base size n off : Nat}
    (h : parseEntries c base size n off = some []) : off = size := by
  cases n with
  | zero => cases h
  | succ n =>
      rw [parseEntries] at h
      by_contra hend
      rw [if_neg hend] at h
      split at h
      · obtain ⟨rest, -, heq⟩ := Option.map_eq_some_iff.mp h
        cases heq
      · cases h

/-- Reading a block as entries looks at the block only. -/
theorem parseEntries_congr {c' : Image} {size n off : Nat} {es : List DirEntry}
    (h : parseEntries c 0 size n off = some es) (hsame : ∀ i < size, c' i = c i) :
    parseEntries c' 0 size n off = some es := by
  induction n generalizing off es with
  | zero => cases h
  | succ n ih =>
      rw [parseEntries] at h ⊢
      by_cases hend : off = size
      · rw [if_pos hend] at h ⊢
        exact h
      · rw [if_neg hend] at h ⊢
        split at h
        · rename_i hfits
          obtain ⟨rest, hrest, rfl⟩ := Option.map_eq_some_iff.mp h
          have hentry : entryAt c' (0 + off) = entryAt c (0 + off) := by
            refine entryAt_congr fun i hi => hsame _ ?_
            obtain ⟨hname, hroom, -⟩ := hfits
            omega
          rw [hentry, if_pos hfits, ih hrest]
          rfl
        · cases h

/-- The names of a directory block's used entries are strings. -/
theorem name_of_parse {base size n off : Nat} {es : List DirEntry}
    (h : parseEntries c base size n off = some es) :
    ∀ e ∈ es, e.inode ≠ 0 → 0 ∉ e.name := by
  induction n generalizing off es with
  | zero => cases h
  | succ n ih =>
      rw [parseEntries] at h
      by_cases hend : off = size
      · rw [if_pos hend] at h
        injection h with h
        subst h
        exact fun e he => absurd he List.not_mem_nil
      · rw [if_neg hend] at h
        split at h
        · rename_i hfits
          obtain ⟨rest, hrest, rfl⟩ := Option.map_eq_some_iff.mp h
          intro e he
          rcases List.mem_cons.mp he with rfl | hmem
          · exact hfits.2.2
          · exact ih hrest e hmem
        · cases h

/-! ## Blocks of entries -/

section

variable (c)

/-- The entries of a block before its first unused one. -/
def usedEntries (block : UInt32) : List DirEntry :=
  (blockEntries c block).takeWhile DirEntry.used

end

theorem used_of_mem {block : UInt32} {e : DirEntry} (he : e ∈ usedEntries c block) :
    e.used = true := List.mem_takeWhile_imp he

/-- A page with a directory block is read as these entries. -/
theorem scanEntries_used {block : UInt32} (h : (parseBlock c block).isSome) :
    scanEntries (pageOf c 1024 block.toNat) 0x1000 0 = some (usedEntries c block) := by
  obtain ⟨es, hes⟩ := Option.isSome_iff_exists.mp h
  rw [usedEntries, blockEntries, hes]
  exact scanEntries_of_parse hes (by omega)

/-- Comparing strings finds the entry of the name. -/
theorem find_used {block : UInt32} (h : (parseBlock c block).isSome) (name : List UInt8) :
    (usedEntries c block).find? (fun e => decide (cString e.name = name)) =
      (usedEntries c block).find? (DirEntry.names name) := by
  obtain ⟨es, hes⟩ := Option.isSome_iff_exists.mp h
  have hentries : blockEntries c block = es := by
    rw [blockEntries, hes]
    rfl
  rw [← List.head?_filter, ← List.head?_filter, List.filter_congr fun e he => ?_]
  have hused := used_of_mem he
  have hname := name_of_parse hes e (hentries ▸ List.takeWhile_subset _ he)
    (of_decide_eq_true hused)
  rw [DirEntry.names, hused, cString_eq hname, Bool.true_and]

/-- What the driver finds under a name in the first block of `d`. -/
structure Scans (c : Image) (d : UInt32) (name : List UInt8) (found : Option UInt32) :
    Prop where
  block : directBlock c d 0 ≠ 0
  block_lt : (directBlock c d 0).toNat < (superblock c).blocks.toNat
  scan : ∃ es, scanEntries (pageOf c 1024 (directBlock c d 0).toNat) 0x1000 0 = some es ∧
    (es.find? fun e => cString e.name = name).map DirEntry.inode = found
  found_ne_zero : ∀ n, found = some n → n ≠ 0

/-- In a directory, that is the name's lookup among the listed entries. -/
theorem scans_directory (hc : WellFormed c) {d : UInt32} (hd : Reachable c d)
    (hdir : IsDirectory c d) (name : List UInt8) :
    Scans c d name (lookupListed c d name) := by
  obtain ⟨hsize, -, -, hall⟩ := hc.directory d hd hdir
  obtain ⟨hne, hlt, hparse⟩ := hall 0 hsize
  have hlisted : listed c d = usedEntries c (directBlock c d 0) := rfl
  refine ⟨hne, hlt, ⟨listed c d, ?_, ?_⟩, fun n hn => ?_⟩
  · exact scanEntries_used hparse
  · rw [lookupListed, if_pos hdir, hlisted, find_used hparse]
  · rw [lookupListed, if_pos hdir] at hn
    obtain ⟨e, he, rfl⟩ := Option.map_eq_some_iff.mp hn
    have hnames := List.find?_some he
    simp only [DirEntry.names, DirEntry.used, Bool.and_eq_true, decide_eq_true_eq]
      at hnames
    exact hnames.1

/-- In a file whose data does not look like a directory with the name, it is
nothing, which is right. -/
theorem scans_misses {d : UInt32} {name : List UInt8} (h : Misses c d name) :
    Scans c d name none := by
  obtain ⟨es, hes, hnone⟩ := h.scan
  refine ⟨h.block, h.block_lt, ⟨es, hes, ?_⟩, fun n hn => by cases hn⟩
  rw [List.find?_eq_none.mpr fun e he => by simp [hnone e he]]
  rfl

end Image

end Bedrock
