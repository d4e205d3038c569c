import Bedrock.Proofs.PathSearch

/-!
# The inode of a path

`ext2_find_file_inode` against the lookup of a path in a well-formed volume.
Called with an absolute path it looks for the path's names, from the root's
inode on; what it returns is where the walk through the first blocks ends, as a
`uint8_t`.
-/

namespace Bedrock

open Lib Image

theorem toUInt32_toUInt8_iff {n : UInt32} : n.toUInt8.toUInt32 = n ↔ n.toNat < 256 := by
  rw [← UInt32.toNat_inj, UInt8.toNat_toUInt32, UInt32.toNat_toUInt8]
  omega

theorem reachable_of_resolve {c : Image} {path : List (List UInt8)} {n : UInt32}
    (h : resolve c path = some n) : Reachable c n := by
  have hstep : ∀ d name n, Reachable c d → lookup c d name = some n → Reachable c n :=
    fun _ _ _ => reachable_of_lookup
  exact follow_invariant hstep .root h

/-- The walk through the first blocks gets to the inode a path names exactly when
they list every name on the way. -/
theorem follow_listed_iff {c : Image} (hc : WellFormed c) {path : List (List UInt8)}
    {n : UInt32} (h : resolve c path = some n) :
    follow (lookupListed c) 2 path = some n ↔
      Along (lookup c) (fun d name => (lookupListed c d name).isSome) 2 path := by
  have hle : ∀ d name n, Reachable c d → lookupListed c d name = some n →
      lookup c d name = some n := fun _ _ _ => lookup_of_listed hc
  have hstep : ∀ d name n, Reachable c d → lookup c d name = some n → Reachable c n :=
    fun _ _ _ => reachable_of_lookup
  exact follow_eq_iff hle hstep .root h

theorem resolve_of_listed {c : Image} (hc : WellFormed c) {path : List (List UInt8)}
    {n : UInt32} (h : follow (lookupListed c) 2 path = some n) : resolve c path = some n := by
  have hle : ∀ d name n, Reachable c d → lookupListed c d name = some n →
      lookup c d name = some n := fun _ _ _ => lookup_of_listed hc
  have hstep : ∀ d name n, Reachable c d → lookup c d name = some n → Reachable c n :=
    fun _ _ _ => reachable_of_lookup
  exact follow_mono hle hstep .root h

/-! ## The names of a path -/

theorem splitOn_pathString {path : List (List UInt8)} (hne : path ≠ [])
    (hslash : ∀ name ∈ path, slash ∉ name) : (pathString path).tail.splitOn slash = path := by
  induction path with
  | nil => exact absurd rfl hne
  | cons name path ih =>
      have hname := hslash name List.mem_cons_self
      rw [pathString, List.flatMap_cons, List.cons_append, List.tail_cons]
      cases path with
      | nil =>
          rw [List.flatMap_nil, List.append_nil]
          exact List.splitOn_eq_singleton hname
      | cons next path =>
          have hrest := ih (List.cons_ne_nil _ _) fun n hn => hslash n (List.mem_cons_of_mem _ hn)
          rw [pathString, List.flatMap_cons, List.cons_append, List.tail_cons] at hrest
          rw [List.flatMap_cons, List.cons_append,
            List.splitOn_append_cons_self_of_not_mem hname, hrest]

theorem searchNames_pathString {path : List (List UInt8)} (hp : IsPath path) :
    searchNames (pathString path) = path := by
  have hslash : ∀ name ∈ path, slash ∉ name := fun name hname => (hp.names name hname).2.2
  rw [searchNames, splitOn_pathString hp.nonempty hslash, count_pathString hslash,
    List.take_length]

theorem slash_mem_pathString {path : List (List UInt8)} (hp : IsPath path) :
    slash ∈ pathString path := by
  obtain ⟨name, path, rfl⟩ := List.exists_cons_of_ne_nil hp.nonempty
  exact List.mem_cons_self

/-- The search `e` for a path beside the walk through the first blocks. -/
structure Walks (c : Image) (s : SearchState) (path : List (List UInt8))
    (e : SearchState × List (List UInt8)) : Prop where
  explores : Along (searchStep c) (Passable c) s path
  reads : e.1.reads = s.reads + followDepth (lookupListed c) s.inode path
  inode : follow (lookupListed c) s.inode path = if e.2 = [] then some e.1.inode else none
  retnode : path ≠ [] → e.2 = [] → e.1.retnode = e.1.inode
  left : ∀ name ∈ e.2, name ∈ path

/-- As long as there is something to look in for every name, both go the same way. -/
theorem walks_of_searchable {c : Image} (hc : WellFormed c) {s : SearchState}
    {path : List (List UInt8)} (hs : Reachable c s.inode)
    (hsearch : Along (lookupListed c) (Searchable c) s.inode path) :
    Walks c s path (followTo (searchStep c) s path) := by
  induction path generalizing s with
  | nil => exact ⟨trivial, rfl, rfl, fun hne => absurd rfl hne, fun _ hname => hname⟩
  | cons name path ih =>
      obtain ⟨hname, hrest⟩ := hsearch
      have hblock := (hname.scans hc hs).block
      cases hn : lookupListed c s.inode name with
      | none =>
          have hstep := searchStep_missing hblock hn
          rw [followTo_none hstep]
          refine ⟨⟨.inr hname, fun t ht => ?_⟩, ?_, follow_none hn,
            fun _ hnil => absurd hnil (List.cons_ne_nil _ _), fun _ hleft => hleft⟩
          · rw [hstep] at ht
            cases ht
          · rw [followDepth_none hn]
            rfl
      | some n =>
          have hstep := searchStep_found hblock hn
          have hwalks := ih (searchStep_reachable hc hs hstep) (hrest n hn)
          rw [followTo_some hstep]
          refine ⟨⟨.inr hname, fun t ht => ?_⟩, ?_, (follow_some hn).trans hwalks.inode,
            fun _ hnil => ?_, fun m hm => List.mem_cons_of_mem _ (hwalks.left m hm)⟩
          · rw [hstep] at ht
            injection ht with ht
            exact ht ▸ hwalks.explores
          · rw [followDepth_some hn, hwalks.reads, Nat.add_right_comm, Nat.add_assoc]
          · cases path with
            | nil => rfl
            | cons next path => exact hwalks.retnode (List.cons_ne_nil _ _) hnil

section

variable [Layout] {k : Kernel Disk} {path : List (List UInt8)}

variable {rel sectors fuel : Nat} {ff : UInt32} {dev : DeviceInfo}
  {priv : Ext2PrivData} (inodeBuf : UInt32)

/-- The path lies in memory as a string, and not in a free page. -/
structure HoldsPath (k : Kernel Disk) (ff : UInt32) (path : List (List UInt8)) : Prop where
  string : BytesAt k.mem ff (pathString path ++ [0])
  apart : ∀ a, Span ff ((pathString path).length + 1) a → ¬ FreeAt k.kMemoryMap a

theorem HoldsPath.holdsString (hff : HoldsPath k ff path) (hp : IsPath path) :
    HoldsString k ff (pathString path) :=
  ⟨hff.string, hff.apart,
    zero_not_mem_pathString fun name hname => (hp.names name hname).2.1, hp.short⟩

/-! ## What a run returns -/

omit [Layout] in
/-- The search for a path goes beside the walk from the root. -/
theorem walks_path {c : Image} (hc : WellFormed c) (hp : IsPath path)
    (hsearch : Along (lookupListed c) (Searchable c) 2 path) :
    Walks c ⟨2, 0, 0⟩ path (searchEnd c (pathString path)) := by
  rw [searchEnd, searchNames_pathString hp]
  exact walks_of_searchable hc .root hsearch

/-- With pages enough, a run returns where the walk through the first blocks
ends, cut to eight bits, or 0 if it does not get to the end. -/
theorem ext2FindFileInode_ok (hm : Mounted dev rel sectors priv k.dev) (hp : IsPath path)
    (hff : HoldsPath k ff path) (hfuel : 0x1000 ≤ fuel)
    (hsearch : Along (lookupListed k.dev.content) (Searchable k.dev.content) 2 path)
    (hfree : 5 + followDepth (lookupListed k.dev.content) 2 path ≤ freeCount k.kMemoryMap) :
    ∃ k', (ext2FindFileInode Disk.ide dev priv fuel ff inodeBuf).run k =
      .ok ((follow (lookupListed k.dev.content) 2 path).getD 0).toUInt8 k' := by
  have hwalks := walks_path hm.image hp hsearch
  have hreads : _ = 0 + followDepth (lookupListed k.dev.content) 2 path := hwalks.reads
  obtain ⟨k', hrun, -⟩ := ext2FindFileInode_search inodeBuf hm (hff.holdsString hp)
    (slash_mem_pathString hp) hfuel
    (by rw [Explores, searchNames_pathString hp]; exact hwalks.explores) (by omega)
  refine ⟨k', hrun.trans ?_⟩
  rcases he : searchEnd k.dev.content (pathString path) with ⟨s, rest⟩
  rw [he] at hwalks
  have hinode : follow (lookupListed k.dev.content) 2 path = _ := hwalks.inode
  cases rest with
  | nil =>
      have hretnode : s.retnode = s.inode := hwalks.retnode hp.nonempty rfl
      rw [hinode, if_pos rfl, Option.getD_some, outcomeAt, hretnode]
  | cons name rest =>
      have hne := (hp.names name (hwalks.left name List.mem_cons_self)).1
      rw [hinode, if_neg (List.cons_ne_nil _ _), outcomeAt, missingValue, if_neg hne]
      rfl

/-- Without the pages for every inode on the way the kernel stops. -/
theorem ext2FindFileInode_exit (hm : Mounted dev rel sectors priv k.dev)
    (hp : IsPath path) (hff : HoldsPath k ff path) (hfuel : 0x1000 ≤ fuel)
    (hsearch : Along (lookupListed k.dev.content) (Searchable k.dev.content) 2 path)
    (hfree : freeCount k.kMemoryMap < 5 + followDepth (lookupListed k.dev.content) 2 path) :
    ∃ k', (ext2FindFileInode Disk.ide dev priv fuel ff inodeBuf).run k =
      .error (.exit 2) k' := by
  have hwalks := walks_path hm.image hp hsearch
  have hreads : _ = 0 + followDepth (lookupListed k.dev.content) 2 path := hwalks.reads
  exact ext2FindFileInode_searchExit inodeBuf hm (hff.holdsString hp) (slash_mem_pathString hp)
    hfuel (by rw [Explores, searchNames_pathString hp]; exact hwalks.explores) (by omega)

/-! ## The lookup of a path -/

/-- A run returns the inode the path names, or 0 if it names none. -/
def Finds (dev : DeviceInfo) (priv : Ext2PrivData) (fuel : Nat) (k : Kernel Disk)
    (ff inodeBuf : UInt32) (path : List (List UInt8)) : Prop :=
  ∃ r k', (ext2FindFileInode Disk.ide dev priv fuel ff inodeBuf).run k = .ok r k' ∧
    r.toUInt32 = (resolve k.dev.content path).getD 0

/-- There are pages for every inode on the way, and if the path names an inode,
the first blocks list every name on the way and the number has eight bits. -/
structure Findable (k : Kernel Disk) (path : List (List UInt8)) : Prop where
  pages : 5 + followDepth (lookupListed k.dev.content) 2 path ≤ freeCount k.kMemoryMap
  inode : ∀ n, resolve k.dev.content path = some n → n.toNat < 256 ∧
    Along (lookup k.dev.content)
      (fun d name => (lookupListed k.dev.content d name).isSome) 2 path

/-- As long as every file met in the middle of the path misses the next name, a run
finds what the path names exactly when it is findable. -/
theorem ext2FindFileInode_iff (hm : Mounted dev rel sectors priv k.dev) (hp : IsPath path)
    (hff : HoldsPath k ff path) (hfuel : 0x1000 ≤ fuel)
    (hsearch : Along (lookupListed k.dev.content) (Searchable k.dev.content) 2 path) :
    Finds dev priv fuel k ff inodeBuf path ↔ Findable k path := by
  constructor
  · rintro ⟨r, k₁, hrun, hr⟩
    have hpages : 5 + followDepth (lookupListed k.dev.content) 2 path ≤
        freeCount k.kMemoryMap := by
      by_contra hfew
      obtain ⟨k', hexit⟩ := ext2FindFileInode_exit inodeBuf hm hp hff hfuel hsearch
        (Nat.lt_of_not_le hfew)
      rw [hexit] at hrun
      cases hrun
    obtain ⟨k₂, hok⟩ := ext2FindFileInode_ok inodeBuf hm hp hff hfuel hsearch hpages
    rw [hok] at hrun
    injection hrun with hrun
    refine ⟨hpages, fun n hn => ?_⟩
    have hpos := (hm.image.inode n (reachable_of_resolve hn)).1
    rw [← hrun, hn, Option.getD_some] at hr
    cases hlisted : follow (lookupListed k.dev.content) 2 path with
    | none =>
        rw [hlisted, Option.getD_none] at hr
        rw [← hr] at hpos
        exact absurd hpos (by decide)
    | some m =>
        obtain rfl : m = n :=
          Option.some.inj ((resolve_of_listed hm.image hlisted).symm.trans hn)
        rw [hlisted, Option.getD_some, toUInt32_toUInt8_iff] at hr
        exact ⟨hr, (follow_listed_iff hm.image hn).mp hlisted⟩
  · rintro ⟨hpages, hinode⟩
    obtain ⟨k₂, hok⟩ := ext2FindFileInode_ok inodeBuf hm hp hff hfuel hsearch hpages
    refine ⟨_, k₂, hok, ?_⟩
    cases hn : resolve k.dev.content path with
    | none =>
        cases hlisted : follow (lookupListed k.dev.content) 2 path with
        | none => rfl
        | some m =>
            rw [resolve_of_listed hm.image hlisted] at hn
            cases hn
    | some n =>
        obtain ⟨hlt, hfirst⟩ := hinode n hn
        rw [(follow_listed_iff hm.image hn).mpr hfirst]
        exact toUInt32_toUInt8_iff.mpr hlt

end

/-! ## Two volumes -/

/-- A volume of 16 blocks. Its root directory has two of them: one with `.`, and
one with the file `a`, inode 11. -/
def twoBlockVolume : Image := .ofBytes
  -- superblock: 16 inodes, 16 blocks, one group
  [(1024, 16), (1028, 16), (1044, 1), (1056, 16), (1064, 16),
   -- group descriptor: the inode table is in blocks 3 and 4
   (2056, 3),
   -- inode 2: a directory in blocks 5 and 6
   (3201, 0x40), (3205, 8), (3240, 5), (3244, 6),
   -- inode 11: a file
   (4353, 0x80),
   (5120, 2), (5125, 4), (5126, 1), (5128, 46),
   (6144, 11), (6149, 4), (6150, 1), (6152, 97)]

theorem twoBlockVolume_reachable {n : UInt32} (h : Reachable twoBlockVolume n) :
    n = 2 ∨ n = 11 := by
  induction h with
  | root => exact .inl rfl
  | entry hd hdir he hne ih =>
      rcases ih with rfl | rfl
      · revert he
        have : directory twoBlockVolume 2 =
            [⟨2, 1024, [46]⟩, ⟨11, 1024, [97]⟩] := by decide
        rw [this]
        simp only [List.mem_cons, List.not_mem_nil, or_false]
        rintro (rfl | rfl)
        · exact .inl rfl
        · exact .inr rfl
      · exact absurd hdir (by decide)

theorem twoBlockVolume_wellFormed : WellFormed twoBlockVolume where
  blocksize := by decide
  superblockId := by decide
  blocksInBlockgroup := by decide
  inodesInBlockgroup := by decide
  groups := by decide
  descriptors := by decide
  root := by decide
  inode n hn := by
    rcases twoBlockVolume_reachable hn with rfl | rfl <;> decide
  directory d hd hdir := by
    rcases twoBlockVolume_reachable hd with rfl | rfl
    · decide
    · exact absurd hdir (by decide)

/-- A volume of 16 blocks. Its root directory lists the directory `a`, inode 11,
and the file `b`, inode 12; and `a` lists a file `b`, inode 13. -/
def nestedVolume : Image := .ofBytes
  [(1024, 16), (1028, 16), (1044, 1), (1056, 16), (1064, 16),
   (2056, 3),
   -- inode 2: a directory in block 5
   (3201, 0x40), (3205, 4), (3240, 5),
   -- inode 11: a directory in block 6
   (4353, 0x40), (4357, 4), (4392, 6),
   (4481, 0x80), (4609, 0x80),
   (5120, 11), (5124, 12), (5126, 1), (5128, 97),
   (5132, 12), (5136, 0xF4), (5137, 3), (5138, 1), (5140, 98),
   (6144, 13), (6149, 4), (6150, 1), (6152, 98)]

theorem nestedVolume_reachable {n : UInt32} (h : Reachable nestedVolume n) :
    n = 2 ∨ n = 11 ∨ n = 12 ∨ n = 13 := by
  induction h with
  | root => exact .inl rfl
  | entry hd hdir he hne ih =>
      have hroot : directory nestedVolume 2 = [⟨11, 12, [97]⟩, ⟨12, 1012, [98]⟩] := by
        decide
      have hbelow : directory nestedVolume 11 = [⟨13, 1024, [98]⟩] := by decide
      rcases ih with rfl | rfl | rfl | rfl
      · rw [hroot] at he
        rcases List.mem_cons.mp he with rfl | he
        · exact .inr (.inl rfl)
        · rw [List.mem_singleton.mp he]
          exact .inr (.inr (.inl rfl))
      · rw [hbelow] at he
        rw [List.mem_singleton.mp he]
        exact .inr (.inr (.inr rfl))
      · exact absurd hdir (by decide)
      · exact absurd hdir (by decide)

theorem nestedVolume_wellFormed : WellFormed nestedVolume where
  blocksize := by decide
  superblockId := by decide
  blocksInBlockgroup := by decide
  inodesInBlockgroup := by decide
  groups := by decide
  descriptors := by decide
  root := by decide
  inode n hn := by
    rcases nestedVolume_reachable hn with rfl | rfl | rfl | rfl <;> decide
  directory d hd hdir := by
    rcases nestedVolume_reachable hd with rfl | rfl | rfl | rfl
    · decide
    · decide
    · exact absurd hdir (by decide)
    · exact absurd hdir (by decide)

/-- A kernel that was just loaded, with a disk of 16 KiB that holds a volume and
the path at `0x1000`. -/
def volumeState (c : Image) (path : List (List UInt8)) : Kernel Disk :=
  { Kernel.zero { Disk.blank 1 32 with content := c } with
    mem := Mem.write (fun _ => 0) 0x1000 0x1000 fun i => (pathString path ++ [0]).getD i 0 }

theorem volumeState_mounted (path : List (List UInt8)) : ∃ priv,
    Mounted ⟨0, 0, 0, 512⟩ 1 32 priv (volumeState twoBlockVolume path).dev :=
  ⟨⟨superblock twoBlockVolume, 2, 1, 1024, 2, 8⟩,
    ⟨⟨⟨⟨.inl rfl, rfl⟩, rfl⟩, Disk.blank_answer 1 32⟩, twoBlockVolume_wellFormed,
      show 2 * (superblock twoBlockVolume).blocks.toNat ≤ 32 by decide,
      show fillPrivData (superblock twoBlockVolume) = _ by decide⟩⟩

theorem nestedVolume_mounted (path : List (List UInt8)) :
    Mounted ⟨0, 0, 0, 512⟩ 1 32 ⟨superblock nestedVolume, 2, 1, 1024, 2, 8⟩
      (volumeState nestedVolume path).dev :=
  ⟨⟨⟨⟨.inl rfl, rfl⟩, rfl⟩, Disk.blank_answer 1 32⟩, nestedVolume_wellFormed,
    show 2 * (superblock nestedVolume).blocks.toNat ≤ 32 by decide,
    show fillPrivData (superblock nestedVolume) = _ by decide⟩

theorem volumeState_holdsString [Layout] {c : Image} {path : List (List UInt8)}
    (h0 : 0 ∉ pathString path) (hshort : (pathString path).length < 0x1000) :
    HoldsString (volumeState c path) 0x1000 (pathString path) := by
  have hlen : (pathString path ++ [0]).length = (pathString path).length + 1 :=
    List.length_append
  refine ⟨?_, fun a ha => ?_, h0, hshort⟩
  · exact bytesAt_write_getD (show (pathString path ++ [0]).length ≤ 0x1000 by omega)
      (by decide)
  · rw [span_iff (by rw [show (0x1000 : UInt32).toNat = 0x1000 from rfl]; omega),
      show (0x1000 : UInt32).toNat = 0x1000 from rfl] at ha
    exact not_freeAt_low (by omega)

theorem volumeState_holdsPath [Layout] {c : Image} {path : List (List UInt8)}
    (hp : IsPath path) : HoldsPath (volumeState c path) 0x1000 path := by
  have hstring := volumeState_holdsString (c := c)
    (zero_not_mem_pathString fun name hname => (hp.names name hname).2.1) hp.short
  exact ⟨hstring.string, hstring.apart⟩

theorem nestedVolume_a : lookupListed nestedVolume 2 [97] = some 11 := by decide

theorem nestedVolume_ab : lookupListed nestedVolume 11 [98] = some 13 := by decide

theorem nestedVolume_depth :
    followDepth (lookupListed nestedVolume) 2 [[97], [98]] = 2 := by
  rw [followDepth_some nestedVolume_a, followDepth_some nestedVolume_ab]
  rfl

/-- On the way of `/a/b` there are directories only. -/
theorem nestedVolume_searchable :
    Along (lookupListed nestedVolume) (Searchable nestedVolume) 2 [[97], [98]] := by
  have hroot : IsDirectory nestedVolume 2 := by decide
  have hdir : IsDirectory nestedVolume 11 := by decide
  refine ⟨.inl hroot, fun n hn => ?_⟩
  obtain rfl : 11 = n := Option.some.inj (nestedVolume_a.symm.trans hn)
  exact ⟨.inl hdir, fun _ _ => trivial⟩

theorem nestedVolume_isPath : IsPath [[97], [98]] := ⟨by decide, by decide, by decide⟩

theorem nestedVolume_explores : Explores nestedVolume (pathString [[97], [98]]) := by
  rw [Explores, searchNames_pathString nestedVolume_isPath]
  exact (walks_of_searchable nestedVolume_wellFormed .root nestedVolume_searchable).explores

/-- The path `/a/b` on the volume with a directory below the root, from the first state of the
kernel. -/
theorem ext2FindFileInode_iff_nested : ∃ (_ : Layout) (priv : Ext2PrivData),
    Mounted ⟨0, 0, 0, 512⟩ 1 32 priv (volumeState nestedVolume [[97], [98]]).dev ∧
      resolve nestedVolume [[97], [98]] = some 13 ∧
      Finds ⟨0, 0, 0, 512⟩ priv 0x1000 (volumeState nestedVolume [[97], [98]]) 0x1000 0x3000
        [[97], [98]] := by
  let _ := bootLayout
  have hresolve : resolve nestedVolume [[97], [98]] = some 13 := by decide
  refine ⟨bootLayout, _, nestedVolume_mounted _, hresolve,
    (ext2FindFileInode_iff 0x3000 (nestedVolume_mounted _) nestedVolume_isPath
      (volumeState_holdsPath nestedVolume_isPath) (by decide) nestedVolume_searchable).mpr
        ⟨?_, fun n hn => ?_⟩⟩
  · exact show 5 + followDepth (lookupListed nestedVolume) 2 [[97], [98]] ≤
      freeCount (Kernel.zero ()).kMemoryMap by simp [nestedVolume_depth]
  · obtain rfl : 13 = n := Option.some.inj (hresolve.symm.trans hn)
    have ha : lookup nestedVolume 2 [97] = some 11 := by decide
    refine ⟨by decide, Option.isSome_of_eq_some nestedVolume_a, fun d hd => ?_⟩
    obtain rfl : 11 = d := Option.some.inj (ha.symm.trans hd)
    exact ⟨Option.isSome_of_eq_some nestedVolume_ab, fun _ _ => trivial⟩

/-- The path `/a` names inode 11, whose entry is in the root's second block. The
search returns 0. -/
theorem ext2FindFileInode_second_block : ∃ (_ : Layout) (priv : Ext2PrivData),
    Mounted ⟨0, 0, 0, 512⟩ 1 32 priv (volumeState twoBlockVolume [[97]]).dev ∧
      resolve twoBlockVolume [[97]] = some 11 ∧
      ¬ Finds ⟨0, 0, 0, 512⟩ priv 0x1000 (volumeState twoBlockVolume [[97]]) 0x1000 0x3000
        [[97]] := by
  let _ := bootLayout
  obtain ⟨priv, hm⟩ := volumeState_mounted [[97]]
  have hp : IsPath [[97]] := ⟨by decide, by decide, by decide⟩
  have hlisted : lookupListed twoBlockVolume 2 [97] = none := by decide
  have hresolve : resolve twoBlockVolume [[97]] = some 11 := by decide
  have hroot : IsDirectory twoBlockVolume 2 := by decide
  have hdepth : followDepth (lookupListed twoBlockVolume) 2 [[97]] = 0 := followDepth_none hlisted
  obtain ⟨k', hrun⟩ := ext2FindFileInode_ok 0x3000 hm hp (volumeState_holdsPath hp)
    (show 0x1000 ≤ 0x1000 by decide) ⟨.inl hroot, fun _ _ => trivial⟩
    (show 5 + followDepth (lookupListed twoBlockVolume) 2 [[97]] ≤
      freeCount (Kernel.zero ()).kMemoryMap by simp [hdepth])
  refine ⟨bootLayout, priv, hm, hresolve, ?_⟩
  rintro ⟨r, k₁, hr, heq⟩
  rw [hrun] at hr
  injection hr with hr
  rw [show resolve (volumeState twoBlockVolume [[97]]).dev.content [[97]] = some 11
    from hresolve, ← hr, show follow (lookupListed (volumeState twoBlockVolume
      [[97]]).dev.content) 2 [[97]] = none from follow_none hlisted] at heq
  exact absurd heq (by decide)

end Bedrock
