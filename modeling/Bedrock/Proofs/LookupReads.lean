import Bedrock.Proofs.DeviceViews
import Bedrock.Proofs.PathLookup

/-!
# What a lookup reads

Which sectors a lookup asks for is read off the volume (`lookupSectors`): the block
of the group descriptors, the blocks of the inodes on the way, and the first block
of each directory it goes through. So it is enough for a lookup to be seen on
another device that the reads of these sectors are (`at_coveredLookup`).
-/

namespace Bedrock

open Lib Lib.Exec Image

/-! ## The sectors of a lookup -/

section

variable (rel : Nat) (c : Image)

/-- The physical sectors of a block. -/
def blockSectors (b : Nat) : List UInt32 :=
  [UInt32.ofNat (2 * b / rel), UInt32.ofNat ((2 * b + 1) / rel)]

/-- Where an inode is read from: the block of the group descriptors, and its own. -/
def inodeSectors (n : UInt32) : List UInt32 :=
  blockSectors rel 2 ++ blockSectors rel (inodeBlock c n)

/-- Where the search reads for its next name: the first block of the directory it is in, and
the inode that is listed there. -/
def nameSectors (s : SearchState) (name : List UInt8) : List UInt32 :=
  if directBlock c s.inode 0 = 0 then []
  else blockSectors rel (directBlock c s.inode 0).toNat ++
    match lookupListed c s.inode name with
    | some n => inodeSectors rel c n
    | none => []

def walkSectors : SearchState → List (List UInt8) → List UInt32
  | _, [] => []
  | s, name :: path => nameSectors rel c s name ++
      match searchStep c s name with
      | some t => walkSectors t path
      | none => []

/-- Where a lookup of `l` reads: the root's inode, and what its names lead to. -/
def lookupSectors (l : List UInt8) : List UInt32 :=
  inodeSectors rel c 2 ++ walkSectors rel c ⟨2, 0, 0⟩ (searchNames l)

variable {rel c}

theorem nameSectors_subset {s : SearchState} {name : List UInt8} {path : List (List UInt8)} :
    nameSectors rel c s name ⊆ walkSectors rel c s (name :: path) := by
  rw [walkSectors]
  exact List.subset_append_left _ _

theorem walkSectors_subset {s t : SearchState} {name : List UInt8} {path : List (List UInt8)}
    (h : searchStep c s name = some t) :
    walkSectors rel c t path ⊆ walkSectors rel c s (name :: path) := by
  rw [walkSectors, h]
  exact List.subset_append_right _ _

end

/-! ## The volume is on the disk -/

section

variable {dev : DeviceInfo} {rel sectors : Nat} {priv : Ext2PrivData} {disk : Disk} {n : UInt32}

/-- The disk answers for all of these. -/
def Answered (disk : Disk) (lbas : List UInt32) : Prop := ∀ lba ∈ lbas, disk.answer lba = 0

theorem Answered.append {lbas lbas' : List UInt32} (h : Answered disk lbas)
    (h' : Answered disk lbas') : Answered disk (lbas ++ lbas') :=
  List.forall_mem_append.mpr ⟨h, h'⟩

theorem Readable.answered {b : Nat} (h : Readable rel 2 disk b) :
    Answered disk (blockSectors rel b) := by
  intro lba hlba
  rcases List.mem_pair.mp hlba with rfl | rfl
  · exact h.answers _ (by omega) (by omega)
  · exact h.answers _ (by omega) (by omega)

theorem inodeSectors_answered (hm : Mounted dev rel sectors priv disk)
    (hn : Reachable disk.content n) : Answered disk (inodeSectors rel disk.content n) :=
  .append (hm.inodeReadable hn).descriptors.answered (hm.inodeReadable hn).table.answered

theorem nameSectors_answered {s : SearchState} {name : List UInt8}
    (hm : Mounted dev rel sectors priv disk) (hs : Reachable disk.content s.inode)
    (hpass : Passable disk.content s name) :
    Answered disk (nameSectors rel disk.content s name) := by
  rw [nameSectors]
  by_cases hblock : directBlock disk.content s.inode 0 = 0
  · rw [if_pos hblock]
    exact List.forall_mem_nil _
  · rw [if_neg hblock]
    have hscans := (hpass.resolve_left hblock).scans hm.image hs
    refine .append (hm.readable hscans.block_lt).answered ?_
    cases hn : lookupListed disk.content s.inode name with
    | none => exact List.forall_mem_nil _
    | some n =>
        exact inodeSectors_answered hm (reachable_of_lookup hs (lookup_of_listed hm.image hs hn))

theorem walkSectors_answered {s : SearchState} {path : List (List UInt8)}
    (hm : Mounted dev rel sectors priv disk) (hs : Reachable disk.content s.inode)
    (hpass : Along (searchStep disk.content) (Passable disk.content) s path) :
    Answered disk (walkSectors rel disk.content s path) := by
  induction path generalizing s with
  | nil => exact List.forall_mem_nil _
  | cons name path ih =>
      obtain ⟨hname, hrest⟩ := hpass
      refine .append (nameSectors_answered hm hs hname) ?_
      cases hstep : searchStep disk.content s name with
      | none => exact List.forall_mem_nil _
      | some t => exact ih (searchStep_reachable hm.image hs hstep) (hrest t hstep)

/-- The disk answers for every sector of a lookup. -/
theorem lookupSectors_answered {l : List UInt8} (hm : Mounted dev rel sectors priv disk)
    (hpass : Explores disk.content l) : Answered disk (lookupSectors rel disk.content l) :=
  .append (inodeSectors_answered hm .root) (walkSectors_answered hm .root hpass)

end

/-! ## On another device -/

variable {δ : Type} {V : DeviceView Disk δ} {ide : Ide δ} {P : UInt32 → Prop}

/-- On the other device the reads of these sectors are seen. -/
structure CoversReads (V : DeviceView Disk δ) (ide : Ide δ) (P : UInt32 → Prop) : Prop
    extends Admits V where
  inv : ∀ d, V.inv d
  reads : ∀ lba, P lba → ∀ drive edi, Simulates V.machine
    (Disk.ide.readSectors drive 1 lba 0 edi) (ide.readSectors drive 1 lba 0 edi)

section

variable [Layout] {dev : DeviceInfo} {rel sectors : Nat} {priv : Ext2PrivData}

/-- A block whose sectors are covered. -/
theorem simulates_coveredBlock (hV : CoversReads V ide P) {b : UInt32} (hg : Geometry dev rel)
    (hs : BlockSize priv 2) (hlow : 2 * b.toNat + 2 ≤ 2 ^ 22)
    (h : ∀ lba ∈ blockSectors rel b.toNat, P lba) (buf : UInt32) :
    Simulates V.kernel (ext2ReadBlock Disk.ide dev priv b buf)
      (ext2ReadBlock ide dev priv b buf) := by
  have hfirst := toInt_toInt32 (x := b * UInt32.ofNat 2)
    (by rw [hs.toNat_firstSector (by omega)]; omega)
  rw [hs.toNat_firstSector (by omega)] at hfirst
  have hsector : ∀ i < 2, ∀ buffer, Simulates V.kernel
      (readSector Disk.ide dev ((b * UInt32.ofNat 2).toInt32 + Int32.ofNat i) buffer)
      (readSector ide dev ((b * UInt32.ofNat 2).toInt32 + Int32.ofNat i) buffer) := by
    intro i hi buffer
    have hplace : ((b * UInt32.ofNat 2).toInt32 + Int32.ofNat i).toInt = 2 * b.toNat + i := by
      rw [Int32.toInt_add, hfirst, Int32.toInt_ofNat_of_lt (by omega),
        Int.bmod_eq_of_le (by omega) (by omega)]
      rfl
    refine simulates_readSector hV.toAdmits hg
      (fun drive edi => hV.reads _ ?_ drive edi) buffer
    rw [realSector_low hg.known (by omega) (by omega), hplace]
    refine h _ ?_
    rw [blockSectors]
    rcases Nat.lt_succ_iff_lt_or_eq.mp hi with hzero | rfl
    · obtain rfl : i = 0 := by omega
      exact List.mem_cons_self
    · exact List.mem_cons_of_mem _ List.mem_cons_self
  rw [ext2ReadBlock, ext2ReadBlock, hs.sectorsPerBlock, readSectors, readSectors, hs.rounds]
  exact .bind (.bind (hsector 0 (by omega) _) fun err => .ite (.pure 1)
    (.bind (hsector 1 (by omega) _) fun err => .ite (.pure 1) (.pure 0))) fun _ => .pure _

omit [Layout] in
theorem Mounted.divides {disk : Disk} (hm : Mounted dev rel sectors priv disk) :
    Divides priv where
  inodesInBlockgroup := by
    rw [(fillPrivData_eq hm.image hm.priv).1]
    exact hm.image.inodesInBlockgroup
  blocksize := by
    rw [hm.blockSize.blocksize]
    decide
  inodesPerBlock := by
    rw [hm.blockSize.inodesPerBlock]
    decide

/-- An inode of the volume whose sectors are covered. -/
theorem at_coveredInode (hV : CoversReads V ide P) {disk : Disk} {k : Kernel Disk} {n : UInt32}
    (hm : Mounted dev rel sectors priv disk) (hk : k.dev = disk)
    (hn : Reachable disk.content n)
    (h : ∀ lba ∈ inodeSectors rel disk.content n, P lba) (buf : UInt32) :
    View.At V.kernel (ext2ReadInode Disk.ide dev priv n buf)
      (ext2ReadInode ide dev priv n buf) k := by
  have hg := hm.serves.geometry
  obtain ⟨hsb, hfirst, hsize, -, -⟩ := fillPrivData_eq hm.image hm.priv
  obtain ⟨hdesc, htable⟩ := List.forall_mem_append.mp h
  refine at_ext2ReadInode hV.toAdmits hm.divides buf (hV.inv _) (fun p => ?_)
    fun p k₁ k₂ hrun₁ hrun₂ => ?_
  · rw [hfirst]
    exact simulates_coveredBlock (b := 2) hV hg hm.blockSize (by decide) hdesc p
  obtain ⟨hpage, rfl, hmap₁, -⟩ := kmalloc_page_inv hrun₁
  have hcount : freeCount (taken k.kMemoryMap) + 1 = freeCount k.kMemoryMap :=
    freeCount_taken hpage
  rcases Nat.lt_or_ge (freeCount k.kMemoryMap) 2 with hfew | htwo
  · obtain ⟨k', hexit⟩ := ext2ReadBlock_exit (k := k₁) priv.firstBgd
      (scratch k.kMemoryMap) hm (by rw [hmap₁]; omega)
    rw [hexit] at hrun₂
    cases hrun₂
  -- the block the run goes on with is the inode's
  have hseek := hm.volume.seeks hn (hm.inodeReadable hn)
  obtain ⟨k₁', k₂', hrun₁', hrun₂', -, -, hword, -⟩ :=
    readDescriptors_ok hm.serves.toHolds hm.blockSize hseek hk htwo
  obtain rfl : k₁ = k₁' := by
    rw [hrun₁] at hrun₁'
    injection hrun₁'
  obtain rfl : k₂ = k₂' := by
    rw [hrun₂] at hrun₂'
    injection hrun₂'
  have hlow := hseek.block.low
  have hindex := hseek.index
  have hpos := hseek.pos
  rw [hsb] at hindex
  have hblock : (inodeTable disk.content (groupOf disk.content n) + (n - 1) %
      priv.sb.inodesInBlockgroup * sizeofInode / priv.blocksize).toNat =
      inodeBlock disk.content n := by
    rw [hsize, hsb, UInt32.toNat_add, UInt32.toNat_div, UInt32.toNat_mul, UInt32.toNat_mod,
      toNat_pred hpos, show sizeofInode.toNat = 128 from rfl,
      show (1024 : UInt32).toNat = 1024 from rfl]
    rw [inodeBlock, indexOf] at hlow ⊢
    omega
  rw [hword]
  exact simulates_coveredBlock hV hg hm.blockSize (by rw [hblock]; omega)
    (by rw [hblock]; exact htable) _

/-- A round that returns leaves the loop: with what the function returns, or with the inode
its scan answered. -/
theorem ext2FindInBlock_inv {fuel : Nat} {ff inode rootBuf filename retnode b : UInt32}
    {k k' : Kernel Disk} {left : Option (Except UInt8 UInt32)}
    (h : (ext2FindInBlock Disk.ide dev priv fuel ff inode rootBuf filename retnode b).run k =
      .ok left k') :
    (∃ r, left = some (.error r)) ∨ ∃ rc k₁ k₂, left = some (.ok rc) ∧ rc ≠ 0 ∧
      (ext2ReadBlock Disk.ide dev priv b rootBuf).run k = .ok () k₁ ∧
      (ext2ReadDirectory fuel filename rootBuf).run k₁ = .ok rc k₂ := by
  rw [ext2FindInBlock] at h
  obtain ⟨_, k₁, hblock, h⟩ := Exec.bind_inv h
  obtain ⟨rc, k₂, hscan, h⟩ := Exec.bind_inv h
  by_cases hrc : rc = 0
  · rw [if_pos hrc] at h
    obtain ⟨_, _, -, h⟩ := Exec.bind_inv h
    obtain ⟨_, _, -, h⟩ := Exec.bind_inv h
    split at h
    · obtain ⟨_, _, -, h⟩ := Exec.bind_inv h
      obtain ⟨_, _, -, h⟩ := Exec.bind_inv h
      obtain ⟨_, _, -, h⟩ := Exec.bind_inv h
      split at h
      · exact .inl ⟨_, (Exec.pure_inv h).1⟩
      · exact .inl ⟨_, (Exec.pure_inv h).1⟩
    · obtain ⟨_, _, -, h⟩ := Exec.bind_inv h
      obtain ⟨_, _, -, h⟩ := Exec.bind_inv h
      obtain ⟨_, _, -, h⟩ := Exec.bind_inv h
      obtain ⟨_, _, -, h⟩ := Exec.bind_inv h
      exact .inl ⟨_, (Exec.pure_inv h).1⟩
  · rw [if_neg hrc] at h
    obtain ⟨_, _, -, h⟩ := Exec.bind_inv h
    exact .inr ⟨rc, k₁, k₂, (Exec.pure_inv h).1, hrc, hblock, hscan⟩

variable {disk : Disk} {k : Kernel Disk} {fuel i r f off : Nat} {s : SearchState}
  {name : List UInt8} {path : List (List UInt8)} {ff : UInt32}

/-- What a scan of the first block answers is listed there. -/
theorem listed_of_scan {rc : UInt32} {k₁ k₂ : Kernel Disk}
    (hm : Mounted dev rel sectors priv disk) (hk : k.dev = disk)
    (h : Searching k disk.content i r f off s.inode (name :: path))
    (hs : Scans disk.content s.inode name (lookupListed disk.content s.inode name))
    (h0 : 0 ∉ name) (hfuel : 0x1000 ≤ fuel) (hrc : rc ≠ 0)
    (hrun₁ : (ext2ReadBlock Disk.ide dev priv (directBlock disk.content s.inode 0)
      (blockAddr r)).run k = .ok () k₁)
    (hrun₂ : (ext2ReadDirectory fuel (blockAddr f + UInt32.ofNat off) (blockAddr r)).run k₁ =
      .ok rc k₂) :
    0 < freeCount k.kMemoryMap ∧ k₂.dev = disk ∧
      lookupListed disk.content s.inode name = some rc := by
  rcases Nat.eq_zero_or_pos (freeCount k.kMemoryMap) with hzero | hpos
  · obtain ⟨k', hexit⟩ := ext2ReadBlock_exit (k := k) (directBlock disk.content s.inode 0)
      (blockAddr r) hm hzero
    rw [hexit] at hrun₁
    cases hrun₁
  obtain ⟨k₁', k₂', hok₁, hok₂, hleave, -⟩ :=
    findScan_ok hm.volume hk h hs (hm.readable hs.block_lt) hpos h0 hfuel
  rw [hrun₁] at hok₁
  injection hok₁ with _ heq
  subst heq
  rw [hrun₂] at hok₂
  injection hok₂ with hanswer heq
  subst heq
  refine ⟨hpos, hleave.dev.trans hk, ?_⟩
  cases hn : lookupListed disk.content s.inode name with
  | none =>
      rw [hn, Option.getD_none] at hanswer
      exact absurd hanswer hrc
  | some n => rw [hanswer, hn, Option.getD_some]

/-- A round all of whose sectors are covered. -/
theorem at_coveredRound (retnode : UInt32) (hV : CoversReads V ide P)
    (hm : Mounted dev rel sectors priv disk) (hk : k.dev = disk)
    (h : Searching k disk.content i r f off s.inode (name :: path))
    (hs : Reachable disk.content s.inode) (hpass : Passable disk.content s name)
    (h0 : 0 ∉ name) (hfuel : 0x1000 ≤ fuel)
    (hcovered : ∀ lba ∈ nameSectors rel disk.content s name, P lba) :
    View.At V.kernel
      (forDirectBlocks (blockAddr i) (ext2FindInBlock Disk.ide dev priv fuel ff (blockAddr i)
        (blockAddr r) (blockAddr f + UInt32.ofNat off) retnode) 12 0)
      (forDirectBlocks (blockAddr i) (ext2FindInBlock ide dev priv fuel ff (blockAddr i)
        (blockAddr r) (blockAddr f + UInt32.ofNat off) retnode) 12 0) k := by
  by_cases hblock : directBlock disk.content s.inode 0 = 0
  · exact at_ok (forDirectBlocks_none h.inode hblock) (hV.inv _) fun hgood =>
      ⟨hgood, forDirectBlocks_none (k := V.kernel.map k) h.inode hblock⟩
  have hscans := (hpass.resolve_left hblock).scans hm.image hs
  rw [nameSectors, if_neg hblock] at hcovered
  obtain ⟨hfirst, hfound⟩ := List.forall_mem_append.mp hcovered
  have hlow := (hm.readable hscans.block_lt).low
  rw [show (12 : Nat) = 11 + 1 from rfl, forDirectBlocks]
  refine View.At.after (simulates_read32 _ k (hV.inv _)) (read32_run _ k) ?_
  rw [load_directBlock h.inode (by decide), if_neg hblock, if_neg hblock]
  have hread := simulates_coveredBlock hV hm.serves.geometry hm.blockSize hlow hfirst
    (blockAddr r) k (hV.inv _)
  refine View.At.bind_at (at_ext2FindInBlock hV.toAdmits ff retnode hread
    fun rc k₁ k₂ hrun₁ hrun₂ hrc => ?_) fun left k' hrun => ?_
  · obtain ⟨-, hdev, hn⟩ := listed_of_scan hm hk h hscans h0 hfuel hrc hrun₁ hrun₂
    rw [hn] at hfound
    exact at_coveredInode hV hm hdev (reachable_of_lookup hs (lookup_of_listed hm.image hs hn))
      hfound (blockAddr i)
  · rcases ext2FindInBlock_inv hrun with ⟨r, rfl⟩ | ⟨rc, -, -, rfl, -⟩
    · exact Simulates.pure _ k' (hV.inv _)
    · exact Simulates.pure _ k' (hV.inv _)

/-- A loop over the direct blocks of a directory is its first round. -/
theorem findRound_body {filename retnode d : UInt32} {c : Image} {k' : Kernel Disk}
    {left : Option (Except UInt8 UInt32)}
    (hinode : Mirrors k.mem (blockAddr i) 128 c (inodeOff c d)) (hblock : directBlock c d 0 ≠ 0)
    (h : (forDirectBlocks (blockAddr i) (ext2FindInBlock Disk.ide dev priv fuel ff (blockAddr i)
      (blockAddr r) filename retnode) 12 0).run k = .ok left k') :
    (ext2FindInBlock Disk.ide dev priv fuel ff (blockAddr i) (blockAddr r) filename retnode
      (directBlock c d 0)).run k = .ok left k' := by
  rw [show (12 : Nat) = 11 + 1 from rfl, forDirectBlocks, Exec.bind_ok (read32_run _ k),
    load_directBlock hinode (by decide), if_neg hblock] at h
  obtain ⟨left', k₃, hbody, h⟩ := Exec.bind_inv h
  rcases ext2FindInBlock_inv hbody with ⟨e, rfl⟩ | ⟨rc, -, -, rfl, -⟩
  · obtain ⟨rfl, rfl⟩ := Exec.pure_inv h
    exact hbody
  · obtain ⟨rfl, rfl⟩ := Exec.pure_inv h
    exact hbody

/-- A round with which the search goes on has read the inode that is listed. -/
theorem findRound_inv {rc retnode : UInt32} {k' : Kernel Disk}
    (hm : Mounted dev rel sectors priv disk) (hk : k.dev = disk)
    (h : Searching k disk.content i r f off s.inode (name :: path))
    (hs : Reachable disk.content s.inode) (hpass : Passable disk.content s name)
    (h0 : 0 ∉ name) (hfuel : 0x1000 ≤ fuel)
    (hrun : (forDirectBlocks (blockAddr i) (ext2FindInBlock Disk.ide dev priv fuel ff
      (blockAddr i) (blockAddr r) (blockAddr f + UInt32.ofNat off) retnode) 12 0).run k =
        .ok (some (.ok rc)) k') :
    searchStep disk.content s name = some ⟨rc, rc, s.reads + 1⟩ ∧ k'.dev = disk ∧
      Searching k' disk.content i r f (off + (name.length + 1)) rc path ∧
      BytesAt k'.mem (blockAddr f + UInt32.ofNat off) (name ++ [0]) := by
  by_cases hblock : directBlock disk.content s.inode 0 = 0
  · rw [forDirectBlocks_none h.inode hblock] at hrun
    cases hrun
  have hscans := (hpass.resolve_left hblock).scans hm.image hs
  rcases ext2FindInBlock_inv (findRound_body h.inode hblock hrun) with
    ⟨e, hleft⟩ | ⟨n, k₁, k₂, hleft, hrc, hrun₁, hrun₂⟩
  · cases hleft
  cases hleft
  obtain ⟨hpos, -, hn⟩ := listed_of_scan hm hk h hscans h0 hfuel hrc hrun₁ hrun₂
  have hstep := searchStep_found hblock hn
  have hreach := searchStep_reachable hm.image hs hstep
  rw [hn] at hscans
  rcases Nat.lt_or_ge (freeCount k.kMemoryMap) 2 with hfew | htwo
  · obtain ⟨k₄, hexit⟩ := findRound_exit ff retnode hm hk h hscans hpos hfew h0 hfuel
    rw [hexit] at hrun
    cases hrun
  obtain ⟨k₄, hok, hdev, -, hnext, hname, -⟩ := findRound_found ff retnode hm.volume hk h hscans
    hreach (hm.readable hscans.block_lt) (hm.inodeReadable hreach) htwo h0 hfuel
  rw [hrun] at hok
  injection hok with _ heq
  subst heq
  exact ⟨hstep, hdev, hnext, hname⟩

/-- The loop goes on behind the name it has looked for. -/
theorem at_nextName {n : Nat} (hV : CoversReads V ide P)
    (hname : BytesAt k.mem (blockAddr f + UInt32.ofNat off) (name ++ [0])) (h0 : 0 ∉ name)
    (hlen : name.length < fuel) (retnode : UInt32)
    (hrest : View.At V.kernel
      (ext2FindLoop Disk.ide dev priv fuel ff (blockAddr i) (blockAddr r) n
        (blockAddr f + UInt32.ofNat (off + (name.length + 1))) retnode)
      (ext2FindLoop ide dev priv fuel ff (blockAddr i) (blockAddr r) n
        (blockAddr f + UInt32.ofNat (off + (name.length + 1))) retnode) k) :
    View.At V.kernel
      (do
        let len ← strlen fuel (chars (← get).mem (blockAddr f + UInt32.ofNat off))
        ext2FindLoop Disk.ide dev priv fuel ff (blockAddr i) (blockAddr r) n
          (blockAddr f + UInt32.ofNat off + (len.toUInt32 + 1)) retnode)
      (do
        let len ← strlen fuel (chars (← get).mem (blockAddr f + UInt32.ofNat off))
        ext2FindLoop ide dev priv fuel ff (blockAddr i) (blockAddr r) n
          (blockAddr f + UInt32.ofNat off + (len.toUInt32 + 1)) retnode) k := by
  refine View.At.bind_get (View.At.after (simulates_strlen hV.toAdmits fuel _ k (hV.inv _))
    (strlen_run (isStr_of_bytesAt h0 hname) hlen) ?_)
  rw [Int32.toUInt32_ofNat', UInt32.add_assoc, show (1 : UInt32) = UInt32.ofNat 1 from rfl,
    ← UInt32.ofNat_add, ← UInt32.ofNat_add]
  exact hrest

/-- The loop over names, all of whose sectors are covered. -/
theorem at_coveredLoop (hV : CoversReads V ide P) (hm : Mounted dev rel sectors priv disk)
    (hk : k.dev = disk) (h : Searching k disk.content i r f off s.inode path)
    (hs : Reachable disk.content s.inode)
    (hpass : Along (searchStep disk.content) (Passable disk.content) s path)
    (h0 : ∀ name ∈ path, 0 ∉ name) (hfuel : 0x1000 ≤ fuel)
    (hcovered : ∀ lba ∈ walkSectors rel disk.content s path, P lba) :
    View.At V.kernel
      (ext2FindLoop Disk.ide dev priv fuel ff (blockAddr i) (blockAddr r) path.length
        (blockAddr f + UInt32.ofNat off) s.retnode)
      (ext2FindLoop ide dev priv fuel ff (blockAddr i) (blockAddr r) path.length
        (blockAddr f + UInt32.ofNat off) s.retnode) k := by
  induction path generalizing k off s with
  | nil => exact Simulates.pure _ k (hV.inv _)
  | cons name path ih =>
      have h0' : ∀ n ∈ path, 0 ∉ n := fun n hn => h0 n (List.mem_cons_of_mem _ hn)
      have hname0 := h0 name List.mem_cons_self
      obtain ⟨hname, hrest⟩ := hpass
      have hroom := h.name_room
      have hlen : name.length < fuel := by omega
      -- the rest of the loop, from where a round has gone on to the state `t`
      have hnext : ∀ (t : SearchState) (k₂ : Kernel Disk), searchStep disk.content s name = some t →
          k₂.dev = disk → Searching k₂ disk.content i r f (off + (name.length + 1)) t.inode path →
          View.At V.kernel
            (ext2FindLoop Disk.ide dev priv fuel ff (blockAddr i) (blockAddr r) path.length
              (blockAddr f + UInt32.ofNat (off + (name.length + 1))) t.retnode)
            (ext2FindLoop ide dev priv fuel ff (blockAddr i) (blockAddr r) path.length
              (blockAddr f + UInt32.ofNat (off + (name.length + 1))) t.retnode) k₂ := by
        intro t k₂ hstep hdev₂ h₂
        exact ih hdev₂ h₂ (searchStep_reachable hm.image hs hstep) (hrest t hstep) h0'
          fun lba hlba => hcovered lba (walkSectors_subset hstep hlba)
      rw [List.length_cons, ext2FindLoop]
      refine at_kprintMsg (hV.inv _) (at_kprintMsg (hV.inv _)
        (at_kprintMsg (hV.inv _) ?_))
      obtain ⟨k₁, hk₁⟩ : ∃ k₁, k₁ = ((k.print (.str "Looking for: ")).print
        (.mem (blockAddr f + UInt32.ofNat off))).print (.str "\n") := ⟨_, rfl⟩
      have hdev₁ : k₁.dev = disk := by rw [hk₁]; exact hk
      have h₁ : Searching k₁ disk.content i r f off s.inode (name :: path) := by
        rw [hk₁]
        exact h.congr ⟨rfl, rfl, SameOff.refl _⟩
      rw [← hk₁]
      refine (at_coveredRound s.retnode hV hm hdev₁ h₁ hs hname hname0 hfuel fun lba hlba =>
        hcovered lba (nameSectors_subset hlba)).bind_at fun left k₂ hround => ?_
      rcases left with - | e | rc
      · -- the name is passed over
        by_cases hblock : directBlock disk.content s.inode 0 = 0
        · rw [forDirectBlocks_none h₁.inode hblock] at hround
          injection hround with _ heq
          subst heq
          exact at_nextName hV h₁.name_at.1 hname0 hlen s.retnode
            (hnext s _ (searchStep_skip name hblock) hdev₁ h₁.skip)
        · rcases ext2FindInBlock_inv (findRound_body h₁.inode hblock hround) with
            ⟨e, hleft⟩ | ⟨rc, -, -, hleft, -⟩
          · cases hleft
          · cases hleft
      · exact Simulates.pure _ k₂ (hV.inv _)
      · obtain ⟨hstep, hdev₂, h₂, hname₂⟩ :=
          findRound_inv hm hdev₁ h₁ hs hname hname0 hfuel hround
        exact at_nextName hV hname₂ hname0 hlen rc (hnext _ k₂ hstep hdev₂ h₂)

/-- The search from the root on, all of whose sectors are covered. -/
theorem at_coveredSearch {l : List UInt8} {k₀ : Kernel Disk} (ff inodeBuf : UInt32)
    (hV : CoversReads V ide P) (hm : Mounted dev rel sectors priv k₀.dev)
    (h : SetUp k₀ k i r f l) (h0 : 0 ∉ l) (hshort : l.length < 0x1000)
    (hfuel : 0x1000 ≤ fuel) (hpass : Explores k₀.dev.content l)
    (hcovered : ∀ lba ∈ lookupSectors rel k₀.dev.content l, P lba) :
    View.At V.kernel
      (ext2FindFromRoot Disk.ide dev priv fuel ff inodeBuf (blockAddr i) (blockAddr r)
        (blockAddr f + UInt32.ofNat 1) (searchNames l).length)
      (ext2FindFromRoot ide dev priv fuel ff inodeBuf (blockAddr i) (blockAddr r)
        (blockAddr f + UInt32.ofNat 1) (searchNames l).length) k := by
  obtain ⟨hroot, hwalk⟩ := List.forall_mem_append.mp hcovered
  have hlen := length_nameStrings_searchNames l
  have hnames := h.names
  rw [nameStrings_searchNames, bytesAt_append] at hnames
  refine (at_coveredInode hV hm h.dev .root hroot (blockAddr i)).bind_at fun _ k₂ hrun => ?_
  rcases Nat.lt_or_ge (freeCount k.kMemoryMap) 2 with hfew | htwo
  · obtain ⟨k', hexit⟩ := ext2ReadInode_exit (k := k) 2 (blockAddr i) hm hfew
    rw [hexit] at hrun
    cases hrun
  obtain ⟨k₂', hok, hdev₂, -, h₂, -⟩ := readRoot_ok hm.volume (hm.inodeReadable .root) h.dev
    h.pages htwo (fun a ha => h.zero a (.inl (ha.sub (by omega) (by omega)))) hnames.1 (by omega)
  rw [hrun] at hok
  injection hok with _ heq
  subst heq
  refine (at_coveredLoop (s := ⟨2, 0, 0⟩) hV hm hdev₂ h₂ .root hpass
    (fun name => zero_not_mem_searchNames h0) hfuel hwalk).bind fun left => ?_
  rcases left with e | ⟨filename, retnode⟩
  · exact .pure e
  · exact .bind (simulates_memoryCopy _ _ _) fun _ =>
      .bind (simulates_ext2FindRelease hV.toAdmits _ _ _) fun _ => .pure _

theorem simulates_ext2FindSetup (hD : Admits V) :
    Simulates V.kernel (ext2FindSetup fuel ff) (ext2FindSetup fuel ff) := by
  refine .bind (simulates_kmalloc hD 1) fun inode => ?_
  refine .bind (simulates_kmalloc hD 1) fun rootBuf => ?_
  refine .bind (simulates_kmalloc hD 1) fun filename => .bind_get fun k hk => ?_
  refine Simulates.bind (simulates_strlen hD fuel _) (fun len => ?_) k hk
  refine .bind (simulates_memoryCopy ff filename (len + 1)) fun _ => ?_
  exact .bind (simulates_strsplit hD fuel filename slash) fun n => .pure _

/-- A lookup all of whose sectors are covered. -/
theorem at_coveredLookup {l : List UInt8} (inodeBuf : UInt32) (hV : CoversReads V ide P)
    (hm : Mounted dev rel sectors priv k.dev) (hff : HoldsString k ff l) (hslash : slash ∈ l)
    (hfuel : 0x1000 ≤ fuel) (hpass : Explores k.dev.content l)
    (hcovered : ∀ lba ∈ lookupSectors rel k.dev.content l, P lba) :
    View.At V.kernel (ext2FindFileInode Disk.ide dev priv fuel ff inodeBuf)
      (ext2FindFileInode ide dev priv fuel ff inodeBuf) k := by
  have hshort := hff.short
  rw [ext2FindFileInode_eq, ext2FindFileInode_eq]
  refine (simulates_ext2FindSetup hV.toAdmits k (hV.inv _)).bind_at fun e k₁ hrun => ?_
  rcases Nat.lt_or_ge (freeCount k.kMemoryMap) 3 with hfew | hthree
  · obtain ⟨k', hexit⟩ := ext2FindSetup_noPages ff hfew
    rw [hexit] at hrun
    cases hrun
  obtain ⟨i, r, f, k₁', hsetup, hok⟩ :=
    ext2FindSetup_ok hff (show l.length < fuel by omega) hthree
  rw [hrun] at hok
  injection hok with he heq
  subst he heq
  have hcount : (Int32.ofNat (l.count slash) + 1).toInt = l.count slash + 1 :=
    toInt_count (Nat.lt_of_le_of_lt List.count_le_length hshort)
  simp only [one_lt_segments hshort, hslash, if_true, hcount]
  have hsearch := at_coveredSearch ff inodeBuf hV hm hsetup hff.nonzero hshort hfuel hpass
    hcovered
  rw [length_searchNames] at hsearch
  rwa [show ((l.count slash : Int) + 1).toNat - 1 = l.count slash by omega]

end

/-! ## The requests -/

/-- The program, and whether all that was asked for so far was allowed. -/
def checkRequest {δ α : Type} (allowed : Bool) (x : Exec Halt (Machine δ) α) :
    Exec Halt (Machine (δ × Bool)) α := fun s =>
  match x.run ⟨s.mem, s.console, s.dev.1⟩ with
  | .ok a t => .ok a ⟨t.mem, t.console, (t.dev, s.dev.2 && allowed)⟩
  | .error e t => .error e ⟨t.mem, t.console, (t.dev, s.dev.2 && allowed)⟩

/-- The same driver, which tells whether it was asked for these sectors only. -/
def Ide.within {δ : Type} (lbas : List UInt32) (ide : Ide δ) : Ide (δ × Bool) where
  readSectors drive numsects lba es edi :=
    checkRequest (lbas.contains lba) (ide.readSectors drive numsects lba es edi)
  writeSectors drive numsects lba es edi :=
    checkRequest (lbas.contains lba) (ide.writeSectors drive numsects lba es edi)

theorem Disk.within_run (lbas : List UInt32) (drive numsects : UInt8) (lba : UInt32)
    (es : UInt16) (edi : UInt32) (s : Machine (Disk × Bool)) :
    ((Disk.ide.within lbas).readSectors drive numsects lba es edi).run s =
      .ok (s.dev.1.answer lba) ⟨s.dev.1.delivered numsects lba edi s.mem, s.console,
        (s.dev.1, s.dev.2 && lbas.contains lba)⟩ := by
  show checkRequest _ _ s = _
  rw [checkRequest, Disk.readSectors_run]

section

variable {lbas : List UInt32}

/-- A run within the sectors. -/
def withinView : DeviceView Disk (Disk × Bool) where
  map d := (d, true)
  inv _ := True
  good _ := True
  stops _ := True

theorem covers_within : CoversReads withinView (Disk.ide.within lbas) fun lba => lba ∈ lbas where
  stops _ _ _ := trivial
  inv _ := trivial
  reads lba h drive edi s _ := by
    refine at_ok (Disk.readSectors_run drive 1 lba 0 edi s) trivial fun _ => ⟨trivial, ?_⟩
    refine (Disk.within_run lbas drive 1 lba 0 edi _).trans ?_
    simp only [DeviceView.machine, withinView, List.contains_iff_mem.mpr h, Bool.and_self]

/-- What a record says of the sectors. -/
def recordView (lbas : List UInt32) : DeviceView (Disk × List UInt32) (Disk × Bool) where
  map d := (d.1, d.2.all lbas.contains)
  inv _ := True
  good _ := True
  stops _ := True

theorem recordView_admits : Admits (recordView lbas) := ⟨fun _ _ _ => trivial⟩

theorem simulates_record (lbas : List UInt32) (drive numsects : UInt8) (lba : UInt32)
    (es : UInt16) (edi : UInt32) : Simulates (recordView lbas).machine
      (Disk.ide.recorded.readSectors drive numsects lba es edi)
      ((Disk.ide.within lbas).readSectors drive numsects lba es edi) := by
  intro s _
  refine at_ok (Disk.recorded_run drive numsects lba es edi s) trivial fun _ => ⟨trivial, ?_⟩
  refine (Disk.within_run lbas drive numsects lba es edi _).trans ?_
  simp only [DeviceView.machine, recordView, List.all_append, List.all_cons, List.all_nil,
    Bool.and_true]

/-- A run that stays within the sectors asks for no others. -/
theorem requests_mem {α : Type} {x : Kern Disk α} {y : Kern (Disk × List UInt32) α}
    {z : Kern (Disk × Bool) α} {k : Kernel Disk} {k' : Kernel (Disk × List UInt32)}
    (hk : (recordView lbas).kernel.map k' = withinView.kernel.map k)
    (hx : View.At withinView.kernel x z k) (hy : Simulates (recordView lbas).kernel y z) :
    ∀ lba ∈ (final (y.run k')).dev.2, lba ∈ lbas := by
  have hwithin := (hx.seen trivial).2
  have hrecord := ((hy k' trivial).seen trivial).2
  have hall : (final (y.run k')).dev.2.all lbas.contains = true := by
    have hflag : (final (z.run (withinView.kernel.map k))).dev.2 = true := by
      rw [hwithin]
      cases x.run k <;> rfl
    rw [← hk, hrecord] at hflag
    cases hrun : y.run k' with
    | ok a k'' =>
        rw [hrun] at hflag
        exact hflag
    | error e k'' =>
        rw [hrun] at hflag
        exact hflag
  intro lba hlba
  exact List.contains_iff_mem.mp (List.all_eq_true.mp hall lba hlba)

variable [Layout] {dev : DeviceInfo} {rel sectors fuel : Nat} {priv : Ext2PrivData}
  {k : Kernel Disk} {ff : UInt32} {l : List UInt8}

/-- A lookup asks for the sectors that the volume says, and no others. -/
theorem ext2FindFileInode_requests (inodeBuf : UInt32)
    (hm : Mounted dev rel sectors priv k.dev) (hff : HoldsString k ff l) (hslash : slash ∈ l)
    (hfuel : 0x1000 ≤ fuel) (hpass : Explores k.dev.content l) :
    ∀ lba ∈ (final ((ext2FindFileInode Disk.ide.recorded dev priv fuel ff inodeBuf).run
      k.recording)).dev.2, lba ∈ lookupSectors rel k.dev.content l := by
  refine requests_mem ?_ (at_coveredLookup inodeBuf covers_within hm hff hslash hfuel hpass
    fun _ h => h) (simulates_ext2FindFileInode ⟨recordView_admits, hm.divides, fun _ _ buffer =>
      simulates_readSector recordView_admits hm.serves.geometry
        (fun drive edi => simulates_record _ drive 1 _ 0 edi) buffer⟩ fuel ff inodeBuf)
  rfl

end

end Bedrock
