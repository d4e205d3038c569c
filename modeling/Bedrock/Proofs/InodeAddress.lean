import Bedrock.Proofs.Ext2Blocks

/-!
# The address of an inode

`ext2_read_inode` on volumes with blocks of 1024, 2048 and 4096 bytes.

That it reads the right inode is `ext2ReadInode_read`, once the inode-table word
of the group is where the driver looks for it. That it reads a wrong one
otherwise is a comparison of two runs: over two disks that differ in one byte of
the inode, a run that never delivers the sector of that byte ends in the same
memory (`Twins`), so it cannot have delivered the inode in both.
-/

namespace Bedrock

open Lib Image

/-! ## Two disks that differ in one byte -/

section

variable [Layout] {dev : DeviceInfo} {rel b : Nat} {V : UInt32 → Prop}

/-- The code finds byte `b` of the disk in sector `s`. -/
def Covers (rel : Nat) (s : Int32) (b : Nat) : Prop :=
  (placeOf rel s).offset.toNat < 512 * rel ∧
    (placeOf rel s).realSector.toNat * (512 * rel) + (placeOf rel s).offset.toNat ≤ b ∧
    b < (placeOf rel s).realSector.toNat * (512 * rel) + (placeOf rel s).offset.toNat + 512

/-- Two kernels over disks that differ in byte `b` at most, with the same memory
but for free pages; the addresses of `V` are in none. -/
structure Twins (rel b : Nat) (V : UInt32 → Prop) (k k' : Kernel Disk) : Prop where
  kMemoryMap : k'.kMemoryMap = k.kMemoryMap
  answer : k'.dev.answer = k.dev.answer
  sectorSize : k.dev.sectorSize = 512 * rel ∧ k'.dev.sectorSize = 512 * rel
  content : ∀ i, i ≠ b → k'.dev.content i = k.dev.content i
  mem : SameOff (FreeAt k.kMemoryMap) k.mem k'.mem
  kept : ∀ a, V a → ¬ FreeAt k.kMemoryMap a

omit [Layout] in
/-- The place the code computes lies in a physical sector, or less than one
before it. -/
theorem placeOf_offset (hrel : rel = 1 ∨ rel = 4) (sector : Int32) :
    (placeOf rel sector).offset.toNat + 512 ≤ 512 * rel ∨
      (2 ^ 32 - 1536 ≤ (placeOf rel sector).offset.toNat ∧
        (placeOf rel sector).offset.toNat + 512 ≤ 2 ^ 32) := by
  have hq := toInt_quotient hrel sector
  have hreal := toNat_toUInt32 (sector * 512 / Int32.ofNat (512 * rel))
  have hsec := toNat_toUInt32 sector
  have hlo := Int.le_bmod (x := sector.toInt * 512) (m := 2 ^ 32) (by omega)
  have hhi := Int.bmod_lt (x := sector.toInt * 512) (m := 2 ^ 32) (by omega)
  have hmod : (sector.toInt * 512).bmod (2 ^ 32) % 2 ^ 32 = sector.toInt * 512 % 2 ^ 32 :=
    Int.bmod_emod
  simp only [placeOf, UInt32.toNat_mul, UInt32.toNat_sub, UInt32.toNat_ofNat',
    show (512 : UInt32).toNat = 512 from rfl]
  generalize (sector.toInt * 512).bmod (2 ^ 32) = v at hq hlo hhi hmod
  have hsign : ((512 : Int) * rel).sign = 1 := by
    rcases hrel with rfl | rfl <;> rfl
  rw [Int.tdiv_eq_ediv, hsign] at hq
  rcases hrel with rfl | rfl <;> (split at hq <;> omega)

omit [Layout] in
/-- The sector a byte is found in is the byte's own, up to a multiple of `2 ^ 23`. -/
theorem Covers.sector (hrel : rel = 1 ∨ rel = 4) {s : Int32} (h : Covers rel s b) :
    (b / 512 : Nat) % 2 ^ 23 = s.toInt % 2 ^ 23 := by
  obtain ⟨-, hle, hlt⟩ := h
  have hsec := toNat_toUInt32 s
  simp only [placeOf, UInt32.toNat_mul, UInt32.toNat_sub, UInt32.toNat_ofNat',
    show (512 : UInt32).toNat = 512 from rfl] at hle hlt
  generalize (s * 512 / Int32.ofNat (512 * rel)).toUInt32.toNat = q at hle hlt
  rcases hrel with rfl | rfl <;> omega

omit [Layout] in
/-- Only the bytes of the lowest and the highest physical sectors are found. -/
theorem Covers.range (hrel : rel = 1 ∨ rel = 4) {s : Int32} (h : Covers rel s b) :
    b / (512 * rel) < 2 ^ 22 / rel ∨ 2 ^ 32 - 2 ^ 22 / rel ≤ b / (512 * rel) := by
  obtain ⟨hoff, hle, hlt⟩ := h
  have hrange := placeOf_range hrel s
  have hin := placeOf_offset hrel s
  have hphys : b / (512 * rel) = (placeOf rel s).realSector.toNat := by
    refine Nat.div_eq_of_lt_le (by omega) ?_
    rw [Nat.succ_mul]
    omega
  rw [hphys]
  exact hrange

/-- No free page lies below the next one to be taken. -/
theorem FreeAt.le {map : Vector UInt8 kMemoryMapEntries} {a : UInt32} (h : FreeAt map a) :
    (scratch map).toNat ≤ a.toNat := by
  obtain ⟨i, hi, h0, ha⟩ := h
  have hfirst : firstFree map ≤ i := by
    by_contra hlt
    exact used_before_firstFree hi (by omega) h0
  have hfits := Layout.kmallocMemory_fits
  have hbase := toNat_blockAddr (Nat.le_of_lt hi)
  have hscratch := toNat_blockAddr (i := firstFree map) (by omega)
  rw [span_iff (by rw [hbase]; simp only [kMemoryMapEntries] at hi hfits; omega)] at ha
  rw [scratch, hscratch]
  exact Nat.le_trans (Nat.add_le_add_left (Nat.mul_le_mul_right _ hfirst) _)
    (hbase ▸ ha.1)

omit [Layout] in
/-- The source of a copy is the same in both memories, so what it leaves is. -/
theorem memoryCopyLoop_agree {W : UInt32 → Prop} {m m' : Mem} {source dest : UInt32} {n : Nat}
    (h : SameOff W m m') (hn : n ≤ 2 ^ 32) (hsrc : ∀ a, Span source n a → ¬ W a) :
    SameOff W (memoryCopyLoop source dest n m) (memoryCopyLoop source dest n m') := by
  induction n with
  | zero => exact h
  | succ n ih =>
      have hrest := ih (by omega) fun a ha => hsrc a (ha.mono (by omega))
      intro a ha
      rw [memoryCopyLoop, memoryCopyLoop]
      by_cases hlast : Span (dest + UInt32.ofNat n) 1 a
      · rw [Mem.write_in hlast, Mem.write_in hlast]
        exact hrest _ (hsrc _ (span_add (by omega) hn))
      · rw [Mem.write_off hlast, Mem.write_off hlast]
        exact hrest a ha

theorem Twins.taken {k k' : Kernel Disk} (h : Twins rel b V k k')
    (hfree : 0 < freeCount k.kMemoryMap) (c c' : List Msg) (r r' : UInt32) :
    Twins rel b V
      ⟨⟨k.mem.write (scratch k.kMemoryMap) 0x1000 fun _ => 0, c, k.dev⟩,
        taken k.kMemoryMap, r⟩
      ⟨⟨k'.mem.write (scratch k.kMemoryMap) 0x1000 fun _ => 0, c', k'.dev⟩,
        taken k.kMemoryMap, r'⟩ where
  kMemoryMap := rfl
  answer := h.answer
  sectorSize := h.sectorSize
  content := h.content
  mem a ha := by
    show k'.mem.write (scratch k.kMemoryMap) 0x1000 (fun _ => 0) a =
      k.mem.write (scratch k.kMemoryMap) 0x1000 (fun _ => 0) a
    by_cases hin : Span (scratch k.kMemoryMap) 0x1000 a
    · rw [Mem.write_in hin, Mem.write_in hin]
    · rw [Mem.write_off hin, Mem.write_off hin]
      exact h.mem a fun hf => ha ((freeAt_taken hfree).mpr ⟨hf, hin⟩)
  kept a ha hf := h.kept a ha ((freeAt_taken hfree).mp hf).1

theorem twins_kmalloc : Exec.Parallel (Twins rel b V) (kmalloc 1 : Kern Disk UInt32) := by
  intro k k' h
  rcases Nat.eq_zero_or_pos (freeCount k.kMemoryMap) with hzero | hfree
  · obtain ⟨k₁, hrun, hmem, hdev, hmap⟩ := kmalloc_exit (n := 1) (k := k) (by decide)
      (by rw [hzero]; decide)
    obtain ⟨k₁', hrun', hmem', hdev', hmap'⟩ := kmalloc_exit (n := 1) (k := k') (by decide)
      (by rw [h.kMemoryMap, hzero]; decide)
    rw [hrun, hrun']
    refine ⟨rfl, ?_, ?_, ?_, ?_, ?_, ?_⟩
    · rw [hmap, hmap', h.kMemoryMap]
    · rw [hdev, hdev', h.answer]
    · rw [hdev, hdev']
      exact h.sectorSize
    · rw [hdev, hdev']
      exact h.content
    · rw [hmem, hmem', hmap]
      exact h.mem
    · rw [hmap]
      exact h.kept
  · have hrun' := kmalloc_scratch (k := k') (h.kMemoryMap ▸ hfree)
    rw [h.kMemoryMap] at hrun'
    rw [kmalloc_scratch hfree, hrun']
    exact ⟨rfl, h.taken hfree _ _ _ _⟩

/-- The sector is delivered the same from both disks. -/
theorem twins_copied {k k' : Kernel Disk} {s : Int32} (buffer : UInt32)
    (h : Twins rel b V k k') (hfree : 0 < freeCount k.kMemoryMap) (hg : Geometry dev rel)
    (hs : ¬ Covers rel s b) :
    SameOff (FreeAt k.kMemoryMap)
      (memoryCopyLoop (scratch k.kMemoryMap + (placeOf rel s).offset) buffer 512
        ((k.mem.write (scratch k.kMemoryMap) 0x1000 fun _ => 0).write (scratch k.kMemoryMap)
          k.dev.sectorSize fun i =>
            k.dev.content ((placeOf rel s).realSector.toNat * k.dev.sectorSize + i)))
      (memoryCopyLoop (scratch k.kMemoryMap + (placeOf rel s).offset) buffer 512
        ((k'.mem.write (scratch k.kMemoryMap) 0x1000 fun _ => 0).write (scratch k.kMemoryMap)
          k'.dev.sectorSize fun i =>
            k'.dev.content ((placeOf rel s).realSector.toNat * k'.dev.sectorSize + i))) := by
  have hsize : 512 * rel ≤ 0x1000 := by rcases hg.known with rfl | rfl <;> omega
  have hplace := placeOf_offset hg.known s
  rw [h.sectorSize.1, h.sectorSize.2]
  refine (memoryCopyLoop_agree (W := fun a => FreeAt k.kMemoryMap a ∧
    ¬ Span (scratch k.kMemoryMap + (placeOf rel s).offset) 512 a) (fun a ha => ?_)
    (by omega) fun a ha hw => hw.2 ha).mono fun a ha => ha.1
  by_cases hdata : Span (scratch k.kMemoryMap) (512 * rel) a
  · -- a byte of the physical sector, which counts if it is in the source of the copy
    rw [Mem.write_in hdata, Mem.write_in hdata]
    refine h.content _ fun hb => ha ⟨freeAt_scratch hfree (hdata.mono hsize), fun hsrc => hs ?_⟩
    rw [Span] at hdata
    rw [← UInt32.ofNat_toNat (x := (placeOf rel s).offset), Span, UInt32.toNat_sub,
      UInt32.toNat_add, UInt32.toNat_ofNat'] at hsrc
    rw [UInt32.toNat_sub] at hdata hb
    have := (scratch k.kMemoryMap).toNat_lt
    have := a.toNat_lt
    refine ⟨?_, ?_, ?_⟩ <;> omega
  · rw [Mem.write_off hdata, Mem.write_off hdata]
    by_cases hpage : Span (scratch k.kMemoryMap) 0x1000 a
    · rw [Mem.write_in hpage, Mem.write_in hpage]
    · rw [Mem.write_off hpage, Mem.write_off hpage]
      refine h.mem a fun hf => ha ⟨hf, fun hsrc => ?_⟩
      -- in front of the page there is no free one
      have hle := hf.le
      have hlow : 0xC0000000 ≤ (scratch k.kMemoryMap).toNat := by
        rw [scratch, toNat_blockAddr (Nat.le_of_lt (firstFree_lt hfree))]
        exact Nat.le_add_right_of_le Layout.kmallocMemory_kernel
      rw [← UInt32.ofNat_toNat (x := (placeOf rel s).offset), Span, UInt32.toNat_sub,
        UInt32.toNat_add, UInt32.toNat_ofNat'] at hsrc
      rw [Span, UInt32.toNat_sub] at hdata
      have := (scratch k.kMemoryMap).toNat_lt
      have := a.toNat_lt
      omega

/-- A sector that does not have the byte. -/
theorem twins_readSector {s : Int32} {buffer : UInt32} (hg : Geometry dev rel)
    (hs : ¬ Covers rel s b) :
    Exec.Parallel (Twins rel b V) (readSector Disk.ide dev s buffer) := by
  intro k k' h
  rcases Nat.eq_zero_or_pos (freeCount k.kMemoryMap) with hzero | hfree
  · refine Exec.related_bind (twins_kmalloc k k' h) (fun _ _ h => h) fun p k₁ k₁' hrun _ => ?_
    obtain ⟨hcount, -⟩ := kmalloc_inv (by decide) hrun
    rw [hzero] at hcount
    exact absurd hcount (by decide)
  · have hfree' : 0 < freeCount k'.kMemoryMap := by rw [h.kMemoryMap]; exact hfree
    rw [readSector, Exec.bind_ok (kmalloc_scratch hfree), Exec.bind_ok (locate_run hg),
      Exec.bind_ok (kmalloc_scratch hfree'), Exec.bind_ok (locate_run hg), h.kMemoryMap]
    have hans' : k'.dev.answer (placeOf rel s).realSector =
        k.dev.answer (placeOf rel s).realSector := by rw [h.answer]
    by_cases hans : k.dev.answer (placeOf rel s).realSector = 0
    · have hcopy := twins_copied buffer h hfree hg hs
      rw [Exec.bind_ok (Disk.read_ok ?_), Exec.bind_ok (Disk.read_ok ?_)]
      · have hrun : ∀ l : Kernel Disk,
            (memoryCopy (scratch k.kMemoryMap + (placeOf rel s).offset) buffer 512).run l =
              .ok () { l with
                mem := memoryCopyLoop (scratch k.kMemoryMap + (placeOf rel s).offset) buffer
                  512 l.mem } := fun l => rfl
        simp only [ne_eq, not_true_eq_false, if_false]
        rw [Exec.bind_ok (hrun _), Exec.bind_ok (hrun _),
          Exec.bind_ok (kfree_scratch k.kMemoryMap hfree ?_),
          Exec.bind_ok (kfree_scratch k.kMemoryMap hfree ?_)]
        · exact ⟨rfl, rfl, h.answer, h.sectorSize, h.content, hcopy, h.kept⟩
        · rfl
        · rfl
      · exact hans'.trans hans
      · exact hans
    · rw [Exec.bind_ok (Disk.read_fail ?_), Exec.bind_ok (Disk.read_fail ?_)]
      · simp only [h.answer, hans, ne_eq, not_false_eq_true, if_true]
        exact ⟨rfl, h.taken hfree _ _ _ _⟩
      · exact fun h0 => hans (hans'.symm.trans h0)
      · exact hans

theorem twins_ext2ReadBlock {n : Nat} {priv : Ext2PrivData} {block buf : UInt32}
    (hg : Geometry dev rel) (hs : BlockSize priv n)
    (hb : ∀ t < n, ¬ Covers rel ((block * UInt32.ofNat n).toInt32 + Int32.ofNat t) b) :
    Exec.Parallel (Twins rel b V) (ext2ReadBlock Disk.ide dev priv block buf) := by
  have hcount := hs.rounds
  have hloop : ∀ m c, c + m = n → Exec.Parallel (Twins rel b V)
      (sectorsLoop (readSector Disk.ide dev) (block * UInt32.ofNat n).toInt32 buf m c) := by
    intro m
    induction m with
    | zero => exact fun _ _ => .pure 0
    | succ m ih =>
        intro c hc
        exact .bind (twins_readSector hg (hb c (by omega))) fun err =>
          .ite (.pure 1) (ih (c + 1) (by omega))
  rw [ext2ReadBlock, hs.sectorsPerBlock, readSectors, hcount]
  exact .bind (hloop n 0 (Nat.zero_add n)) fun _ => .pure ()

theorem Twins.print {k k' : Kernel Disk} (h : Twins rel b V k k') (msg : Msg) :
    Twins rel b V (k.print msg) (k'.print msg) :=
  ⟨h.kMemoryMap, h.answer, h.sectorSize, h.content, h.mem, h.kept⟩

theorem Twins.keep {W : UInt32 → Prop} {k k' : Kernel Disk} (h : Twins rel b V k k')
    (hw : ∀ a, W a → ¬ FreeAt k.kMemoryMap a) : Twins rel b W k k' :=
  ⟨h.kMemoryMap, h.answer, h.sectorSize, h.content, h.mem, hw⟩

theorem Twins.mono {W : UInt32 → Prop} {k k' : Kernel Disk} (h : Twins rel b V k k')
    (hw : ∀ a, W a → V a) : Twins rel b W k k' :=
  h.keep fun a ha => h.kept a (hw a ha)

/-- A read of an inode that asks for no sector with the byte. -/
theorem twins_ext2ReadInode {n : Nat} {priv : Ext2PrivData} {node : UInt32} (buf : UInt32)
    {k k' : Kernel Disk} (hg : Geometry dev rel) (hs : BlockSize priv n)
    (hfirst : ∀ t < n,
      ¬ Covers rel ((priv.firstBgd * UInt32.ofNat n).toInt32 + Int32.ofNat t) b)
    (hword : ∀ p k₁, (kmalloc 1).run k = .ok p k₁ → ∀ a,
      Span (p + (node - 1) / priv.sb.inodesInBlockgroup * sizeofBlockGroup + 8) 4 a →
        ¬ FreeAt k₁.kMemoryMap a)
    (hnext : ∀ p k₁ k₂, (kmalloc 1).run k = .ok p k₁ →
      (ext2ReadBlock Disk.ide dev priv priv.firstBgd p).run k₁ = .ok () k₂ →
      ∀ t < n, ¬ Covers rel (((k₂.mem.load32
          (p + (node - 1) / priv.sb.inodesInBlockgroup * sizeofBlockGroup + 8) +
        (node - 1) % priv.sb.inodesInBlockgroup * sizeofInode / priv.blocksize) *
          UInt32.ofNat n).toInt32 + Int32.ofNat t) b)
    (hpos : 0 < priv.sb.inodesInBlockgroup.toNat) (h : Twins rel b V k k') :
    Exec.Related (Twins rel b V)
      ((ext2ReadInode Disk.ide dev priv node buf).run k)
      ((ext2ReadInode Disk.ide dev priv node buf).run k') := by
  have hn := hs.known
  have hper := hs.toNat_inodes
  have hsize : 0 < priv.blocksize.toNat := by
    rw [hs.blocksize, hs.toNat_bytes]
    omega
  rw [ext2ReadInode, hs.inodesPerBlock, Exec.bind_ok (Kern.ofExcept_run (udiv_ok hpos)),
    Exec.bind_ok (Kern.ofExcept_run (udiv_ok hpos))]
  refine Exec.related_bind (twins_kmalloc k k' h) (fun _ _ h => h) fun p k₁ k₁' hp h₁ => ?_
  obtain ⟨hcount, hpage, hmap, -⟩ := kmalloc_inv (by decide) hp
  have hown : ∀ a, Span p 0x1000 a → ¬ FreeAt k₁.kMemoryMap a := by
    intro a ha hf
    rw [hmap] at hf
    refine ((freeAt_taken hcount).mp hf).2 ?_
    rw [scratch, ← hpage]
    exact ha
  generalize hbgd : (node - 1) / priv.sb.inodesInBlockgroup * sizeofBlockGroup = bgd at *
  have h₁' := h₁.keep
    (W := fun a => V a ∨ Span p 0x1000 a ∨ Span (p + bgd + 8) 4 a) (by
    rintro a (ha | ha | ha)
    · exact h₁.kept a ha
    · exact hown a ha
    · exact hword p k₁ hp a ha)
  refine Exec.related_bind (twins_ext2ReadBlock hg hs hfirst k₁ k₁' h₁')
    (fun _ _ h => h.mono fun _ => .inl) fun _ k₂ k₂' hread h₂ => ?_
  have hcov := hnext p k₁ k₂ hp hread
  have hload : k₂'.mem.load32 (p + bgd + 8) = k₂.mem.load32 (p + bgd + 8) :=
    Mem.load32_congr fun a ha => h₂.mem a (h₂.kept a (.inr (.inr ha)))
  simp only [Exec.bind_ok (kprint_run _ _), Exec.bind_ok (kprintInt_run _ _),
    Exec.bind_ok (Kern.ofExcept_run (umod_ok hpos)),
    Exec.bind_ok (Kern.ofExcept_run (udiv_ok hsize)),
    Exec.bind_ok (read32_run _ _), Kernel.print_mem, hload]
  -- nine messages later
  refine Exec.related_bind (twins_ext2ReadBlock hg hs hcov _ _
    (((((((((h₂.print _).print _).print _).print _).print _).print _).print _).print _).print _))
    (fun _ _ h => h.mono fun _ => .inl) fun _ k₃ k₃' _ h₃ => ?_
  rw [Exec.bind_ok (Kern.ofExcept_run (umod_ok (by omega))),
    Exec.bind_ok (Kern.ofExcept_run (umod_ok (by omega)))]
  refine ⟨rfl, h₃.kMemoryMap, h₃.answer, h₃.sectorSize, h₃.content, ?_,
    fun a ha => h₃.kept a (.inl ha)⟩
  have hi : ((node - 1) % priv.sb.inodesInBlockgroup % UInt32.ofNat (4 * n)).toNat < 4 * n := by
    rw [UInt32.toNat_mod, hper]
    exact Nat.mod_lt _ (by omega)
  refine memoryCopyLoop_agree h₃.mem (by decide) fun a ha => h₃.kept a (.inr (.inl ?_))
  generalize (node - 1) % priv.sb.inodesInBlockgroup % UInt32.ofNat (4 * n) = i at ha hi
  rw [← UInt32.ofNat_toNat (x := i * sizeofInode), UInt32.toNat_mul,
    show sizeofInode.toNat = 128 from rfl, Nat.mod_eq_of_lt (by omega)] at ha
  exact ha.sub (show _ + 128 ≤ _ by omega) (by omega)

end

/-! ## Volumes with larger blocks -/

namespace Image

variable (c : Image) (n : Nat) (node : UInt32)

/-- The block the group descriptors begin in, when a block has `n` sectors: the
one behind the block with the superblock. -/
def tableBlock : Nat := if n = 2 then 2 else 1

/-- `block_of_inode_table` of a group. -/
def descriptor (group : Nat) : UInt32 := le32 c (512 * n * tableBlock n + 32 * group + 8)

/-- The block with the inode, and the inode's place on the volume. -/
def blockOf : Nat := (descriptor c n (groupOf c node)).toNat + 128 * indexOf c node / (512 * n)

def inodeAt : Nat := 512 * n * (descriptor c n (groupOf c node)).toNat + 128 * indexOf c node

/-- A volume of 1024-, 2048- or 4096-byte blocks, of which `n` is the number of
sectors. The inodes of a group are at most as many as its bitmap, one block, has
bits, and every inode lies in the volume, behind the group descriptors. -/
structure Formatted : Prop where
  blocksize : n = 2 ∧ (superblock c).blocksizeHint = 0 ∨
    n = 4 ∧ (superblock c).blocksizeHint = 1 ∨ n = 8 ∧ (superblock c).blocksizeHint = 2
  superblockId : (superblock c).superblockId = if n = 2 then 1 else 0
  blocksInBlockgroup : 0 < (superblock c).blocksInBlockgroup.toNat
  inodesInBlockgroup : 0 < (superblock c).inodesInBlockgroup.toNat ∧
    (superblock c).inodesInBlockgroup.toNat ≤ 8 * (512 * n)
  inode : ∀ node : UInt32, 1 ≤ node.toNat → node.toNat ≤ (inodes c).toNat →
    512 * n * tableBlock n + 32 * (groupOf c node + 1) ≤
        512 * n * (descriptor c n (groupOf c node)).toNat ∧
      blockOf c n node < (superblock c).blocks.toNat

/-- The inode's block lies below sector `2 ^ 22`. -/
def InReach : Prop := n * blockOf c n node + n ≤ 2 ^ 22

/-- The driver takes the group descriptors from the block behind the one of the
superblock if blocks have 1024 bytes, and from the one of the superblock else,
and reads no other block: the inode-table word of the group is there, or a word
that leads to the same sectors happens to be. -/
def Located : Prop :=
  if n = 2 then groupOf c node < 32
  else 32 * groupOf c node + 12 ≤ 512 * n ∧
    n * (le32 c (32 * groupOf c node + 8)).toNat % 2 ^ 23 =
      n * (descriptor c n (groupOf c node)).toNat % 2 ^ 23

end Image

section

variable {c : Image} {n : Nat} {node : UInt32}

theorem Image.Formatted.known (hc : Formatted c n) : n = 2 ∨ n = 4 ∨ n = 8 := by
  rcases hc.blocksize with h | h | h
  · exact .inl h.1
  · exact .inr (.inl h.1)
  · exact .inr (.inr h.1)

/-- What mounting the volume computes. -/
theorem fillPrivData_formatted (hc : Formatted c n) :
    ∃ priv, fillPrivData (superblock c) = .ok priv ∧ priv.sb = superblock c ∧
      priv.firstBgd.toNat = (if n = 2 then 2 else 0) ∧ BlockSize priv n := by
  have hbgs : udiv (superblock c).blocks (superblock c).blocksInBlockgroup =
      .ok ((superblock c).blocks / (superblock c).blocksInBlockgroup) :=
    udiv_ok hc.blocksInBlockgroup
  have hid := hc.superblockId
  rcases hc.blocksize with ⟨rfl, hhint⟩ | ⟨rfl, hhint⟩ | ⟨rfl, hhint⟩
  all_goals
    refine ⟨_, by
      rw [fillPrivData, hhint, hid, hbgs]
      rfl, rfl, rfl, ⟨by decide, rfl, rfl, rfl⟩⟩

theorem Image.Formatted.bounds (hc : Formatted c n) (h1 : 1 ≤ node.toNat)
    (hlast : node.toNat ≤ (inodes c).toNat) :
    128 * indexOf c node + 128 ≤ 128 * (8 * (512 * n)) ∧
      tableBlock n < (descriptor c n (groupOf c node)).toNat ∧
      tableBlock n < (superblock c).blocks.toNat ∧
      inodeAt c n node = 512 * n * blockOf c n node + 128 * (indexOf c node % (4 * n)) ∧
      128 * (indexOf c node % (4 * n)) + 128 ≤ 512 * n := by
  have hn := hc.known
  obtain ⟨hpos, hmax⟩ := hc.inodesInBlockgroup
  obtain ⟨htable, hin⟩ := hc.inode node h1 hlast
  have hindex : indexOf c node < (superblock c).inodesInBlockgroup.toNat := Nat.mod_lt _ hpos
  rw [blockOf] at hin
  rw [inodeAt, blockOf]
  generalize (descriptor c n (groupOf c node)).toNat = d at htable hin
  refine ⟨by omega, ?_, ?_, ?_, ?_⟩
  all_goals rcases hn with rfl | rfl | rfl <;> omega

/-- The word the driver takes for the group, when the page of the descriptor
block has it. -/
theorem pageOf_word {content : Image} {first : Nat} (hc : Formatted c n)
    (h1 : 1 ≤ node.toNat) (hlast : node.toNat ≤ (inodes c).toNat)
    (hcontent : ∀ i, i < inodeAt c n node ∨ inodeAt c n node + 128 ≤ i → content i = c i)
    (hfirst : first = if n = 2 then 2 else 0)
    (hin : 32 * groupOf c node + 12 ≤ 512 * n) :
    le32 (pageOf content (512 * n) first) (32 * groupOf c node + 8) =
      if n = 2 then descriptor c n (groupOf c node) else le32 c (32 * groupOf c node + 8) := by
  have hn := hc.known
  obtain ⟨htable, -⟩ := hc.inode node h1 hlast
  have hword : le32 (pageOf content (512 * n) first) (32 * groupOf c node + 8) =
      le32 c (512 * n * first + 32 * groupOf c node + 8) := by
    refine le32_congr fun i hi => ?_
    rw [pageOf, if_pos (by omega), hcontent _ (.inl ?_)]
    · exact congrArg c (by omega)
    · rw [inodeAt, hfirst]
      rw [tableBlock] at htable
      rcases hn with rfl | rfl | rfl <;> simp only [reduceIte, Nat.reduceEqDiff] at htable ⊢ <;>
        omega
  rw [hword, hfirst]
  rcases hn with rfl | rfl | rfl
  · rfl
  · simp
  · simp

variable [Layout] {dev : DeviceInfo} {rel sectors : Nat}

/-- Mounting the volume and reading the inode delivers its 128 bytes, whatever
they are, to a buffer that is in no free page; the drive answers every request
and there are the two pages the call takes. -/
def ReadsInode (dev : DeviceInfo) (rel sectors : Nat) (c : Image) (n : Nat) (node : UInt32) :
    Prop :=
  ∃ priv, fillPrivData (superblock c) = .ok priv ∧
    ∀ (k : Kernel Disk) (buf : UInt32), Serves dev rel sectors k.dev →
      (∀ i, i < inodeAt c n node ∨ inodeAt c n node + 128 ≤ i → k.dev.content i = c i) →
      2 ≤ freeCount k.kMemoryMap → (∀ a, Span buf 128 a → ¬ FreeAt k.kMemoryMap a) →
      ∃ k', (ext2ReadInode Disk.ide dev priv node buf).run k = .ok () k' ∧
        Mirrors k'.mem buf 128 k.dev.content (inodeAt c n node)

/-- Under the condition the inode is delivered. -/
theorem readsInode_of_located (hc : Formatted c n)
    (hroom : n * (superblock c).blocks.toNat ≤ sectors * rel) (h1 : 1 ≤ node.toNat)
    (hlast : node.toNat ≤ (inodes c).toNat) (hreach : InReach c n node)
    (hloc : Located c n node) : ReadsInode dev rel sectors c n node := by
  have hn := hc.known
  obtain ⟨priv, hpriv, hsb, hfirst, hs⟩ := fillPrivData_formatted hc
  obtain ⟨hindex, htable, hblocks, hplace, hfit⟩ := hc.bounds h1 hlast
  obtain ⟨-, hin⟩ := hc.inode node h1 hlast
  refine ⟨priv, hpriv, fun k buf hserve hcontent hfree hbuf => ?_⟩
  have hanswer : ∀ block, block < (superblock c).blocks.toNat → ∀ t, n * block ≤ t →
      t < n * block + n → k.dev.answer (UInt32.ofNat (t / rel)) = 0 := by
    intro block hlt t _ ht
    refine hserve.answer (Nat.lt_of_lt_of_le ht (Nat.le_trans ?_ hroom))
    rw [← Nat.mul_succ]
    exact Nat.mul_le_mul_left n hlt
  have hgroup : 32 * groupOf c node + 12 ≤ 512 * n := by
    rw [Located] at hloc
    split at hloc
    · omega
    · exact hloc.1
  have hseek : Seeks rel n k.dev priv node
      (if n = 2 then descriptor c n (groupOf c node) else le32 c (32 * groupOf c node + 8))
      (blockOf c n node) := by
    constructor
    · exact h1
    · rw [hsb]
      exact hc.inodesInBlockgroup.1
    · rw [hsb]
      show 32 * groupOf c node + 12 ≤ 0x1000
      omega
    · rw [hsb]
      show 128 * indexOf c node < 2 ^ 32
      omega
    · refine ⟨?_, hanswer _ ?_⟩
      · rw [hfirst]
        split <;> omega
      · rw [tableBlock] at hblocks
        rw [hfirst]
        split <;> split at hblocks <;> omega
    · rw [hsb]
      exact pageOf_word hc h1 hlast hcontent hfirst hgroup
    · rw [hsb, blockOf]
      show n * (_ + 128 * indexOf c node / (512 * n)) % 2 ^ 23 = _
      rw [Located] at hloc
      rw [Nat.mul_add, Nat.mul_add, Nat.add_mod, Nat.add_mod (n * _)]
      split at hloc
      · rename_i htwo
        rw [if_pos htwo]
      · rename_i htwo
        rw [if_neg htwo, hloc.2]
    · exact ⟨hreach, hanswer _ hin⟩
  obtain ⟨k', hrun, -, -, hbytes, -⟩ := ext2ReadInode_read hserve.toHolds hs hseek rfl hfree hbuf
  rw [hsb] at hbytes
  rw [hplace]
  exact ⟨k', hrun, hbytes⟩

/-! ## Otherwise -/

/-- A map whose only free pages are the first and page `j`. -/
def twoPages (j : Nat) : Vector UInt8 kMemoryMapEntries :=
  Vector.ofFn fun i => if i.val = 0 ∨ i.val = j then 0 else 1

omit [Layout] in
theorem twoPages_count {j : Nat} (hj : j = 1 ∨ j = 2) :
    freeCount (twoPages j) = 2 ∧ firstFree (twoPages j) = 0 := by
  rcases hj with rfl | rfl
  · decide
  · decide

theorem freeAt_twoPages {j : Nat} {a : UInt32} (h : FreeAt (twoPages j) a) :
    Span (blockAddr 0) 0x1000 a ∨ Span (blockAddr j) 0x1000 a := by
  obtain ⟨i, hi, h0, ha⟩ := h
  rw [twoPages, Vector.getElem_ofFn] at h0
  split at h0
  · rename_i heq
    rcases heq with rfl | rfl
    · exact .inl ha
    · exact .inr ha
  · exact absurd h0 (by decide)

/-- A kernel with these pages, zeroed memory and a drive that holds the volume
with byte `b` replaced by `v`. -/
def probe (rel sectors : Nat) (c : Image) (b j : Nat) (v : UInt8) : Kernel Disk where
  mem _ := 0
  console := []
  dev := { Disk.blank rel sectors with content := patch c b 1 fun _ => v }
  kMemoryMap := twoPages j
  cr3 := 0

omit [Layout] in
theorem probe_content (b j : Nat) (v : UInt8) :
    (probe rel sectors c b j v).dev.content = patch c b 1 fun _ => v := rfl

omit [Layout] in
theorem probe_serves (hg : Geometry dev rel) (sectors : Nat) (c : Image) (b j : Nat) (v : UInt8) :
    Serves dev rel sectors (probe rel sectors c b j v).dev :=
  ⟨⟨hg, rfl⟩, Disk.blank_answer rel sectors⟩

theorem twins_probe (sectors : Nat) {b j : Nat} (v w : UInt8) {V : UInt32 → Prop}
    (hV : ∀ a, V a → ¬ FreeAt (twoPages j) a) :
    Twins rel b V (probe rel sectors c b j v) (probe rel sectors c b j w) where
  kMemoryMap := rfl
  answer := rfl
  sectorSize := ⟨rfl, rfl⟩
  content i hi := by
    rw [probe_content, probe_content, patch_off (by omega), patch_off (by omega)]
  mem := SameOff.refl _
  kept := hV

/-- The page such a kernel takes first. -/
theorem kmalloc_probe {b j : Nat} {v : UInt8} {p : UInt32} {k₁ : Kernel Disk}
    (hj : j = 1 ∨ j = 2) (h : (kmalloc 1).run (probe rel sectors c b j v) = .ok p k₁) :
    p = blockAddr 0 ∧ k₁.dev = (probe rel sectors c b j v).dev ∧
      k₁.kMemoryMap = taken (twoPages j) ∧ ∀ a, k₁.mem a = 0 := by
  obtain ⟨hcount, hzero⟩ := twoPages_count hj
  have hrun := kmalloc_scratch (k := probe rel sectors c b j v)
    (show 0 < freeCount (twoPages j) by omega)
  rw [h] at hrun
  injection hrun with hp hk
  subst hp
  refine ⟨congrArg blockAddr hzero, by rw [hk], by rw [hk]; rfl, fun a => ?_⟩
  have hmem : k₁.mem = Mem.write (fun _ => 0) (scratch (twoPages j)) 0x1000 fun _ => 0 := by
    rw [hk]
    rfl
  rw [hmem, Mem.write, ite_self]

/-- Then only page `j` is free. -/
theorem freeAt_taken_twoPages {j : Nat} {a : UInt32} (hj : j = 1 ∨ j = 2)
    (h : FreeAt (taken (twoPages j)) a) : Span (blockAddr j) 0x1000 a := by
  obtain ⟨hcount, hzero⟩ := twoPages_count hj
  obtain ⟨hfree, hoff⟩ := (freeAt_taken (by omega)).mp h
  rw [scratch, hzero] at hoff
  exact (freeAt_twoPages hfree).resolve_left hoff

/-- The offset of the group's descriptor in the block, as the code computes it. -/
def descriptorOff (priv : Ext2PrivData) (node : UInt32) : UInt32 :=
  (node - 1) / priv.sb.inodesInBlockgroup * sizeofBlockGroup

/-- Which of the two pages behind the first does not have its inode-table word. -/
def otherPage (priv : Ext2PrivData) (node : UInt32) : Nat :=
  if ((descriptorOff priv node).toNat + 8) / 0x1000 = 1 then 2 else 1

omit [Layout] in
theorem otherPage_known (priv : Ext2PrivData) (node : UInt32) :
    otherPage priv node = 1 ∨ otherPage priv node = 2 := by
  rw [otherPage]
  split
  · exact .inr rfl
  · exact .inl rfl

/-- The page the word is not in. -/
theorem word_off_otherPage (priv : Ext2PrivData) (node : UInt32) {a : UInt32}
    (ha : Span (blockAddr 0 + descriptorOff priv node + 8) 4 a) :
    ¬ Span (blockAddr (otherPage priv node)) 0x1000 a := by
  have hlt := (descriptorOff priv node).toNat_lt
  have hmul : (descriptorOff priv node).toNat % 32 = 0 := by
    rw [descriptorOff, UInt32.toNat_mul, show sizeofBlockGroup.toNat = 32 from rfl]
    omega
  have hpage : ∀ j, blockAddr j = blockAddr 0 + UInt32.ofNat (0x1000 * j) := by
    intro j
    rw [blockAddr, blockAddr, UInt32.ofNat_mul, UInt32.mul_comm (UInt32.ofNat 0x1000),
      show UInt32.ofNat 0 * blockSize = 0 from rfl, UInt32.add_zero]
    rfl
  rw [UInt32.add_assoc, ← UInt32.ofNat_toNat (x := descriptorOff priv node),
    show (8 : UInt32) = UInt32.ofNat 8 from rfl, ← UInt32.ofNat_add] at ha
  intro hin
  rw [hpage] at hin
  rcases Nat.lt_or_ge ((descriptorOff priv node).toNat + 8) (0x1000 * otherPage priv node)
    with hbefore | hbehind
  · refine ha.disjoint_parts ?_ ?_ hin
    · omega
    · rcases otherPage_known priv node with h | h <;> omega
  · refine hin.disjoint_parts ?_ (by omega) ha
    rw [otherPage] at hbehind ⊢
    split at hbehind <;> split <;> omega

/-- A run that asks for no sector with the inode's first byte does not deliver
it. -/
theorem not_readsInode {priv : Ext2PrivData} (hc : Formatted c n) (hg : Geometry dev rel)
    (hpriv : fillPrivData (superblock c) = .ok priv)
    (hfirst : ∀ t < n, ¬ Covers rel ((priv.firstBgd * UInt32.ofNat n).toInt32 + Int32.ofNat t)
      (inodeAt c n node))
    (hnext : ∀ p k₁ k₂,
      (kmalloc 1).run (probe rel sectors c (inodeAt c n node) (otherPage priv node) 0) =
        .ok p k₁ →
      (ext2ReadBlock Disk.ide dev priv priv.firstBgd p).run k₁ = .ok () k₂ →
      ∀ t < n, ¬ Covers rel (((k₂.mem.load32 (p + descriptorOff priv node + 8) +
        (node - 1) % priv.sb.inodesInBlockgroup * sizeofInode / priv.blocksize) *
          UInt32.ofNat n).toInt32 + Int32.ofNat t) (inodeAt c n node)) :
    ¬ ReadsInode dev rel sectors c n node := by
  rintro ⟨priv', hpriv', hread⟩
  obtain ⟨priv₁, hpriv₁, hsb, -, hs⟩ := fillPrivData_formatted hc
  obtain rfl : priv = priv₁ := Except.ok.inj (hpriv.symm.trans hpriv₁)
  obtain rfl : priv = priv' := Except.ok.inj (hpriv.symm.trans hpriv')
  have hj := otherPage_known priv node
  obtain ⟨hcount, hzero⟩ := twoPages_count hj
  -- the buffer is in a page that is not free
  have hbuf : ∀ a, Span (blockAddr 3) 0x1000 a → ¬ FreeAt (twoPages (otherPage priv node)) a := by
    intro a ha hf
    rcases freeAt_twoPages hf with h | h
    · exact absurd (block_disjoint (by decide) (by decide) ha h) (by decide)
    · have := block_disjoint (by decide) (by simp only [kMemoryMapEntries]; omega) ha h
      omega
  have hrun : ∀ v, ∃ k', (ext2ReadInode Disk.ide dev priv node (blockAddr 3)).run
      (probe rel sectors c (inodeAt c n node) (otherPage priv node) v) = .ok () k' ∧
      k'.mem (blockAddr 3) = v := by
    intro v
    obtain ⟨k', hk', hbytes⟩ := hread
      (probe rel sectors c (inodeAt c n node) (otherPage priv node) v) (blockAddr 3)
      (probe_serves hg _ _ _ _ _)
      (fun i hi => by rw [probe_content, patch_off (by omega)])
      (Nat.le_of_eq hcount.symm) fun a ha => hbuf a (ha.mono (by omega))
    refine ⟨k', hk', ?_⟩
    have hbyte := hbytes 0 (by omega)
    rw [show UInt32.ofNat 0 = 0 from rfl, UInt32.add_zero, probe_content, Nat.add_zero,
      patch_in (Nat.le_refl _) (by omega)] at hbyte
    exact hbyte
  obtain ⟨k₁, hrun₁, hzero₁⟩ := hrun 0
  obtain ⟨k₂, hrun₂, hone₂⟩ := hrun 1
  have htwins := twins_ext2ReadInode (V := Span (blockAddr 3) 0x1000) (blockAddr 3) hg hs
    hfirst ?_ hnext (by rw [hsb]; exact hc.inodesInBlockgroup.1)
    (twins_probe sectors 0 1 hbuf)
  · obtain ⟨k₂', hk₂', h⟩ := htwins.of_ok hrun₁
    rw [hrun₂] at hk₂'
    injection hk₂' with _ hk₂'
    subst hk₂'
    have hsame := h.mem _ (h.kept _ (span_self (by omega)))
    rw [hzero₁, hone₂] at hsame
    exact absurd hsame (by decide)
  · intro p k₁ hp a ha hf
    obtain ⟨rfl, -, hmap, -⟩ := kmalloc_probe hj hp
    rw [hmap] at hf
    exact word_off_otherPage priv node ha (freeAt_taken_twoPages hj hf)

/-- The word such a kernel finds for the group is in the descriptor block, or
zero. -/
theorem word_of_probe (node : UInt32) {priv : Ext2PrivData} {v : UInt8} {p : UInt32}
    {k₁ k₂ : Kernel Disk} {b : Nat} (hg : Geometry dev rel) (hs : BlockSize priv n)
    (hgroup : 32 * ((node.toNat - 1) / priv.sb.inodesInBlockgroup.toNat) + 12 < 2 ^ 32)
    (h1 : 1 ≤ node.toNat) (hfirst : n * priv.firstBgd.toNat + n ≤ min (2 ^ 22) (sectors * rel))
    (hp : (kmalloc 1).run (probe rel sectors c b (otherPage priv node) v) = .ok p k₁)
    (hread : (ext2ReadBlock Disk.ide dev priv priv.firstBgd p).run k₁ = .ok () k₂) :
    k₂.mem.load32 (p + descriptorOff priv node + 8) =
      if 32 * ((node.toNat - 1) / priv.sb.inodesInBlockgroup.toNat) + 12 ≤ 512 * n then
        le32 (pageOf (patch c b 1 fun _ => v) (512 * n) priv.firstBgd.toNat)
          (32 * ((node.toNat - 1) / priv.sb.inodesInBlockgroup.toNat) + 8)
      else 0 := by
  have hj := otherPage_known priv node
  obtain ⟨hcount, hzero⟩ := twoPages_count hj
  have hn := hs.known
  obtain ⟨rfl, hdev, hmap, hmem⟩ := kmalloc_probe hj hp
  have hserve := probe_serves hg sectors c b (otherPage priv node) v
  have hcount' : freeCount (taken (twoPages (otherPage priv node))) = 1 := by
    have := freeCount_taken (show 0 < freeCount (twoPages (otherPage priv node)) by omega)
    omega
  have hscratch : ∀ a, Span (scratch k₁.kMemoryMap) 0x1000 a →
      Span (blockAddr (otherPage priv node)) 0x1000 a := by
    intro a ha
    rw [hmap] at ha
    exact freeAt_taken_twoPages hj (freeAt_scratch (by omega) ha)
  have hclear : Clear k₁.kMemoryMap (blockAddr 0) (512 * n) := by
    intro a ha hin
    have := block_disjoint (by decide) (by simp only [kMemoryMapEntries]; omega)
      (ha.mono (by omega)) (hscratch a hin)
    omega
  obtain ⟨k₂', hrun, hbytes, hleave⟩ := ext2ReadBlock_read (k := k₁)
    (show Holds dev rel k₁.dev by rw [hdev]; exact hserve.toHolds) hs rfl (by rw [hmap]; omega)
    (b := priv.firstBgd)
    ⟨by omega, fun t _ ht => by rw [hdev]; exact hserve.answer (by omega)⟩ hclear
  obtain ⟨-, rfl⟩ := EStateM.Result.ok.inj (hread.symm.trans hrun)
  rw [hdev, probe_content] at hbytes
  have haddr : blockAddr 0 + descriptorOff priv node + 8 = blockAddr 0 +
      UInt32.ofNat (32 * ((node.toNat - 1) / priv.sb.inodesInBlockgroup.toNat) + 8) :=
    table_address (blockAddr 0) h1
  have hpage := fun a => word_off_otherPage (a := a) priv node
  rw [haddr] at hpage ⊢
  generalize (node.toNat - 1) / priv.sb.inodesInBlockgroup.toNat = g at *
  split
  · rename_i hin
    rw [hbytes.load32 (i := 32 * g + 8) (by omega)]
    refine le32_congr fun i hi => ?_
    rw [pageOf, if_pos (by omega)]
    exact congrArg _ (by omega)
  · rename_i hout
    refine Mem.load32_zero fun a ha => ?_
    rw [hleave.mem a, hmem]
    rintro (h | h)
    · exact hpage a ha (hscratch a h)
    · rw [← UInt32.add_zero (blockAddr 0), show (0 : UInt32) = UInt32.ofNat 0 from rfl] at h
      exact h.disjoint_parts (by omega) (by omega) ha

/-- An inode in a high block is not delivered. -/
theorem inReach_of_readsInode (hc : Formatted c n) (hg : Geometry dev rel)
    (hmax : n * (superblock c).blocks.toNat ≤ 2 ^ 31) (h1 : 1 ≤ node.toNat)
    (hlast : node.toNat ≤ (inodes c).toNat) (h : ReadsInode dev rel sectors c n node) :
    InReach c n node := by
  by_contra hhigh
  rw [InReach] at hhigh
  have hn := hc.known
  obtain ⟨-, -, -, hplace, hfit⟩ := hc.bounds h1 hlast
  obtain ⟨-, hin⟩ := hc.inode node h1 hlast
  have hlow : n * blockOf c n node + n ≤ 2 ^ 31 := by
    rw [← Nat.mul_succ]
    exact Nat.le_trans (Nat.mul_le_mul_left n hin) hmax
  have hout : ∀ s, ¬ Covers rel s (inodeAt c n node) := by
    intro s hs
    have hrange := hs.range hg.known
    rw [hplace] at hrange
    rcases hn with rfl | rfl | rfl <;> rcases hg.known with rfl | rfl <;> omega
  obtain ⟨priv, hpriv, -, -, -⟩ := fillPrivData_formatted hc
  exact not_readsInode hc hg hpriv (fun t _ => hout _) (fun _ _ _ _ _ t _ => hout _) h

omit [Layout] in
/-- A sector in which the driver finds the first byte of an inode in reach is
the right one of its block, up to a multiple of `2 ^ 23`. -/
theorem block_of_covers (word : Nat) {x : UInt32} {t : Nat} (hc : Formatted c n)
    (hg : Geometry dev rel) (h1 : 1 ≤ node.toNat) (hlast : node.toNat ≤ (inodes c).toNat)
    (ht : t < n) (hx : x.toNat % 2 ^ 32 = n * word % 2 ^ 32)
    (h : Covers rel (x.toInt32 + Int32.ofNat t) (inodeAt c n node)) :
    n * word % 2 ^ 23 = n * blockOf c n node % 2 ^ 23 := by
  have hn := hc.known
  obtain ⟨-, -, -, hplace, hfit⟩ := hc.bounds h1 hlast
  have hsector := h.sector hg.known
  have hsum : (x.toInt32 + Int32.ofNat t).toInt % 2 ^ 23 =
      ((n * word + t : Nat) : Int) % 2 ^ 23 := by
    have hnat := toNat_toUInt32 (x.toInt32 + Int32.ofNat t)
    rw [Int32.toUInt32_add, UInt32.toUInt32_toInt32, Int32.toUInt32_ofNat',
      UInt32.toNat_add, UInt32.toNat_ofNat'] at hnat
    omega
  rw [hsum, hplace] at hsector
  have hdiv : (512 * n * blockOf c n node + 128 * (indexOf c node % (4 * n))) / 512 =
      n * blockOf c n node + indexOf c node % (4 * n) / 4 := by
    rw [Nat.mul_assoc]
    omega
  rw [hdiv] at hsector
  rcases hn with rfl | rfl | rfl <;> omega

omit [Layout] in
/-- The offset of the inode in its table, as the code computes it. -/
theorem toNat_tableOff {priv : Ext2PrivData} (hc : Formatted c n) (hsb : priv.sb = superblock c)
    (h1 : 1 ≤ node.toNat) (hlast : node.toNat ≤ (inodes c).toNat) :
    ((node - 1) % priv.sb.inodesInBlockgroup * sizeofInode).toNat = 128 * indexOf c node := by
  have hn := hc.known
  obtain ⟨hindex, -⟩ := hc.bounds h1 hlast
  rw [hsb, UInt32.toNat_mul, UInt32.toNat_mod, toNat_pred h1,
    show sizeofInode.toNat = 128 from rfl, Nat.mul_comm]
  exact Nat.mod_eq_of_lt (by rw [indexOf] at hindex; omega)

omit [Layout] in
/-- Where the block that the code takes for the inode's has its first byte, the word it
started from is the descriptor's, up to a multiple of `2 ^ 23`. -/
theorem word_of_covers {priv : Ext2PrivData} {word : UInt32} {t : Nat} (hc : Formatted c n)
    (hg : Geometry dev rel) (hs : BlockSize priv n) (hsb : priv.sb = superblock c)
    (h1 : 1 ≤ node.toNat) (hlast : node.toNat ≤ (inodes c).toNat) (ht : t < n)
    (h : Covers rel (((word + (node - 1) % priv.sb.inodesInBlockgroup * sizeofInode /
      priv.blocksize) * UInt32.ofNat n).toInt32 + Int32.ofNat t) (inodeAt c n node)) :
    n * word.toNat % 2 ^ 23 = n * (descriptor c n (groupOf c node)).toNat % 2 ^ 23 := by
  have hn := hc.known
  have hsectors := hs.toNat_sectors
  have hsize : priv.blocksize.toNat = 512 * n := by
    rw [hs.blocksize, hs.toNat_bytes]
  have hblock : blockOf c n node = (descriptor c n (groupOf c node)).toNat +
      128 * indexOf c node / (512 * n) := rfl
  have hsame := block_of_covers (word.toNat + 128 * indexOf c node / (512 * n)) hc hg h1 hlast
    ht (by
      rw [UInt32.toNat_mul, UInt32.toNat_add, UInt32.toNat_div,
        toNat_tableOff hc hsb h1 hlast, hsize, hsectors]
      rcases hn with rfl | rfl | rfl <;> omega) h
  rw [hblock] at hsame
  rcases hn with rfl | rfl | rfl <;> omega

omit [Layout] in
/-- Such a word is not zero for an inode in reach. -/
theorem word_ne_zero {word : UInt32} (hc : Formatted c n) (h1 : 1 ≤ node.toNat)
    (hlast : node.toNat ≤ (inodes c).toNat) (hreach : InReach c n node)
    (hmod : n * word.toNat % 2 ^ 23 = n * (descriptor c n (groupOf c node)).toNat % 2 ^ 23) :
    word ≠ 0 := by
  rw [InReach] at hreach
  have hn := hc.known
  obtain ⟨hindex, htable, -⟩ := hc.bounds h1 hlast
  obtain ⟨hbehind, -⟩ := hc.inode node h1 hlast
  have hblock : blockOf c n node = (descriptor c n (groupOf c node)).toNat +
      128 * indexOf c node / (512 * n) := rfl
  have hlow : n * (descriptor c n (groupOf c node)).toNat < 2 ^ 22 := by
    rcases hn with rfl | rfl | rfl <;> omega
  rintro rfl
  rw [show (0 : UInt32).toNat = 0 from rfl] at hmod
  rcases hn with rfl | rfl | rfl <;> omega

/-- An inode whose group's word is not found is not delivered. -/
theorem located_of_readsInode (hc : Formatted c n) (hg : Geometry dev rel)
    (hroom : n * (superblock c).blocks.toNat ≤ sectors * rel) (h1 : 1 ≤ node.toNat)
    (hlast : node.toNat ≤ (inodes c).toNat) (hreach : InReach c n node)
    (h : ReadsInode dev rel sectors c n node) : Located c n node := by
  by_contra hloc
  have hreach' := hreach
  rw [InReach] at hreach'
  have hn := hc.known
  obtain ⟨hindex, htable, hblocks, -, -⟩ := hc.bounds h1 hlast
  obtain ⟨hbehind, hin⟩ := hc.inode node h1 hlast
  obtain ⟨priv, hpriv, hsb, hfirst, hs⟩ := fillPrivData_formatted hc
  have hfirstBlock : priv.firstBgd.toNat ≤ tableBlock n := by
    rw [hfirst, tableBlock]
    split <;> omega
  have hblock : blockOf c n node = (descriptor c n (groupOf c node)).toNat +
      128 * indexOf c node / (512 * n) := rfl
  refine not_readsInode hc hg hpriv (fun t ht hcov => ?_)
    (fun p k₁ k₂ hp hread t ht hcov => hloc ?_) h
  · -- the descriptor block is not the inode's
    have hsectors := hs.toNat_sectors
    have hsame := block_of_covers priv.firstBgd.toNat hc hg h1 hlast ht
      (by rw [UInt32.toNat_mul, hsectors, Nat.mul_comm]; omega) hcov
    rcases hn with rfl | rfl | rfl <;> omega
  · have hgroup : groupOf c node = (node.toNat - 1) / priv.sb.inodesInBlockgroup.toNat := by
      rw [hsb]
      rfl
    have hword := word_of_probe node hg hs (by
      rw [← hgroup]
      rcases hn with rfl | rfl | rfl <;> omega) h1 (by
      rw [Nat.le_min]
      refine ⟨by rcases hn with rfl | rfl | rfl <;> omega, Nat.le_trans ?_ hroom⟩
      rw [← Nat.mul_succ]
      exact Nat.mul_le_mul_left n (by omega)) hp hread
    rw [← hgroup] at hword
    generalize k₂.mem.load32 (p + descriptorOff priv node + 8) = word at hword hcov
    have hmod := word_of_covers hc hg hs hsb h1 hlast ht hcov
    have hin : 32 * groupOf c node + 12 ≤ 512 * n := by
      by_contra hout
      rw [if_neg hout] at hword
      exact word_ne_zero hc h1 hlast hreach hmod hword
    rw [if_pos hin, pageOf_word hc h1 hlast (fun i hi => patch_off (by omega)) hfirst hin]
      at hword
    rw [Located]
    split
    · rename_i htwo
      omega
    · rename_i htwo
      rw [if_neg htwo] at hword
      exact ⟨hin, hword ▸ hmod⟩

/-- On a volume of at most `2 ^ 31` sectors the inodes that are delivered are
those in reach whose group's word is where the driver looks for it. These are
delivered on larger volumes too. -/
theorem ext2ReadInode_iff (hc : Formatted c n) (hg : Geometry dev rel)
    (hroom : n * (superblock c).blocks.toNat ≤ sectors * rel) (h1 : 1 ≤ node.toNat)
    (hlast : node.toNat ≤ (inodes c).toNat) :
    (InReach c n node ∧ Located c n node → ReadsInode dev rel sectors c n node) ∧
      (n * (superblock c).blocks.toNat ≤ 2 ^ 31 → ReadsInode dev rel sectors c n node →
        InReach c n node ∧ Located c n node) := by
  refine ⟨fun h => readsInode_of_located hc hroom h1 hlast h.1 h.2, fun hmax h => ?_⟩
  have hreach := inReach_of_readsInode hc hg hmax h1 hlast h
  exact ⟨hreach, located_of_readsInode hc hg hroom h1 hlast hreach h⟩

end

/-! ## One group -/

/-- A volume of 8 blocks and 8 inodes in one group: its block size and superblock
number, and the block of its inode table. The second byte of inode 2 is `0x40`. -/
def oneGroupVolume (hint id table : UInt8) (inode : Nat) : Image := .ofBytes
  [(1024, 8), (1028, 8), (1044, id), (1048, hint), (1056, 8), (1064, 8),
   (2056, table), (inode + 1, 0x40)]

theorem formatted_of_one_group {c : Image} {n d : Nat}
    (hn : n = 2 ∧ (superblock c).blocksizeHint = 0 ∨
      n = 4 ∧ (superblock c).blocksizeHint = 1 ∨ n = 8 ∧ (superblock c).blocksizeHint = 2)
    (hid : (superblock c).superblockId = if n = 2 then 1 else 0)
    (hblocks : (superblock c).blocks = 8) (hbgs : (superblock c).blocksInBlockgroup = 8)
    (hipg : (superblock c).inodesInBlockgroup = 8) (hinodes : inodes c = 8)
    (hd : descriptor c n 0 = UInt32.ofNat d) (hbehind : tableBlock n < d) (hlt : d < 8) :
    Formatted c n := by
  have hfew : 0 < (8 : UInt32).toNat ∧ (8 : UInt32).toNat ≤ 8 * (512 * n) := by
    rw [show (8 : UInt32).toNat = 8 from rfl]
    omega
  refine ⟨hn, hid, by rw [hbgs]; decide, by rw [hipg]; exact hfew, fun node h1 hlast => ?_⟩
  rw [hinodes, show (8 : UInt32).toNat = 8 from rfl] at hlast
  have hgroup : groupOf c node = 0 := by
    rw [groupOf, hipg]
    exact Nat.div_eq_of_lt (show node.toNat - 1 < 8 by omega)
  have hindex : indexOf c node = node.toNat - 1 := by
    rw [indexOf, hipg]
    exact Nat.mod_eq_of_lt (show node.toNat - 1 < 8 by omega)
  rw [blockOf, hgroup, hindex, hblocks, hd, UInt32.toNat_ofNat', Nat.mod_eq_of_lt (by omega),
    show (8 : UInt32).toNat = 8 from rfl]
  rcases hn with ⟨rfl, -⟩ | ⟨rfl, -⟩ | ⟨rfl, -⟩ <;> omega

/-- Inode 2 of a volume with 1024-byte blocks, whose inode table is block 3. -/
theorem ext2ReadInode_iff_root : ∃ (_ : Layout),
    Formatted (oneGroupVolume 0 1 3 3200) 2 ∧
      ReadsInode ⟨0, 0, 0, 512⟩ 1 16 (oneGroupVolume 0 1 3 3200) 2 2 := by
  have hc : Formatted (oneGroupVolume 0 1 3 3200) 2 :=
    formatted_of_one_group (d := 3) (.inl ⟨rfl, by decide⟩) (by decide)
      (by decide) (by decide) (by decide) (by decide)
      (by decide) (by decide) (by decide)
  refine ⟨bootLayout, hc, ?_⟩
  let _ := bootLayout
  have hblocks : (superblock (oneGroupVolume 0 1 3 3200)).blocks.toNat = 8 := by decide
  refine (ext2ReadInode_iff hc ⟨.inl rfl, rfl⟩ (by rw [hblocks]) (by decide)
    (by decide)).1 ⟨?_, ?_⟩
  · exact show 2 * blockOf (oneGroupVolume 0 1 3 3200) 2 2 + 2 ≤ 2 ^ 22 by decide
  · exact show groupOf (oneGroupVolume 0 1 3 3200) 2 < 32 by decide

/-- Inode 2 of a volume with 2048-byte blocks, whose inode table is block 2: what
the driver delivers instead is in block 0. -/
theorem ext2ReadInode_block_zero : ∃ (_ : Layout) (priv : Ext2PrivData),
    Formatted (oneGroupVolume 1 0 2 4224) 4 ∧
      fillPrivData (superblock (oneGroupVolume 1 0 2 4224)) = .ok priv ∧
      ¬ ∃ k', (ext2ReadInode Disk.ide ⟨0, 0, 0, 512⟩ priv 2 0x1000).run
          (Kernel.zero { Disk.blank 1 32 with content := oneGroupVolume 1 0 2 4224 }) =
            .ok () k' ∧
        Mirrors k'.mem 0x1000 128 (oneGroupVolume 1 0 2 4224)
          (inodeAt (oneGroupVolume 1 0 2 4224) 4 2) := by
  let _ := bootLayout
  have hc : Formatted (oneGroupVolume 1 0 2 4224) 4 :=
    formatted_of_one_group (d := 2) (.inr (.inl ⟨rfl, by decide⟩)) (by decide)
      (by decide) (by decide) (by decide) (by decide)
      (by decide) (by decide) (by decide)
  obtain ⟨priv, hpriv, hsb, hfirst, hs⟩ := fillPrivData_formatted hc
  refine ⟨bootLayout, priv, hc, hpriv, ?_⟩
  rintro ⟨k', hrun, hbytes⟩
  have hipg : priv.sb.inodesInBlockgroup.toNat = 8 := by rw [hsb]; decide
  have hzero : priv.firstBgd.toNat = 0 := hfirst
  have hserve : Serves ⟨0, 0, 0, 512⟩ 1 32
      { Disk.blank 1 32 with content := oneGroupVolume 1 0 2 4224 } :=
    ⟨⟨⟨.inl rfl, rfl⟩, rfl⟩, Disk.blank_answer 1 32⟩
  have hseek : Seeks 1 4 { Disk.blank 1 32 with content := oneGroupVolume 1 0 2 4224 } priv
      2 0 0 := by
    constructor
    · decide
    · rw [hipg]; decide
    · rw [hipg]; decide
    · rw [hipg]; decide
    · rw [hzero]
      exact ⟨by decide, fun t _ ht => hserve.answer (by omega)⟩
    · rw [hipg, hzero]
      exact show le32 (pageOf (oneGroupVolume 1 0 2 4224) 2048 0) 8 = 0 by decide
    · rw [hipg]; decide
    · exact ⟨by decide, fun t _ ht => hserve.answer (by omega)⟩
  obtain ⟨k₁, hrun₁, -, -, hbytes₁, -⟩ := ext2ReadInode_read
    (k := Kernel.zero { Disk.blank 1 32 with content := oneGroupVolume 1 0 2 4224 })
    hserve.toHolds hs hseek rfl (by decide +kernel)
    fun a (ha : Span 0x1000 128 a) => not_freeAt_low (by
      rw [span_iff (by decide), show (0x1000 : UInt32).toNat = 0x1000 from rfl] at ha
      omega)
  obtain ⟨-, rfl⟩ := EStateM.Result.ok.inj (hrun.symm.trans hrun₁)
  have hread := hbytes₁ 1 (by decide)
  rw [hipg, hbytes 1 (by decide)] at hread
  have hplace : inodeAt (oneGroupVolume 1 0 2 4224) 4 2 = 4224 := by decide
  rw [hplace] at hread
  exact absurd hread
    (show ¬ oneGroupVolume 1 0 2 4224 4225 = oneGroupVolume 1 0 2 4224 129 by decide)

end Bedrock
