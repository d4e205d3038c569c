import Bedrock.Drivers.Ext2Image
import Bedrock.Proofs.StorageRoundTrip

/-!
# Blocks, inodes and directory blocks in memory

What the block-level functions of the file system leave in memory, over a disk
that holds a well-formed volume and answers their requests: a block in the
buffer, an inode in the buffer, the inode of a name in a directory block.

Each of them works in pages it takes from the allocator, so beside its result
it changes only bytes of pages that were free (`FreeAt`). `ext2_read_block` and
`ext2_read_directory` give their pages back; `ext2_read_inode` keeps one for
good and stops the kernel when there are not two (`ext2ReadInode_exit`).
-/

namespace Bedrock

open Lib Image

/-! ## Free pages -/

section

variable {map : Vector UInt8 kMemoryMapEntries} {a : UInt32}

/-- The address lies in a page that is free. -/
def FreeAt [Layout] (map : Vector UInt8 kMemoryMapEntries) (a : UInt32) : Prop :=
  ∃ i, ∃ h : i < kMemoryMapEntries, map[i] = 0 ∧ Span (blockAddr i) 0x1000 a

/-- The map after the next `kmalloc(1)`. -/
def taken (map : Vector UInt8 kMemoryMapEntries) : Vector UInt8 kMemoryMapEntries :=
  mapRange map (firstFree map) 1 1

theorem freeCount_taken (hfree : 0 < freeCount map) :
    freeCount (taken map) + 1 = freeCount map := by
  have hlt := firstFree_lt hfree
  have h0 := firstFree_free hlt
  rw [taken, mapRange_one hlt]
  simp only [freeCount, Vector.toList_set]
  rw [List.count_set (by rw [Vector.length_toList]; exact hlt),
    Vector.getElem_toList, h0]
  simp only [freeCount] at hfree
  simp only [beq_self_eq_true, if_true]
  rw [if_neg (by decide)]
  omega

theorem freeCount_taken_taken (hfree : 2 ≤ freeCount map) :
    freeCount (taken (taken map)) + 2 = freeCount map := by
  have hfirst : freeCount (taken map) + 1 = freeCount map := freeCount_taken (by omega)
  have hnext : freeCount (taken (taken map)) + 1 = freeCount (taken map) :=
    freeCount_taken (by omega)
  omega

variable [Layout]

theorem freeAt_scratch (hfree : 0 < freeCount map) (ha : Span (scratch map) 0x1000 a) :
    FreeAt map a :=
  ⟨_, firstFree_lt hfree, firstFree_free (firstFree_lt hfree), ha⟩

/-- A page that is free after a call was free before and is not the page the
call handed out. -/
theorem freeAt_taken (hfree : 0 < freeCount map) :
    FreeAt (taken map) a ↔ FreeAt map a ∧ ¬ Span (scratch map) 0x1000 a := by
  have hlt := firstFree_lt hfree
  constructor
  · rintro ⟨i, hi, h0, ha⟩
    rw [taken, getElem_mapRange] at h0
    split at h0
    · exact absurd h0 (by decide)
    · rename_i hout
      refine ⟨⟨i, hi, h0, ha⟩, fun hs => hout ?_⟩
      rw [block_disjoint hi hlt ha hs]
      omega
  · rintro ⟨⟨i, hi, h0, ha⟩, hs⟩
    refine ⟨i, hi, ?_, ha⟩
    rw [taken, getElem_mapRange, if_neg, h0]
    intro hin
    obtain rfl : i = firstFree map := by omega
    exact hs ha

/-- Low memory is not in a free page. -/
theorem not_freeAt_low (ha : a.toNat < 0xC0000000) : ¬ FreeAt map a := by
  rintro ⟨i, hi, -, hspan⟩
  have hbase := toNat_blockAddr (Nat.le_of_lt hi)
  have hkernel := Layout.kmallocMemory_kernel
  have hfits := Layout.kmallocMemory_fits
  simp only [kMemoryMapEntries] at hi hfits
  rw [span_iff (by omega)] at hspan
  omega

end

/-! ## The mounted volume -/

/-- The disk answers every request and holds a well-formed volume, and `priv`
is what mounting it computed. -/
structure Mounted (dev : DeviceInfo) (rel sectors : Nat) (priv : Ext2PrivData)
    (disk : Disk) : Prop where
  serves : Serves dev rel sectors disk
  image : WellFormed disk.content
  room : 2 * (superblock disk.content).blocks.toNat ≤ sectors * rel
  priv : fillPrivData (superblock disk.content) = .ok priv

/-- The same, whatever requests the disk answers. -/
structure Volume (dev : DeviceInfo) (rel : Nat) (priv : Ext2PrivData) (disk : Disk) : Prop
    extends Holds dev rel disk where
  image : WellFormed disk.content
  priv : fillPrivData (superblock disk.content) = .ok priv

theorem Mounted.volume {dev : DeviceInfo} {rel sectors : Nat} {priv : Ext2PrivData}
    {disk : Disk} (hm : Mounted dev rel sectors priv disk) : Volume dev rel priv disk :=
  ⟨hm.serves.toHolds, hm.image, hm.priv⟩

theorem fillPrivData_eq {c : Image} (hc : WellFormed c) {priv : Ext2PrivData}
    (h : fillPrivData (superblock c) = .ok priv) :
    priv.sb = superblock c ∧ priv.firstBgd = 2 ∧ priv.blocksize = 1024 ∧
      priv.sectorsPerBlock = 2 ∧ priv.inodesPerBlock = 8 := by
  have hpos : (superblock c).blocksInBlockgroup ≠ 0 := fun h0 =>
    absurd hc.blocksInBlockgroup.1 (by rw [h0]; decide)
  have hsize : (1024 : UInt32) <<< (superblock c).blocksizeHint = 1024 := by
    rw [hc.blocksize]
    rfl
  have hone : udiv sizeofSuperblock 1024 = .ok 1 := rfl
  have hbgs : udiv (superblock c).blocks (superblock c).blocksInBlockgroup =
      .ok ((superblock c).blocks / (superblock c).blocksInBlockgroup) := if_neg hpos
  rw [fillPrivData] at h
  simp only [hsize, hone, hbgs, hc.superblockId] at h
  injection h with h
  subst h
  exact ⟨rfl, rfl, rfl, rfl, rfl⟩

/-- Block numbers of such a volume are small: two sectors each, far below the
sectors that are out of reach. -/
theorem blocks_lt {c : Image} (hc : WellFormed c) :
    (superblock c).blocks.toNat ≤ 2 ^ 18 + 1 := by
  have h := hc.blocksInBlockgroup.2
  have hg := hc.groups.1
  omega

/-! ## What a call leaves behind -/

/-- The disk and the page map are as before, and so is memory outside `W`. -/
structure Leaves (W : UInt32 → Prop) (k k' : Kernel Disk) : Prop where
  dev : k'.dev = k.dev
  kMemoryMap : k'.kMemoryMap = k.kMemoryMap
  mem : SameOff W k.mem k'.mem

theorem Leaves.refl {W : UInt32 → Prop} (k : Kernel Disk) : Leaves W k k :=
  ⟨rfl, rfl, SameOff.refl k.mem⟩

theorem Leaves.trans {W : UInt32 → Prop} {k₁ k₂ k₃ : Kernel Disk}
    (h₁ : Leaves W k₁ k₂) (h₂ : Leaves W k₂ k₃) : Leaves W k₁ k₃ :=
  ⟨h₂.dev.trans h₁.dev, h₂.kMemoryMap.trans h₁.kMemoryMap, h₁.mem.trans h₂.mem⟩

theorem Leaves.mono {W V : UInt32 → Prop} {k k' : Kernel Disk} (h : Leaves W k k')
    (hle : ∀ a, W a → V a) : Leaves V k k' :=
  ⟨h.dev, h.kMemoryMap, h.mem.mono hle⟩

/-- Bytes of the volume are copied. -/
theorem memoryCopy_mirrors {k : Kernel Disk} {source dest : UInt32} {nbytes : Int32} {n off : Nat}
    {c : Image} (hn : nbytes.toInt.toNat = n)
    (hoff : ∀ a, Span source n a → ¬ Span dest n a)
    (h : Mirrors k.mem source n c off) :
    ∃ k', (memoryCopy source dest nbytes).run k = .ok () k' ∧
      Mirrors k'.mem dest n c off ∧ Leaves (Span dest n) k k' := by
  have hlt := Int32.toInt_lt nbytes
  have hcopy : Mirrors (k.mem.write dest n fun i => k.mem (source + UInt32.ofNat i))
      dest n c off := h.write (by omega)
  exact ⟨_, memoryCopy_run hn hoff, hcopy, rfl, rfl,
    sameOff_write (f := fun i => k.mem (source + UInt32.ofNat i))⟩

/-- A page with a block at its beginning, and zeros behind it. -/
theorem mirrors_page {n : Nat} {p : UInt32} {m : Mem} {b : Nat} {c : Image}
    (hzero : ∀ a, Span p 0x1000 a → ¬ Span p (512 * n) a → m a = 0)
    (h : Mirrors m p (512 * n) c (512 * n * b)) :
    Mirrors m p 0x1000 (pageOf c (512 * n) b) 0 := by
  intro i hi
  rw [pageOf, Nat.zero_add]
  by_cases hblock : i < 512 * n
  · rw [if_pos hblock]
    exact h i hblock
  · rw [if_neg hblock]
    refine hzero _ (span_add hi (by omega)) fun hin => ?_
    rw [Span, UInt32.add_comm, UInt32.add_sub_cancel, UInt32.toNat_ofNat'] at hin
    omega

section

variable [Layout] {dev : DeviceInfo} {rel sectors : Nat} {priv : Ext2PrivData}
  {disk : Disk} {k : Kernel Disk}

/-- A page is taken and cleared. -/
theorem kmalloc_page {δ : Type} {k : Kernel δ} (hfree : 0 < freeCount k.kMemoryMap) :
    ∃ k', (kmalloc 1).run k = .ok (scratch k.kMemoryMap) k' ∧ k'.dev = k.dev ∧
      k'.kMemoryMap = taken k.kMemoryMap ∧
      k'.mem = k.mem.write (scratch k.kMemoryMap) 0x1000 fun _ => 0 :=
  ⟨_, kmalloc_scratch hfree, rfl, rfl, rfl⟩

/-- A `kmalloc(1)` that returns. -/
theorem kmalloc_page_inv {δ : Type} {k k' : Kernel δ} {p : UInt32}
    (h : (kmalloc 1).run k = .ok p k') :
    0 < freeCount k.kMemoryMap ∧ p = scratch k.kMemoryMap ∧
      k'.kMemoryMap = taken k.kMemoryMap ∧ k'.dev = k.dev ∧ k'.console = k.console := by
  obtain ⟨hfree, -⟩ := kmalloc_inv (n := 1) (by decide) h
  rw [kmalloc_scratch hfree] at h
  cases h
  exact ⟨hfree, rfl, rfl, rfl, rfl⟩

/-! ## Blocks -/

/-- What mounting computes for blocks of `n` sectors. -/
structure BlockSize (priv : Ext2PrivData) (n : Nat) : Prop where
  known : n = 2 ∨ n = 4 ∨ n = 8
  blocksize : priv.blocksize = UInt32.ofNat (512 * n)
  sectorsPerBlock : priv.sectorsPerBlock = UInt32.ofNat n
  inodesPerBlock : priv.inodesPerBlock = UInt32.ofNat (4 * n)

section

variable {n : Nat}

omit [Layout] in
theorem BlockSize.toNat_sectors (hs : BlockSize priv n) : (UInt32.ofNat n).toNat = n := by
  rcases hs.known with rfl | rfl | rfl <;> rfl

omit [Layout] in
theorem BlockSize.toNat_bytes (hs : BlockSize priv n) :
    (UInt32.ofNat (512 * n)).toNat = 512 * n := by
  rcases hs.known with rfl | rfl | rfl <;> rfl

omit [Layout] in
theorem BlockSize.toNat_inodes (hs : BlockSize priv n) :
    (UInt32.ofNat (4 * n)).toNat = 4 * n := by
  rcases hs.known with rfl | rfl | rfl <;> rfl

omit [Layout] in
/-- The rounds of a read of one block. -/
theorem BlockSize.rounds (hs : BlockSize priv n) :
    (UInt32.ofNat n).toInt32.toInt.toNat = n := by
  rcases hs.known with rfl | rfl | rfl <;> rfl

omit [Layout] in
/-- The first sector of a block is not cut off. -/
theorem BlockSize.toNat_firstSector (hs : BlockSize priv n) {b : UInt32}
    (h : n * b.toNat < 2 ^ 32) : (b * UInt32.ofNat n).toNat = n * b.toNat := by
  rw [UInt32.toNat_mul, hs.toNat_sectors, Nat.mul_comm, Nat.mod_eq_of_lt h]

end

omit [Layout] in
theorem toNat_pred {node : UInt32} (h : 1 ≤ node.toNat) :
    (node - 1).toNat = node.toNat - 1 :=
  UInt32.toNat_sub_of_le _ _ (UInt32.le_iff_toNat_le.mpr h)

omit [Layout] in
/-- Where the driver reads the table of an inode's group, in a page at `p`. -/
theorem table_address (p : UInt32) {node per : UInt32} (h : 1 ≤ node.toNat) :
    p + (node - 1) / per * sizeofBlockGroup + 8 =
      p + UInt32.ofNat (32 * ((node.toNat - 1) / per.toNat) + 8) := by
  rw [← toNat_pred h, ← UInt32.toNat_div, UInt32.ofNat_add, UInt32.ofNat_mul,
    UInt32.ofNat_toNat, UInt32.mul_comm (UInt32.ofNat 32), UInt32.add_assoc]
  rfl

/-- Block `b`, of `n` sectors, lies below sector `2 ^ 22` and the drive answers
for it. -/
structure Readable (rel n : Nat) (disk : Disk) (b : Nat) : Prop where
  low : n * b + n ≤ 2 ^ 22
  answers : ∀ t, n * b ≤ t → t < n * b + n → disk.answer (UInt32.ofNat (t / rel)) = 0

/-- A block is delivered to the buffer. -/
theorem ext2ReadBlock_read {n : Nat} {b buf : UInt32} (hd : Holds dev rel disk)
    (hs : BlockSize priv n) (hk : k.dev = disk) (hfree : 0 < freeCount k.kMemoryMap)
    (hr : Readable rel n disk b.toNat) (hbuf : Clear k.kMemoryMap buf (512 * n)) :
    ∃ k', (ext2ReadBlock Disk.ide dev priv b buf).run k = .ok () k' ∧
      Mirrors k'.mem buf (512 * n) disk.content (512 * n * b.toNat) ∧
      Leaves (fun a => Span (scratch k.kMemoryMap) 0x1000 a ∨ Span buf (512 * n) a) k k' := by
  subst hk
  have hlow := hr.low
  have hmul := hs.toNat_firstSector (b := b) (by omega)
  have hsector := toInt_toInt32 (x := b * UInt32.ofNat n) (by omega)
  rw [hmul] at hsector
  obtain ⟨mem', hrun, hbytes, hoff⟩ := readLoop_ok (s := (b * UInt32.ofNat n).toInt32)
    (Nat.zero_add n) hd hfree (by omega) (by omega)
    (fun t hle hlt => hr.answers t (by omega) (by omega)) hbuf
  refine ⟨{ k with mem := mem' }, ?_, ?_, rfl, rfl, ?_⟩
  · rw [ext2ReadBlock, hs.sectorsPerBlock, readSectors, hs.rounds]
    exact Exec.bind_ok hrun
  · intro i hi
    have hbyte := hbytes i hi
    rw [Nat.mul_zero, Nat.zero_add, hsector, Int.toNat_natCast, Nat.add_zero] at hbyte
    exact hbyte.trans (congrArg k.dev.content (by rw [Nat.mul_assoc]))
  · rw [Nat.mul_zero, show UInt32.ofNat 0 = 0 from rfl, UInt32.add_zero] at hoff
    exact hoff

/-- Blocks whose first sectors are a multiple of `2 ^ 23` apart are the same
block to the code. -/
theorem ext2ReadBlock_alias {δ : Type} (ide : Ide δ) {n : Nat} {b b' : UInt32}
    (hs : BlockSize priv n) (h : n * b'.toNat % 2 ^ 23 = n * b.toNat % 2 ^ 23)
    (buf : UInt32) :
    ext2ReadBlock ide dev priv b' buf = ext2ReadBlock ide dev priv b buf := by
  have hn := hs.toNat_sectors
  have hbytes : b' * UInt32.ofNat n * 512 = b * UInt32.ofNat n * 512 := by
    rw [← UInt32.toNat_inj]
    simp only [UInt32.toNat_mul, hn, show (512 : UInt32).toNat = 512 from rfl,
      Nat.mul_comm _ n]
    omega
  have haddr : ∀ c : Nat, ((b' * UInt32.ofNat n).toInt32 + Int32.ofNat c) * 512 =
      ((b * UInt32.ofNat n).toInt32 + Int32.ofNat c) * 512 := by
    intro c
    have := congrArg UInt32.toInt32 hbytes
    rw [UInt32.toInt32_mul, UInt32.toInt32_mul (b * UInt32.ofNat n)] at this
    rw [Int32.add_mul, Int32.add_mul]
    exact congrArg (· + _) this
  have hloop : ∀ m c, sectorsLoop (readSector ide dev) (b' * UInt32.ofNat n).toInt32 buf m c =
      sectorsLoop (readSector ide dev) (b * UInt32.ofNat n).toInt32 buf m c := by
    intro m
    induction m with
    | zero => exact fun _ => rfl
    | succ m ih =>
        intro c
        rw [sectorsLoop, sectorsLoop, readSector_congr ide dev (haddr c)]
        simp only [ih]
  simp only [ext2ReadBlock, hs.sectorsPerBlock, readSectors, hloop]

/-! ## Inodes -/

/-- How `ext2_read_inode` finds an inode on a volume with blocks of `n` sectors:
the word it takes from the page of the descriptor block is `word`, and that leads
to the block `target`, which can be read. -/
structure Seeks (rel n : Nat) (disk : Disk) (priv : Ext2PrivData) (node word : UInt32)
    (target : Nat) : Prop where
  pos : 1 ≤ node.toNat
  inodesInBlockgroup : 0 < priv.sb.inodesInBlockgroup.toNat
  group : 32 * ((node.toNat - 1) / priv.sb.inodesInBlockgroup.toNat) + 12 ≤ 0x1000
  index : 128 * ((node.toNat - 1) % priv.sb.inodesInBlockgroup.toNat) < 2 ^ 32
  first : Readable rel n disk priv.firstBgd.toNat
  descriptor : le32 (pageOf disk.content (512 * n) priv.firstBgd.toNat)
    (32 * ((node.toNat - 1) / priv.sb.inodesInBlockgroup.toNat) + 8) = word
  leads : n * (word.toNat + 128 * ((node.toNat - 1) % priv.sb.inodesInBlockgroup.toNat) /
    (512 * n)) % 2 ^ 23 = n * target % 2 ^ 23
  block : Readable rel n disk target

/-- The second half of `ext2_read_inode`: the block of the inode is read to
`p` and the inode copied from there. -/
theorem copyInode_ok {n target : Nat} {table index p buf : UInt32}
    {map : Vector UInt8 kMemoryMapEntries} {W : UInt32 → Prop} {m : Mem}
    (hd : Holds dev rel disk) (hs : BlockSize priv n) (hindex : 128 * index.toNat < 2 ^ 32)
    (hlead : n * (table.toNat + 128 * index.toNat / (512 * n)) % 2 ^ 23 =
      n * target % 2 ^ 23)
    (hr : Readable rel n disk target)
    (hfree : 0 < freeCount map) (hp : Clear map p (512 * n))
    (hbuf : ∀ a, Span buf 128 a → ¬ Span p (512 * n) a)
    (hW : ∀ a, Span (scratch map) 0x1000 a ∨ Span p (512 * n) a ∨ Span buf 128 a → W a)
    (hk : k.dev = disk) (hmap : k.kMemoryMap = map) (hoff : SameOff W m k.mem) :
    ∃ k', (do
        ext2ReadBlock Disk.ide dev priv
          (table + index * sizeofInode / UInt32.ofNat (512 * n)) p
        let index ← Kern.ofExcept (umod index (UInt32.ofNat (4 * n)))
        memoryCopy (p + index * sizeofInode) buf 128 : Kern Disk Unit).run k =
          .ok () k' ∧
      k'.dev = disk ∧ k'.kMemoryMap = map ∧
      Mirrors k'.mem buf 128 disk.content
        (512 * n * target + 128 * (index.toNat % (4 * n))) ∧
      SameOff W m k'.mem := by
  subst hmap
  have hn := hs.known
  have hlow := hr.low
  have htarget : (UInt32.ofNat target).toNat = target := by
    rw [UInt32.toNat_ofNat']
    refine Nat.mod_eq_of_lt ?_
    rcases hn with rfl | rfl | rfl <;> omega
  have hoffset : (index * sizeofInode).toNat = 128 * index.toNat := by
    rw [UInt32.toNat_mul, show sizeofInode.toNat = 128 from rfl]
    omega
  have hsize := hs.toNat_bytes
  have hper := hs.toNat_inodes
  have hblock : n * (table + index * sizeofInode / UInt32.ofNat (512 * n)).toNat % 2 ^ 23 =
      n * (UInt32.ofNat target).toNat % 2 ^ 23 := by
    rw [UInt32.toNat_add, UInt32.toNat_div, hoffset, hsize, htarget, ← hlead]
    rcases hn with rfl | rfl | rfl <;> omega
  have hinside : (index % UInt32.ofNat (4 * n)) * sizeofInode =
      UInt32.ofNat (128 * (index.toNat % (4 * n))) := by
    rw [← hper, ← UInt32.toNat_mod, UInt32.ofNat_mul, UInt32.ofNat_toNat, UInt32.mul_comm]
    rfl
  obtain ⟨k₁, hrun₁, hbytes, hleave₁⟩ := ext2ReadBlock_read (b := UInt32.ofNat target) hd hs
    hk hfree (by rw [htarget]; exact hr) hp
  rw [htarget] at hbytes
  have hpart : 128 * (index.toNat % (4 * n)) + 128 ≤ 512 * n := by
    rcases hn with rfl | rfl | rfl <;> omega
  obtain ⟨k₂, hrun₂, hcopy, hleave₂⟩ := memoryCopy_mirrors
    (show (128 : Int32).toInt.toNat = 128 from rfl)
    (fun a ha hb => hbuf a hb (ha.sub hpart (by omega)))
    (hbytes.part (i := 128 * (index.toNat % (4 * n))) hpart)
  rw [ext2ReadBlock_alias Disk.ide hs hblock, Exec.bind_ok hrun₁,
    Exec.bind_ok (Kern.ofExcept_run (umod_ok (by omega))), hinside]
  refine ⟨k₂, hrun₂, hleave₂.dev.trans (hleave₁.dev.trans hk),
    hleave₂.kMemoryMap.trans hleave₁.kMemoryMap, hcopy, ?_⟩
  refine (hoff.trans (hleave₁.mem.mono fun a ha => hW a ?_)).trans
    (hleave₂.mem.mono fun a ha => hW a (.inr (.inr ha)))
  rcases ha with ha | ha
  · exact .inl ha
  · exact .inr (.inl ha)

/-- The first half of `ext2_read_inode`: the block of the group descriptors is read to a new
page, and the word for the inode's group is there. -/
theorem readDescriptors_ok {n target : Nat} {node word : UInt32} (hd : Holds dev rel disk)
    (hs : BlockSize priv n) (hseek : Seeks rel n disk priv node word target)
    (hk : k.dev = disk) (hfree : 2 ≤ freeCount k.kMemoryMap) :
    ∃ k₁ k₂, (kmalloc 1).run k = .ok (scratch k.kMemoryMap) k₁ ∧
      (ext2ReadBlock Disk.ide dev priv priv.firstBgd (scratch k.kMemoryMap)).run k₁ =
        .ok () k₂ ∧
      k₂.dev = disk ∧ k₂.kMemoryMap = taken k.kMemoryMap ∧
      k₂.mem.load32 (scratch k.kMemoryMap + (node - 1) / priv.sb.inodesInBlockgroup *
        sizeofBlockGroup + 8) = word ∧
      SameOff (FreeAt k.kMemoryMap) k.mem k₂.mem := by
  have hn := hs.known
  have hpage : freeCount (taken k.kMemoryMap) + 1 = freeCount k.kMemoryMap :=
    freeCount_taken (by omega)
  have hfree' : 0 < freeCount (taken k.kMemoryMap) := by omega
  have hnext : ∀ a, Span (scratch (taken k.kMemoryMap)) 0x1000 a →
      FreeAt k.kMemoryMap a ∧ ¬ Span (scratch k.kMemoryMap) 0x1000 a :=
    fun a ha => (freeAt_taken (by omega)).mp (freeAt_scratch hfree' ha)
  have hown : ∀ a, Span (scratch k.kMemoryMap) 0x1000 a → FreeAt k.kMemoryMap a :=
    fun a => freeAt_scratch (by omega)
  obtain ⟨k₁, hrun₁, hdev₁, hmap₁, hmem₁⟩ := kmalloc_page (k := k) (by omega)
  generalize scratch k.kMemoryMap = p at *
  have hclear : Clear (taken k.kMemoryMap) p (512 * n) :=
    fun a ha hs => (hnext a hs).2 (ha.mono (by omega))
  obtain ⟨k₂, hrun₂, hdesc, hleave₂⟩ := ext2ReadBlock_read (k := k₁) hd hs
    (hdev₁.trans hk) (by rw [hmap₁]; exact hfree') hseek.first (by rw [hmap₁]; exact hclear)
  rw [hmap₁] at hleave₂
  refine ⟨k₁, k₂, hrun₁, hrun₂, hleave₂.dev.trans (hdev₁.trans hk),
    hleave₂.kMemoryMap.trans hmap₁, ?_, ?_⟩
  · have hmirror := mirrors_page (fun a hin hout => by
      rw [hleave₂.mem a (fun h => h.elim (fun h => (hnext a h).2 hin) hout), hmem₁,
        Mem.write_in hin]) hdesc
    rw [table_address p hseek.pos, hmirror.load32 (by have := hseek.group; omega),
      Nat.zero_add, hseek.descriptor]
  · have hoff₁ : SameOff (Span p 0x1000) k.mem k₁.mem := hmem₁ ▸ sameOff_write
    refine (hoff₁.mono fun a ha => hown a ha).trans (hleave₂.mem.mono ?_)
    rintro a (ha | ha)
    · exact (hnext a ha).1
    · exact hown a (ha.mono (by omega))

/-- An inode is delivered to the buffer, and a page is lost. -/
theorem ext2ReadInode_read {n target : Nat} {node word buf : UInt32}
    (hd : Holds dev rel disk) (hs : BlockSize priv n)
    (hseek : Seeks rel n disk priv node word target) (hk : k.dev = disk)
    (hfree : 2 ≤ freeCount k.kMemoryMap)
    (hbuf : ∀ a, Span buf 128 a → ¬ FreeAt k.kMemoryMap a) :
    ∃ k', (ext2ReadInode Disk.ide dev priv node buf).run k = .ok () k' ∧
      k'.dev = disk ∧ k'.kMemoryMap = taken k.kMemoryMap ∧
      Mirrors k'.mem buf 128 disk.content (512 * n * target +
        128 * ((node.toNat - 1) % priv.sb.inodesInBlockgroup.toNat % (4 * n))) ∧
      SameOff (fun a => FreeAt k.kMemoryMap a ∨ Span buf 128 a) k.mem k'.mem := by
  have hn := hs.known
  have hindex : ((node - 1) % priv.sb.inodesInBlockgroup).toNat =
      (node.toNat - 1) % priv.sb.inodesInBlockgroup.toNat := by
    rw [UInt32.toNat_mod, toNat_pred hseek.pos]
  have hpage : freeCount (taken k.kMemoryMap) + 1 = freeCount k.kMemoryMap :=
    freeCount_taken (by omega)
  have hfree' : 0 < freeCount (taken k.kMemoryMap) := by omega
  have hnext : ∀ a, Span (scratch (taken k.kMemoryMap)) 0x1000 a →
      FreeAt k.kMemoryMap a ∧ ¬ Span (scratch k.kMemoryMap) 0x1000 a :=
    fun a ha => (freeAt_taken (by omega)).mp (freeAt_scratch hfree' ha)
  have hown : ∀ a, Span (scratch k.kMemoryMap) 0x1000 a → FreeAt k.kMemoryMap a :=
    fun a => freeAt_scratch (by omega)
  obtain ⟨k₁, k₂, hrun₁, hrun₂, hdev₂, hmap₂, htable, hoff₂⟩ :=
    readDescriptors_ok hd hs hseek hk hfree
  generalize scratch k.kMemoryMap = p at *
  have hsize : 0 < (UInt32.ofNat (512 * n)).toNat := by
    rw [hs.toNat_bytes]
    omega
  rw [ext2ReadInode, hs.blocksize, hs.inodesPerBlock,
    Exec.bind_ok (Kern.ofExcept_run (udiv_ok hseek.inodesInBlockgroup)), Exec.bind_ok hrun₁,
    Exec.bind_ok hrun₂]
  simp only [Exec.bind_ok (kprint_run _ _), Exec.bind_ok (kprintInt_run _ _),
    Exec.bind_ok (Kern.ofExcept_run (umod_ok hseek.inodesInBlockgroup)),
    Exec.bind_ok (Kern.ofExcept_run (udiv_ok hsize)),
    Exec.bind_ok (read32_run _ _), Kernel.print_mem, htable]
  rw [← hindex]
  refine copyInode_ok hd hs (by rw [hindex]; exact hseek.index)
    (by rw [hindex]; exact hseek.leads) hseek.block hfree'
    (fun a ha hs => (hnext a hs).2 (ha.mono (by omega))) ?_ ?_ hdev₂ hmap₂
    (hoff₂.mono fun a ha => .inl ha)
  · exact fun a ha hs => hbuf a ha (hown a (hs.mono (by omega)))
  · rintro a (ha | ha | ha)
    · exact .inl (hnext a ha).1
    · exact .inl (hown a (ha.mono (by omega)))
    · exact .inr ha

/-! ## On a volume -/

omit [Layout] in
theorem Volume.blockSize (hv : Volume dev rel priv disk) : BlockSize priv 2 := by
  obtain ⟨-, -, hsize, hsectors, hper⟩ := fillPrivData_eq hv.image hv.priv
  exact ⟨.inl rfl, hsize, hsectors, hper⟩

omit [Layout] in
theorem Mounted.blockSize (hm : Mounted dev rel sectors priv disk) : BlockSize priv 2 :=
  hm.volume.blockSize

omit [Layout] in
theorem Mounted.readable {b : Nat} (hm : Mounted dev rel sectors priv disk)
    (hb : b < (superblock disk.content).blocks.toNat) : Readable rel 2 disk b := by
  have hsmall := blocks_lt hm.image
  have hroom := hm.room
  exact ⟨by omega, fun t _ ht => hm.serves.answer (by omega)⟩

/-- The drive answers for the group descriptors and for the block an inode is in. -/
structure InodeReadable (rel : Nat) (disk : Disk) (n : UInt32) : Prop where
  descriptors : Readable rel 2 disk 2
  table : Readable rel 2 disk (inodeBlock disk.content n)

omit [Layout] in
theorem Mounted.inodeReadable {n : UInt32} (hm : Mounted dev rel sectors priv disk)
    (hn : Reachable disk.content n) : InodeReadable rel disk n :=
  ⟨hm.readable hm.image.descriptors, hm.readable (hm.image.inode n hn).2.2⟩

omit [Layout] in
/-- Every inode that can be reached is found. -/
theorem Volume.seeks {n : UInt32} (hv : Volume dev rel priv disk)
    (hn : Reachable disk.content n) (hl : InodeReadable rel disk n) :
    Seeks rel 2 disk priv n (inodeTable disk.content (groupOf disk.content n))
      (inodeBlock disk.content n) := by
  obtain ⟨hsb, hfirst, -, -, -⟩ := fillPrivData_eq hv.image hv.priv
  obtain ⟨hone, hlast, hin⟩ := hv.image.inode n hn
  have hsmall := blocks_lt hv.image
  have hgroups := hv.image.groups.2
  have hbg : groupOf disk.content n < 32 := by
    refine Nat.div_lt_of_lt_mul ?_
    rw [Nat.mul_comm]
    omega
  constructor
  · exact hone
  · rw [hsb]
    exact hv.image.inodesInBlockgroup
  · rw [hsb]
    show 32 * groupOf disk.content n + 12 ≤ 0x1000
    omega
  · rw [hsb]
    show 128 * indexOf disk.content n < 2 ^ 32
    rw [inodeBlock] at hin
    omega
  · rw [hfirst]
    exact hl.descriptors
  · rw [hsb, hfirst]
    show _ = le32 disk.content (2048 + 32 * groupOf disk.content n + 8)
    refine le32_congr fun i hi => ?_
    show pageOf disk.content (512 * 2) (2 : UInt32).toNat
      (32 * groupOf disk.content n + 8 + i) = _
    rw [pageOf, if_pos (by omega), show (2 : UInt32).toNat = 2 from rfl]
    exact congrArg disk.content (by omega)
  · rw [hsb]
    rfl
  · exact hl.table

/-- An inode of the volume is delivered to the buffer, and a page is lost. -/
theorem ext2ReadInode_ok {n buf : UInt32} (hv : Volume dev rel priv disk)
    (hk : k.dev = disk) (hn : Reachable disk.content n) (hl : InodeReadable rel disk n)
    (hfree : 2 ≤ freeCount k.kMemoryMap)
    (hbuf : ∀ a, Span buf 128 a → ¬ FreeAt k.kMemoryMap a) :
    ∃ k', (ext2ReadInode Disk.ide dev priv n buf).run k = .ok () k' ∧
      k'.dev = disk ∧ k'.kMemoryMap = taken k.kMemoryMap ∧
      Mirrors k'.mem buf 128 disk.content (inodeOff disk.content n) ∧
      SameOff (fun a => FreeAt k.kMemoryMap a ∨ Span buf 128 a) k.mem k'.mem := by
  obtain ⟨hsb, -, -, -, -⟩ := fillPrivData_eq hv.image hv.priv
  have hread := ext2ReadInode_read hv.toHolds hv.blockSize (hv.seeks hn hl) hk hfree hbuf
  have hplace : 512 * 2 * inodeBlock disk.content n +
      128 * (indexOf disk.content n % (4 * 2)) = inodeOff disk.content n := by
    rw [inodeBlock, inodeOff]
    omega
  rw [hsb] at hread
  rw [← hplace]
  exact hread

/-! ## Without pages -/

theorem ext2ReadBlock_exit (b buf : UInt32) (hm : Mounted dev rel sectors priv disk)
    (hfree : freeCount k.kMemoryMap = 0) :
    ∃ k', (ext2ReadBlock Disk.ide dev priv b buf).run k = .error (.exit 2) k' := by
  obtain ⟨-, -, -, htwo, -⟩ := fillPrivData_eq hm.image hm.priv
  obtain ⟨k', hexit, -⟩ := kmalloc_exit (n := 1) (k := k) (by decide)
    (by rw [hfree]; decide)
  refine ⟨k', ?_⟩
  rw [ext2ReadBlock, htwo, readSectors,
    show (2 : UInt32).toInt32.toInt.toNat = 2 from rfl, sectorsLoop]
  refine Exec.bind_error (Exec.bind_error ?_)
  exact Exec.bind_error hexit

/-- With fewer than two free pages `ext2_read_inode` stops the kernel. -/
theorem ext2ReadInode_exit (n buf : UInt32) (hm : Mounted dev rel sectors priv disk)
    (hfree : freeCount k.kMemoryMap < 2) :
    ∃ k', (ext2ReadInode Disk.ide dev priv n buf).run k = .error (.exit 2) k' := by
  obtain ⟨hsb, -, -, -, -⟩ := fillPrivData_eq hm.image hm.priv
  have hpos := hm.image.inodesInBlockgroup
  rw [ext2ReadInode, hsb, Exec.bind_ok (Kern.ofExcept_run (udiv_ok hpos))]
  rcases Nat.eq_zero_or_pos (freeCount k.kMemoryMap) with hzero | hpage
  · obtain ⟨k', hexit, -⟩ := kmalloc_exit (n := 1) (k := k) (by decide)
      (by rw [hzero]; decide)
    exact ⟨k', Exec.bind_error hexit⟩
  · have hlast : freeCount (taken k.kMemoryMap) + 1 = freeCount k.kMemoryMap :=
      freeCount_taken hpage
    obtain ⟨k₁, hrun₁, -, hmap₁, -⟩ := kmalloc_page hpage
    obtain ⟨k', hexit⟩ := ext2ReadBlock_exit (k := k₁) priv.firstBgd
      (scratch k.kMemoryMap) hm (by rw [hmap₁]; omega)
    exact ⟨k', by rw [Exec.bind_ok hrun₁, Exec.bind_error hexit]⟩

end

end Bedrock
