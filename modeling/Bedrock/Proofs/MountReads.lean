import Bedrock.Proofs.BootCheck
import Bedrock.Proofs.LookupReads
import Bedrock.Proofs.SuperblockChecks

/-!
# What mounting reads

The sectors that `ext2_init` asks for on a volume: those of the superblock, the root's
inode, and the blocks of the root directory (`mountSectors`). The search for `sys.cfg`
is one without a slash, so it reads no other inode and no other directory.
-/

namespace Bedrock

open Lib Lib.Exec Image

/-! ## The sectors -/

section

variable (rel : Nat) (c : Image)

/-- Where a search without a slash reads. -/
def rootSectors : List UInt32 :=
  inodeSectors rel c 2 ++ (rootBlocks c).flatMap fun b => blockSectors rel b.toNat

/-- The superblock is in block 1. -/
def mountSectors : List UInt32 := blockSectors rel 1 ++ rootSectors rel c

end

section

variable {dev : DeviceInfo} {rel sectors : Nat} {priv : Ext2PrivData} {disk : Disk}

/-- The disk answers for every sector of mounting. -/
theorem mountSectors_answered (hm : Mounted dev rel sectors priv disk) :
    Answered disk (mountSectors rel disk.content) := by
  have hmany := hm.image.descriptors
  obtain ⟨-, -, -, hblocks⟩ := hm.image.directory 2 .root hm.image.root
  refine .append (hm.readable (b := 1) (by omega)).answered
    (.append (inodeSectors_answered hm .root) fun lba hlba => ?_)
  obtain ⟨b, hb, hin⟩ := List.mem_flatMap.mp hlba
  obtain ⟨t, ht, rfl⟩ := List.mem_map.mp hb
  exact (hm.readable (hblocks t (List.mem_range.mp ht)).2.1).answered lba hin

end

/-! ## On another device -/

section

variable [Layout] {δ : Type} {V : DeviceView Disk δ} {ide : Ide δ} {P : UInt32 → Prop}
  {dev : DeviceInfo} {rel sectors fuel : Nat} {priv : Ext2PrivData} {disk : Disk}
  {k : Kernel Disk} {i j f : Nat} {name : List UInt8}

/-- A block of the root directory whose sectors are covered. -/
theorem simulates_coveredRootBlock {b : UInt32} (hV : CoversReads V ide P)
    (hg : Geometry dev rel) (hs : BlockSize priv 2) (hlow : 2 * b.toNat + 2 ≤ 2 ^ 22)
    (hcovered : ∀ lba ∈ blockSectors rel b.toNat, P lba) (filename rootBuf inode : UInt32) :
    Simulates V.kernel (readRootBlock Disk.ide dev priv fuel filename rootBuf inode b)
      (readRootBlock ide dev priv fuel filename rootBuf inode b) := by
  have hD := hV.toAdmits
  refine .bind (simulates_coveredBlock hV hg hs hlow hcovered rootBuf) fun _ => ?_
  refine .bind (simulates_ext2ReadDirectoryLoop hD fuel filename fuel rootBuf) fun found => ?_
  exact .ite (.pure none) (.bind (simulates_kfree hD inode 1) fun _ => .pure (some 1))

/-- The loop over the blocks of the root directory, all of whose sectors are covered. -/
theorem at_coveredRootBlocks {n t : Nat} (hV : CoversReads V ide P)
    (hm : Mounted dev rel sectors priv disk) (hends : RootEnds disk.content) (hk : k.dev = disk)
    (h : Searching k disk.content j i f 1 2 [name]) (hn : t + n = 12)
    (hfree : 0 < freeCount k.kMemoryMap) (h0 : 0 ∉ name) (hfuel : 0x1000 ≤ fuel)
    (hcovered : ∀ lba ∈ rootSectors rel disk.content, P lba) :
    View.At V.kernel
      (forDirectBlocks (blockAddr j) (readRootBlock Disk.ide dev priv fuel
        (blockAddr f + UInt32.ofNat 1) (blockAddr i) (blockAddr j)) n t)
      (forDirectBlocks (blockAddr j) (readRootBlock ide dev priv fuel
        (blockAddr f + UInt32.ofNat 1) (blockAddr i) (blockAddr j)) n t) k := by
  obtain ⟨-, -, -, hblocks⟩ := hm.image.directory 2 .root hm.image.root
  induction n generalizing t k with
  | zero => exact Simulates.pure _ k (hV.inv _)
  | succ n ih =>
      rw [forDirectBlocks, forDirectBlocks]
      refine View.At.after (simulates_read32 _ k (hV.inv _)) (read32_run _ k) ?_
      rw [load_directBlock h.inode (by omega)]
      by_cases ht : t < sizeOf disk.content 2 / 1024
      · obtain ⟨hne, hlt, hparse⟩ := hblocks t ht
        have hin : directBlock disk.content 2 t ∈ rootBlocks disk.content :=
          List.mem_map.mpr ⟨t, List.mem_range.mpr ht, rfl⟩
        rw [if_neg hne, if_neg hne]
        refine View.At.bind_at (simulates_coveredRootBlock hV hm.serves.geometry hm.blockSize
          (hm.readable hlt).low (fun lba hlba => hcovered lba (List.mem_append_right _
            (List.mem_flatMap.mpr ⟨_, hin, hlba⟩))) _ _ _ k (hV.inv _)) fun left k₁ hrun => ?_
        obtain ⟨k₁', hround, -, hleave⟩ := readRootBlock_ok hm hk h hlt hparse hfree h0 hfuel
        rw [hrun] at hround
        injection hround with hleft heq
        subst heq
        cases left with
        | some v => exact Simulates.pure _ k₁ (hV.inv _)
        | none =>
            have hmissing : lists disk.content name (directBlock disk.content 2 t) = false := by
              by_contra hfound
              rw [if_pos (Bool.not_eq_false _ ▸ hfound)] at hleft
              cases hleft
            have hleave := hleave hmissing
            exact ih (hleave.dev.trans hk) (h.congr hleave) (by omega)
              (by rw [hleave.kMemoryMap]; exact hfree)
      · rw [if_pos (hends t (by omega) (Nat.not_lt.mp ht)),
          if_pos (hends t (by omega) (Nat.not_lt.mp ht))]
        exact Simulates.pure _ k (hV.inv _)

/-- The search in the root directory, all of whose sectors are covered. -/
theorem at_coveredRootDirectory {r : Nat} (hV : CoversReads V ide P)
    (hm : Mounted dev rel sectors priv disk) (hends : RootEnds disk.content) (hk : k.dev = disk)
    (hpages : Pages k.kMemoryMap i r f) (hfree : 3 ≤ freeCount k.kMemoryMap)
    (hzero : ∀ a, Span (blockAddr i) 0x1000 a → k.mem a = 0)
    (hname : BytesAt k.mem (blockAddr f + UInt32.ofNat 1) (nameStrings [name]))
    (h0 : 0 ∉ name) (hroom : 1 + (nameStrings [name]).length ≤ 0x1000)
    (hfuel : 0x1000 ≤ fuel) (hcovered : ∀ lba ∈ rootSectors rel disk.content, P lba) :
    View.At V.kernel
      (ext2ReadRootDirectory Disk.ide dev priv fuel (blockAddr f + UInt32.ofNat 1) (blockAddr i))
      (ext2ReadRootDirectory ide dev priv fuel (blockAddr f + UInt32.ofNat 1) (blockAddr i))
      k := by
  have hD := hV.toAdmits
  obtain ⟨j, k₁, k₂, h₁, hroot, hk₂, hfree₂, h₂, htype⟩ :=
    rootInode_ok hm hk hpages hfree hzero hname hroom
  refine View.At.after (simulates_kmalloc hD 1 k (hV.inv _)) h₁.run ?_
  refine View.At.after (at_coveredInode hV hm (h₁.dev.trans hk) .root
    (fun lba hlba => hcovered lba (List.mem_append_left _ hlba)) (blockAddr j)) hroot ?_
  refine View.At.after (simulates_read16 _ k₂ (hV.inv _)) (read16_run _ k₂) ?_
  rw [if_neg (not_not_intro htype), if_neg (not_not_intro htype)]
  refine (at_coveredRootBlocks hV hm hends hk₂ h₂ (show 0 + 12 = 12 from rfl) hfree₂ h0 hfuel
    hcovered).bind fun left => ?_
  cases left with
  | some v => exact .pure v
  | none => exact .bind (simulates_kfree hD _ 1) fun _ => .ite (.pure 0) (.pure 1)

/-- A lookup without a slash, all of whose sectors are covered. -/
theorem at_coveredRootLookup {ff : UInt32} {l : List UInt8} (inodeBuf : UInt32)
    (hV : CoversReads V ide P) (hm : Mounted dev rel sectors priv k.dev)
    (hends : RootEnds k.dev.content) (hff : HoldsString k ff l) (hslash : slash ∉ l)
    (hfuel : 0x1000 ≤ fuel) (hfree : 6 ≤ freeCount k.kMemoryMap)
    (hcovered : ∀ lba ∈ rootSectors rel k.dev.content, P lba) :
    View.At V.kernel (ext2FindFileInode Disk.ide dev priv fuel ff inodeBuf)
      (ext2FindFileInode ide dev priv fuel ff inodeBuf) k := by
  have hD := hV.toAdmits
  have hshort := hff.short
  rw [ext2FindFileInode_eq, ext2FindFileInode_eq]
  obtain ⟨i, r, f, k₁, h₁, hsetup⟩ := ext2FindSetup_ok hff (show l.length < fuel by omega)
    (by omega)
  refine View.At.after (simulates_ext2FindSetup hD k (hV.inv _)) hsetup ?_
  have hcount := h₁.count
  have hnames := h₁.names
  have hlen := length_nameStrings_splitOn l.tail
  rw [List.splitOn_eq_singleton (fun hin => hslash (List.mem_of_mem_tail hin))] at hnames hlen
  rw [List.length_tail] at hlen
  simp only [one_lt_segments hshort, hslash, if_false]
  refine (at_coveredRootDirectory hV hm hends h₁.dev h₁.pages (by omega)
    (fun a ha => h₁.zero a (.inr ha)) hnames (fun h0 => hff.nonzero (List.mem_of_mem_tail h0))
    (by omega) hfuel hcovered).bind fun _ => ?_
  exact .bind (simulates_memoryCopy _ _ _) fun _ =>
    .bind (simulates_ext2FindRelease hD _ _ _) fun _ => .pure 0

end

/-! ## The requests -/

section

variable [Layout] {dev : DeviceInfo} {rel sectors fuel : Nat} {priv : Ext2PrivData}
  {k : Kernel Disk} {sysCfg : UInt32}

/-- The drive delivers the superblock of a volume. -/
theorem Boots.mounts (h : Boots dev rel sectors priv k sysCfg)
    (hfree : 9 ≤ freeCount k.kMemoryMap) : Mounts dev rel k sysCfg := by
  have hroom := h.mounted.room
  have hmany := h.mounted.image.descriptors
  refine ⟨h.mounted.serves.toHolds, ?_, ?_, hfree, h.sysCfg⟩
  · exact place_answers h.mounted.serves (by decide) (by decide)
      (show (2 : Int32).toInt.toNat < sectors * rel by
        rw [show (2 : Int32).toInt.toNat = 2 from rfl]
        omega)
  · exact place_answers h.mounted.serves (by decide) (by decide)
      (show (3 : Int32).toInt.toNat < sectors * rel by
        rw [show (3 : Int32).toInt.toNat = 3 from rfl]
        omega)

omit [Layout] in
theorem superblock_sectors (hrel : rel = 1 ∨ rel = 4) :
    [(placeOf rel 2).realSector, (placeOf rel 3).realSector] = blockSectors rel 1 := by
  rw [realSector_low hrel (by decide) (by decide), realSector_low hrel (by decide) (by decide)]
  rfl

/-- Mounting a volume asks for the sectors that the volume says, and no others. -/
theorem ext2Init_requests_mem (h : Boots dev rel sectors priv k sysCfg) (hfuel : 0x1000 ≤ fuel)
    (hfree : 9 ≤ freeCount k.kMemoryMap) :
    ∀ lba ∈ (final ((ext2Init Disk.ide.recorded dev fuel sysCfg).run k.recording)).dev.2,
      lba ∈ mountSectors rel k.dev.content := by
  have hm := h.mounted
  have hg := hm.serves.geometry
  obtain ⟨s, p, n, k', hdev, hfree', hcfg, hrun⟩ :=
    ext2Init_signed (h.mounts hfree) hm.priv h.signature fuel
  rw [superblock_sectors hg.known] at hdev
  -- the search goes on where the superblock has been read
  obtain ⟨k₁, hk₁⟩ : ∃ k₁ : Kernel Disk,
    k₁ = ⟨⟨k'.mem, k'.console, k.dev⟩, k'.kMemoryMap, k'.cr3⟩ := ⟨_, rfl⟩
  have hdev₁ : k₁.dev = k.dev := by rw [hk₁]
  have hff : HoldsString k₁ sysCfg sysCfgName := by
    have hstring := hcfg.holdsString
    rw [hk₁]
    exact ⟨hstring.string, hstring.apart, hstring.nonzero, hstring.short⟩
  have hcovers : CoversReads withinView (Disk.ide.within (mountSectors rel k.dev.content))
      fun lba => lba ∈ mountSectors rel k.dev.content := covers_within
  have hfind := at_coveredRootLookup n hcovers (hdev₁ ▸ hm) (hdev₁ ▸ h.root) hff
    slash_not_mem_sysCfgName hfuel (by rw [hk₁]; exact hfree')
    fun lba hlba => List.mem_append_right _ (hdev₁ ▸ hlba)
  have hsearch := at_searched hcovers.toAdmits hfind s p
  have hrecord := simulates_ext2InitSearch
    ⟨recordView_admits, hm.divides, fun _ _ buffer => simulates_readSector recordView_admits hg
      (fun drive edi => simulates_record (mountSectors rel k.dev.content) drive 1 _ 0 edi)
      buffer⟩ fuel sysCfg s p n
  rw [hrun]
  refine requests_mem ?_ hsearch hrecord
  have hall : (blockSectors rel 1).all (mountSectors rel k.dev.content).contains = true :=
    List.all_eq_true.mpr fun lba hlba =>
      List.contains_iff_mem.mpr (List.mem_append_left _ hlba)
  have hflag : (recordView (mountSectors rel k.dev.content)).map k'.dev = (k.dev, true) := by
    rw [hdev]
    exact congrArg (Prod.mk k.dev) hall
  rw [hk₁]
  exact congrArg (fun d => (⟨⟨k'.mem, k'.console, d⟩, k'.kMemoryMap, k'.cr3⟩ :
    Kernel (Disk × Bool))) hflag

end

end Bedrock
