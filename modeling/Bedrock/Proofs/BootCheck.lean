import Bedrock.Lib.FirstWins
import Bedrock.Proofs.Mounting

/-!
# The check for `sys.cfg`

`ext2_init` over a drive that answers every request and holds a well-formed volume
with the signature. The inode that is checked is none: the search for `"ys.cfg"`
reads the blocks of the root directory to the page of the inode and stops at the
first that lists this name, or at the last, and the beginning of that block is
what gets copied. Its first two bytes, half the inode number of an entry, are taken
for the type of the file (`ext2Init_sysCfg_iff`).
-/

namespace Bedrock

open Lib Image

/-! ## What the volume says -/

namespace Image

variable (c : Image)

def IsRegular (n : UInt32) : Prop :=
  le16 c (inodeOff c n) &&& 0xF000 = 0x8000

instance (n : UInt32) : Decidable (IsRegular c n) :=
  inferInstanceAs (Decidable (_ = _))

/-- The root directory has a regular file of this name. -/
def HasFile (name : List UInt8) : Prop :=
  ∃ e ∈ directory c 2, DirEntry.names name e = true ∧ IsRegular c e.inode

instance (name : List UInt8) : Decidable (HasFile c name) :=
  inferInstanceAs (Decidable (∃ e ∈ _, _))

/-- The blocks of the root directory. -/
def rootBlocks : List UInt32 :=
  (List.range (sizeOf c 2 / 1024)).map (directBlock c 2)

/-- The pointers behind the last block of the root directory are zero. -/
def RootEnds : Prop :=
  ∀ t < 12, sizeOf c 2 / 1024 ≤ t → directBlock c 2 t = 0

instance : Decidable (RootEnds c) :=
  inferInstanceAs (Decidable (∀ t < 12, _))

/-- A block lists the name before its first unused entry. -/
def lists (name : List UInt8) (block : UInt32) : Bool :=
  (usedEntries c block).any (DirEntry.names name)

/-- The block of the root directory in which a search for the name stops. -/
def stopBlock (name : List UInt8) : UInt32 :=
  firstOrLast (lists c name) (rootBlocks c) 0

/-- The inode number at the beginning of that block, if its lower half is taken
for the type of a file, is one of a regular file. -/
def PassesFor (name : List UInt8) : Prop :=
  (entryAt c (1024 * (stopBlock c name).toNat)).inode.toUInt16 &&& 0xF000 = 0x8000

instance (name : List UInt8) : Decidable (PassesFor c name) :=
  inferInstanceAs (Decidable (_ = _))

variable {c}

theorem length_rootBlocks : (rootBlocks c).length = sizeOf c 2 / 1024 := by
  rw [rootBlocks, List.length_map, List.length_range]

theorem drop_rootBlocks {t : Nat} (ht : t < sizeOf c 2 / 1024) :
    (rootBlocks c).drop t = directBlock c 2 t :: (rootBlocks c).drop (t + 1) := by
  rw [List.drop_eq_getElem_cons (by rw [length_rootBlocks]; exact ht)]
  simp only [rootBlocks, List.getElem_map, List.getElem_range]

theorem drop_rootBlocks_end {t : Nat} (ht : sizeOf c 2 / 1024 ≤ t) :
    (rootBlocks c).drop t = [] :=
  List.drop_eq_nil_of_le (by rw [length_rootBlocks]; exact ht)

/-- The scan of a block answers an inode exactly if the block lists the name. -/
theorem scan_lists {block : UInt32} (h : (parseBlock c block).isSome) (name : List UInt8) :
    (((usedEntries c block).find? fun e => decide (cString e.name = name)).map
      DirEntry.inode).getD 0 ≠ 0 ↔ lists c name block = true := by
  rw [find_used h, lists, List.any_eq_true, ← List.find?_isSome]
  cases hfind : (usedEntries c block).find? (DirEntry.names name) with
  | none => simp
  | some e =>
      have hused := used_of_mem (List.mem_of_find?_eq_some hfind)
      simpa [DirEntry.used] using hused

theorem le16_eq_le32 (off : Nat) : le16 c off = (le32 c off).toUInt16 := by
  rw [← UInt16.toNat_inj, UInt32.toNat_toUInt16, le16, le32, UInt16.toNat_ofNat',
    UInt32.toNat_ofNat']
  omega

end Image

section

variable [Layout] {k : Kernel Disk} {dev : DeviceInfo} {rel sectors : Nat} {priv : Ext2PrivData}
  {disk : Disk} {i j f fuel : Nat} {name : List UInt8}

/-! ## The blocks of the root directory -/

/-- What `ext2_read_root_directory` does with a block. -/
def readRootBlock {δ : Type} (ide : Ide δ) (dev : DeviceInfo) (priv : Ext2PrivData) (fuel : Nat)
    (filename rootBuf inode b : UInt32) : Kern δ (Option UInt8) := do
  ext2ReadBlock ide dev priv b rootBuf
  if (← ext2ReadDirectory fuel filename rootBuf) = 0 then
    return none
  kfree inode 1
  return some 1

/-- The loop is left at a block that lists the name. The block stays in its page. -/
theorem readRootBlock_ok {b : UInt32} (hm : Mounted dev rel sectors priv disk)
    (hk : k.dev = disk) (h : Searching k disk.content j i f 1 2 [name])
    (hlt : b.toNat < (superblock disk.content).blocks.toNat)
    (hparse : (parseBlock disk.content b).isSome) (hfree : 0 < freeCount k.kMemoryMap)
    (h0 : 0 ∉ name) (hfuel : 0x1000 ≤ fuel) :
    ∃ k', (readRootBlock Disk.ide dev priv fuel (blockAddr f + UInt32.ofNat 1) (blockAddr i)
        (blockAddr j) b).run k =
          .ok (if lists disk.content name b then some 1 else none) k' ∧
      Mirrors k'.mem (blockAddr i) 1024 disk.content (1024 * b.toNat) ∧
      (lists disk.content name b = false →
        Leaves (fun a => FreeAt k.kMemoryMap a ∨ Span (blockAddr i) 1024 a) k k') := by
  have hj := h.pages.inode_lt
  obtain ⟨k₁, k₂, hread, hscan, hleave, hpage⟩ :=
    readScan_ok hm.volume hk h (scanEntries_used hparse) (hm.readable hlt) hfree h0 hfuel
  have hlists := scan_lists hparse name
  rw [readRootBlock, Exec.bind_ok hread, Exec.bind_ok hscan]
  by_cases hfound : lists disk.content name b = true
  · rw [if_neg (hlists.mpr hfound), Exec.bind_ok (kfree_block hj), if_pos hfound]
    exact ⟨_, rfl, hpage, fun h => absurd hfound (by rw [h]; decide)⟩
  · rw [if_pos (by_contra fun h => hfound (hlists.mp h)), if_neg hfound]
    exact ⟨k₂, rfl, hpage, fun _ => hleave⟩

/-- From the block `t` on, the loop stops at the first block that lists the name, or
at the last one, and that one stays in its page; without further blocks the page
keeps the one it has. -/
theorem readRootBlocks_ok {n t : Nat} (last : UInt32) (hm : Mounted dev rel sectors priv disk)
    (hends : RootEnds disk.content) (hk : k.dev = disk)
    (h : Searching k disk.content j i f 1 2 [name]) (hn : t + n = 12)
    (hlast : (rootBlocks disk.content).drop t = [] →
      Mirrors k.mem (blockAddr i) 1024 disk.content (1024 * last.toNat))
    (hfree : 0 < freeCount k.kMemoryMap) (h0 : 0 ∉ name) (hfuel : 0x1000 ≤ fuel) :
    ∃ left k', (forDirectBlocks (blockAddr j) (readRootBlock Disk.ide dev priv fuel
        (blockAddr f + UInt32.ofNat 1) (blockAddr i) (blockAddr j)) n t).run k = .ok left k' ∧
      Mirrors k'.mem (blockAddr i) 1024 disk.content (1024 * (firstOrLast
        (lists disk.content name) ((rootBlocks disk.content).drop t) last).toNat) := by
  obtain ⟨-, hsize, -, hblocks⟩ := hm.image.directory 2 .root hm.image.root
  induction n generalizing t k last with
  | zero =>
      have hnil := drop_rootBlocks_end (c := disk.content) (t := t) (by omega)
      rw [hnil]
      exact ⟨none, k, rfl, hlast hnil⟩
  | succ n ih =>
      rw [forDirectBlocks, Exec.bind_ok (read32_run _ _), load_directBlock h.inode (by omega)]
      by_cases ht : t < sizeOf disk.content 2 / 1024
      · obtain ⟨hne, hlt, hparse⟩ := hblocks t ht
        obtain ⟨k₁, hround, hpage, hleave⟩ := readRootBlock_ok hm hk h hlt hparse hfree h0 hfuel
        rw [if_neg hne, Exec.bind_ok hround, drop_rootBlocks ht, firstOrLast_cons]
        by_cases hfound : lists disk.content name (directBlock disk.content 2 t) = true
        · rw [if_pos hfound, if_pos hfound]
          exact ⟨some 1, k₁, rfl, hpage⟩
        · rw [if_neg hfound, if_neg hfound]
          have hleave := hleave (Bool.not_eq_true _ ▸ hfound)
          exact ih _ (hleave.dev.trans hk) (h.congr hleave) (by omega) (fun _ => hpage)
            (by rw [hleave.kMemoryMap]; exact hfree)
      · have hnil := drop_rootBlocks_end (c := disk.content) (Nat.not_lt.mp ht)
        rw [if_pos (hends t (by omega) (Nat.not_lt.mp ht)), hnil]
        exact ⟨none, k, rfl, hlast hnil⟩

/-- The root's inode is read to a page of its own. -/
theorem rootInode_ok {r : Nat} (hm : Mounted dev rel sectors priv disk) (hk : k.dev = disk)
    (hpages : Pages k.kMemoryMap i r f) (hfree : 3 ≤ freeCount k.kMemoryMap)
    (hzero : ∀ a, Span (blockAddr i) 0x1000 a → k.mem a = 0)
    (hname : BytesAt k.mem (blockAddr f + UInt32.ofNat 1) (nameStrings [name]))
    (hroom : 1 + (nameStrings [name]).length ≤ 0x1000) :
    ∃ j k₁ k₂, Takes k k₁ j ∧
      (ext2ReadInode Disk.ide dev priv 2 (blockAddr j)).run k₁ = .ok () k₂ ∧ k₂.dev = disk ∧
      0 < freeCount k₂.kMemoryMap ∧ Searching k₂ disk.content j i f 1 2 [name] ∧
      k₂.mem.load16 (blockAddr j) &&& 0xF000 = 0x4000 := by
  obtain ⟨j, k₁, h₁⟩ := kmalloc_takes (k := k) (by omega)
  have hcount₁ := h₁.count
  obtain ⟨hij, hi₁⟩ := h₁.other hpages.inode_lt hpages.inode_busy
  obtain ⟨hfj, hf₁⟩ := h₁.other hpages.file_lt hpages.file_busy
  have hoff : ∀ a, ¬ Span (blockAddr j) 0x1000 a → k₁.mem a = k.mem a := fun a ha => by
    rw [h₁.mem, Mem.write_off ha]
  obtain ⟨k₂, hroot, hk₂, hmap₂, h₂, -⟩ := readRoot_ok hm.volume (hm.inodeReadable .root)
    (h₁.dev.trans hk) ⟨h₁.lt, hpages.inode_lt, hpages.file_lt, hij.symm, hfj.symm,
      hpages.inode_file, h₁.busy, hi₁, hf₁⟩ (by omega)
    (fun a ha => (hoff a fun hj => hij (block_disjoint hpages.inode_lt h₁.lt
      (ha.sub (by omega) (by omega)) hj)).trans (hzero a (ha.sub (by omega) (by omega))))
    (hname.congr (by omega) fun a ha => hoff a fun hj =>
      hfj (block_disjoint hpages.file_lt h₁.lt (ha.sub (by omega) (by omega)) hj)) hroom
  have hcount₂ : freeCount (taken k₁.kMemoryMap) + 1 = freeCount k₁.kMemoryMap :=
    freeCount_taken (by omega)
  refine ⟨j, k₁, k₂, h₁, hroot, hk₂, by rw [hmap₂]; omega, h₂, ?_⟩
  have hload := h₂.inode.load16 (i := 0) (by omega)
  rw [show UInt32.ofNat 0 = 0 from rfl, UInt32.add_zero] at hload
  rw [hload]
  exact hm.image.root

/-- `ext2_read_root_directory` leaves the block it stopped at in its buffer. -/
theorem ext2ReadRootDirectory_ok {r : Nat} (hm : Mounted dev rel sectors priv disk)
    (hends : RootEnds disk.content) (hk : k.dev = disk) (hpages : Pages k.kMemoryMap i r f)
    (hfree : 3 ≤ freeCount k.kMemoryMap)
    (hzero : ∀ a, Span (blockAddr i) 0x1000 a → k.mem a = 0)
    (hname : BytesAt k.mem (blockAddr f + UInt32.ofNat 1) (nameStrings [name]))
    (h0 : 0 ∉ name) (hroom : 1 + (nameStrings [name]).length ≤ 0x1000)
    (hfuel : 0x1000 ≤ fuel) :
    ∃ v k', (ext2ReadRootDirectory Disk.ide dev priv fuel (blockAddr f + UInt32.ofNat 1)
        (blockAddr i)).run k = .ok v k' ∧
      Mirrors k'.mem (blockAddr i) 1024 disk.content
        (1024 * (stopBlock disk.content name).toNat) := by
  obtain ⟨hsize, -, -, -⟩ := hm.image.directory 2 .root hm.image.root
  obtain ⟨j, k₁, k₂, h₁, hroot, hk₂, hfree₂, h₂, htype⟩ :=
    rootInode_ok hm hk hpages hfree hzero hname hroom
  obtain ⟨left, k₃, hloop, hpage⟩ := readRootBlocks_ok 0 hm hends hk₂ h₂
    (show 0 + 12 = 12 from rfl) (fun hnil => absurd hnil (by
      rw [List.drop_zero]
      exact List.ne_nil_of_length_pos (length_rootBlocks ▸ hsize))) hfree₂ h0 hfuel
  rw [ext2ReadRootDirectory, Exec.bind_ok h₁.run, Exec.bind_ok hroot,
    Exec.bind_ok (read16_run _ _), if_neg (fun h => h htype)]
  obtain ⟨k₄, hkfree, hmem⟩ : ∃ k₄, (kfree (blockAddr j) 1).run k₃ = .ok () k₄ ∧
      k₄.mem = k₃.mem :=
    ⟨_, kfree_block h₁.lt, rfl⟩
  cases left with
  | some v => exact ⟨v, k₃, Exec.bind_ok hloop, hpage⟩
  | none =>
      rw [← hmem] at hpage
      by_cases hfile : blockAddr f + UInt32.ofNat 1 ≠ 0 ∧ blockAddr f + UInt32.ofNat 1 ≠ 1
      · refine ⟨0, k₄, (Exec.bind_ok hloop).trans ?_, hpage⟩
        simp only [Exec.bind_ok hkfree, if_pos hfile]
        rfl
      · refine ⟨1, k₄, (Exec.bind_ok hloop).trans ?_, hpage⟩
        simp only [Exec.bind_ok hkfree, if_neg hfile]
        rfl

/-! ## A string without a slash -/

/-- Its first character is skipped, and the beginning of the block in which the rest is
looked for last is what a buffer outside the free pages gets. -/
theorem ext2FindFileInode_inRoot {ff : UInt32} {l : List UInt8} (inodeBuf : UInt32)
    (hm : Mounted dev rel sectors priv k.dev) (hends : RootEnds k.dev.content)
    (hff : HoldsString k ff l) (hslash : slash ∉ l) (hfuel : 0x1000 ≤ fuel)
    (hfree : 6 ≤ freeCount k.kMemoryMap) :
    ∃ k', (ext2FindFileInode Disk.ide dev priv fuel ff inodeBuf).run k = .ok 0 k' ∧
      ((∀ a, Span inodeBuf 128 a → ¬ FreeAt k.kMemoryMap a) →
        Mirrors k'.mem inodeBuf 128 k.dev.content
          (1024 * (stopBlock k.dev.content l.tail).toNat)) := by
  have hshort := hff.short
  obtain ⟨i, r, f, k₁, h₁, hrun⟩ := findSetup_ok Disk.ide dev priv inodeBuf hff
    (show l.length < fuel by omega) (by omega)
  have hcount := h₁.count
  have hlast := h₁.last
  have hpages := h₁.pages
  have hnames := h₁.names
  have hlen := length_nameStrings_splitOn l.tail
  rw [List.splitOn_eq_singleton (fun hin => hslash (List.mem_of_mem_tail hin))] at hnames hlen
  rw [List.length_tail] at hlen
  obtain ⟨v, k₂, hroot, hpage⟩ := ext2ReadRootDirectory_ok hm hends h₁.dev hpages (by omega)
    (fun a ha => h₁.zero a (.inr ha)) hnames (fun h0 => hff.nonzero (List.mem_of_mem_tail h0))
    (by omega) hfuel
  obtain ⟨k₃, hreturn, hbytes⟩ := findReturn_ok (k := k₂) (f := f) 1 inodeBuf 0
    hpages.inode_lt hpages.root_lt (by omega) (by omega)
  refine ⟨k₃, ?_, fun hbuf => hbytes (fun a ha hb => ?_) fun t ht => hpage t (by omega)⟩
  · rw [hrun, if_neg hslash, Exec.bind_ok hroot]
    exact hreturn
  · exact hbuf a hb (h₁.free a (.inr (.inr (ha.mono (by omega)))))

/-- Six pages are needed for that. -/
theorem ext2FindFileInode_inRootExit {ff : UInt32} {l : List UInt8} (inodeBuf : UInt32)
    (hm : Mounted dev rel sectors priv k.dev) (hff : HoldsString k ff l) (hslash : slash ∉ l)
    (hfuel : l.length < fuel) (hfree : freeCount k.kMemoryMap < 6) :
    ∃ k', (ext2FindFileInode Disk.ide dev priv fuel ff inodeBuf).run k =
      .error (.exit 2) k' := by
  rcases Nat.lt_or_ge (freeCount k.kMemoryMap) 3 with hfew | hthree
  · exact ext2FindFileInode_noPages Disk.ide ff inodeBuf hfew
  · obtain ⟨i, r, f, k₁, h₁, hrun⟩ :=
      findSetup_ok Disk.ide dev priv inodeBuf hff hfuel hthree
    have hcount := h₁.count
    obtain ⟨k₂, hexit⟩ : ∃ k₂, (ext2ReadRootDirectory Disk.ide dev priv fuel
        (blockAddr f + UInt32.ofNat 1) (blockAddr i)).run k₁ = .error (.exit 2) k₂ := by
      rw [ext2ReadRootDirectory]
      refine kmalloc_bind_exit fun j k₂ h₂ => ?_
      have hcount₂ := h₂.count
      obtain ⟨k₃, hexit⟩ := ext2ReadInode_exit (k := k₂) 2 (blockAddr j) hm (by omega)
      exact ⟨k₃, Exec.bind_error hexit⟩
    rw [hrun, if_neg hslash]
    exact ⟨k₂, Exec.bind_error hexit⟩

/-! ## The check -/

/-- After the search, what the page of the inode says of the file's type stands at the
beginning of the block the search stopped at. -/
theorem findSysCfg_ok {n : Nat} {sysCfg : UInt32} (hm : Mounted dev rel sectors priv disk)
    (hends : RootEnds disk.content) (hk : k.dev = disk) (hcfg : HoldsSysCfg k sysCfg)
    (hn : n < kMemoryMapEntries) (hbusy : k.kMemoryMap[n] ≠ 0)
    (hfree : 6 ≤ freeCount k.kMemoryMap) (hfuel : 0x1000 ≤ fuel) :
    ∃ k', (ext2FindFileInode Disk.ide dev priv fuel sysCfg (blockAddr n)).run k = .ok 0 k' ∧
      k'.mem.load16 (blockAddr n) = (entryAt disk.content
        (1024 * (stopBlock disk.content sysCfgName.tail).toNat)).inode.toUInt16 := by
  subst hk
  obtain ⟨k₁, hrun, hbytes⟩ := ext2FindFileInode_inRoot (blockAddr n) hm hends hcfg.holdsString
    slash_not_mem_sysCfgName hfuel hfree
  refine ⟨k₁, hrun, ?_⟩
  have hload := (hbytes fun a ha =>
    not_freeAt_busy hn hbusy (ha.mono (by omega))).load16 (i := 0) (by omega)
  rw [show UInt32.ofNat 0 = 0 from rfl, UInt32.add_zero, le16_eq_le32] at hload
  exact hload

/-- The kernel when it calls `ext2_init`, and what is on its drive. -/
structure Boots (dev : DeviceInfo) (rel sectors : Nat) (priv : Ext2PrivData) (k : Kernel Disk)
    (sysCfg : UInt32) : Prop where
  mounted : Mounted dev rel sectors priv k.dev
  signature : le16 k.dev.content (1024 + 56) = 0xEF53
  root : RootEnds k.dev.content
  sysCfg : HoldsSysCfg k sysCfg

/-- `ext2_init` returns if the root directory has a regular file `sys.cfg`, and
otherwise stops the kernel with the code 3. -/
structure ChecksSysCfg (dev : DeviceInfo) (fuel : Nat) (k : Kernel Disk) (sysCfg : UInt32) :
    Prop where
  present : HasFile k.dev.content sysCfgName →
    ∃ k', (ext2Init Disk.ide dev fuel sysCfg).run k = .ok () k'
  missing : ¬ HasFile k.dev.content sysCfgName →
    ∃ k', (ext2Init Disk.ide dev fuel sysCfg).run k = .error (.exit 3) k'

/-- The drive delivers the superblock. -/
theorem Boots.delivers {sysCfg : UInt32} (h : Boots dev rel sectors priv k sysCfg)
    {t : Int32} (h0 : 0 ≤ t.toInt) (ht : t.toInt < 6) :
    Delivers Disk.ide k.dev k.dev (placeOf rel t).realSector (512 * rel) k.dev.content := by
  have hroom := h.mounted.room
  have hmany := h.mounted.image.descriptors
  rw [← h.mounted.serves.sectorSize]
  exact Disk.delivers (place_answers h.mounted.serves h0 (by omega) (by omega))

/-- The run gets to the page for the inode of `sys.cfg`. -/
theorem ext2Init_found {sysCfg : UInt32} (h : Boots dev rel sectors priv k sysCfg) (fuel : Nat)
    (hfree : 2 ≤ freeCount k.kMemoryMap) :
    ∃ s p k', s < kMemoryMapEntries ∧ p < kMemoryMapEntries ∧
      freeCount k'.kMemoryMap + 2 = freeCount k.kMemoryMap ∧ k'.dev = k.dev ∧
      HoldsSysCfg k' sysCfg ∧
      (ext2Init Disk.ide dev fuel sysCfg).run k = (do
        let syscfgInode ← kmalloc 1
        ext2InitSearch Disk.ide dev fuel sysCfg (blockAddr s) (blockAddr p) priv syscfgInode :
          Kern Disk Unit).run k' := by
  obtain ⟨s, p, k₁, hs, hp, hmap₁, hdev₁, hsb, hfree₁, hoff₁, hrun⟩ := ext2Init_checked
    fuel sysCfg h.mounted.serves.geometry hfree (h.delivers (t := 2) (by decide) (by decide))
    (h.delivers (t := 3) (by decide) (by decide)) h.mounted.priv
  obtain ⟨k₂, hmem₂, hmap₂, hdev₂, hvalid⟩ := ext2InitChecked_valid Disk.ide dev
    fuel sysCfg (blockAddr p) priv hsb h.signature
  have hcount : freeCount k₁.kMemoryMap + 2 = freeCount k.kMemoryMap := by
    rw [hmap₁]
    exact freeCount_taken_taken hfree
  refine ⟨s, p, k₂, hs, hp, by rw [hmap₂]; exact hcount, hdev₂.trans hdev₁, ?_,
    hrun.trans hvalid⟩
  exact (h.sysCfg.congr hfree₁ hoff₁).congr (fun a ha => hmap₂ ▸ ha) fun a _ =>
    congrFun hmem₂ a

/-- With pages enough, the entry at the beginning of the block decides. -/
theorem ext2Init_passes {sysCfg : UInt32} (h : Boots dev rel sectors priv k sysCfg)
    (hfuel : 0x1000 ≤ fuel) (hfree : 9 ≤ freeCount k.kMemoryMap) :
    ∃ k', (ext2Init Disk.ide dev fuel sysCfg).run k =
      if PassesFor k.dev.content sysCfgName.tail then .ok () k' else .error (.exit 3) k' := by
  obtain ⟨s, p, k₁, hs, hp, hcount₁, hdev₁, hcfg₁, hrun⟩ := ext2Init_found h fuel (by omega)
  obtain ⟨n, k₂, h₂⟩ := kmalloc_takes (k := k₁) (by omega)
  have hcount₂ := h₂.count
  obtain ⟨k₃, hfind, htype⟩ := findSysCfg_ok h.mounted h.root (h₂.dev.trans hdev₁)
    (hcfg₁.congr h₂.freeAt h₂.sameOff) h₂.lt h₂.busy (by omega) hfuel
  have hpass : k₃.mem.load16 (blockAddr n) &&& 0xF000 = 0x8000 ↔
      PassesFor k.dev.content sysCfgName.tail := by
    rw [htype]
    rfl
  rw [hrun, Exec.bind_ok h₂.run, ext2InitSearch, Exec.bind_ok hfind, Exec.bind_ok (read16_run _ _)]
  by_cases hpasses : PassesFor k.dev.content sysCfgName.tail
  · simp only [if_pos hpasses, if_neg (not_not_intro (hpass.mpr hpasses))]
    exact ⟨_, (Exec.bind_ok (kfree_block h₂.lt)).trans
      ((Exec.bind_ok (kfree_block hs)).trans (kfree_block hp))⟩
  · simp only [if_neg hpasses, if_pos (mt hpass.mp hpasses)]
    obtain ⟨k₄, hexit, -⟩ := kernelExit_run (α := Unit) 3 (((k₃.print
      (.str "\\ missing file: ")).print (.str "sys.cfg")).print (.str "\n"))
    refine ⟨k₄, ?_⟩
    rw [Exec.bind_ok (kprint_run _ _), Exec.bind_ok (kprint_run _ _),
      Exec.bind_ok (kprint_run _ _)]
    exact Exec.bind_error hexit

/-! ## Without pages -/

/-- Mounting takes nine pages. -/
theorem ext2Init_exit {sysCfg : UInt32} (h : Boots dev rel sectors priv k sysCfg)
    (hfuel : 8 ≤ fuel) (hfree : freeCount k.kMemoryMap < 9) :
    ∃ k', (ext2Init Disk.ide dev fuel sysCfg).run k = .error (.exit 2) k' := by
  rcases Nat.lt_or_ge (freeCount k.kMemoryMap) 2 with hfew | htwo
  · rw [ext2Init, Exec.bind_ok (kprint_run _ _), Exec.bind_ok (kprint_run _ _)]
    refine kmalloc_bind_exit fun s k₁ h₁ => ?_
    have hcount₁ : freeCount k₁.kMemoryMap + 1 = freeCount k.kMemoryMap := h₁.count
    obtain ⟨k₂, hexit⟩ := kmalloc_stops (k := k₁) (by omega)
    exact ⟨k₂, Exec.bind_error (Exec.bind_error (Exec.bind_error hexit))⟩
  · obtain ⟨s, p, k₁, -, -, hcount₁, hdev₁, hcfg₁, hrun⟩ := ext2Init_found h fuel htwo
    rw [hrun]
    refine kmalloc_bind_exit fun n k₂ h₂ => ?_
    have hcount₂ := h₂.count
    have hdev₂ : k₂.dev = k.dev := h₂.dev.trans hdev₁
    obtain ⟨k₃, hexit⟩ := ext2FindFileInode_inRootExit (blockAddr n)
      (hdev₂ ▸ h.mounted) (hcfg₁.congr h₂.freeAt h₂.sameOff).holdsString
      slash_not_mem_sysCfgName (show 7 < fuel by omega) (by omega)
    exact ⟨k₃, Exec.bind_error hexit⟩

/-- The check of a mounted volume is right when the wrong inode happens to agree. -/
theorem ext2Init_sysCfg_iff {sysCfg : UInt32} (h : Boots dev rel sectors priv k sysCfg)
    (hfuel : 0x1000 ≤ fuel) :
    ChecksSysCfg dev fuel k sysCfg ↔ 9 ≤ freeCount k.kMemoryMap ∧
      (HasFile k.dev.content sysCfgName ↔ PassesFor k.dev.content sysCfgName.tail) := by
  rcases Nat.lt_or_ge (freeCount k.kMemoryMap) 9 with hfew | hnine
  · obtain ⟨k', hexit⟩ := ext2Init_exit h (show 8 ≤ fuel by omega) hfew
    refine iff_of_false (fun hcheck => ?_) fun hboth => Nat.not_lt.mpr hboth.1 hfew
    by_cases hfile : HasFile k.dev.content sysCfgName
    · obtain ⟨k'', hok⟩ := hcheck.present hfile
      rw [hexit] at hok
      cases hok
    · obtain ⟨k'', hthree⟩ := hcheck.missing hfile
      rw [hexit] at hthree
      injection hthree with hcode
      exact absurd hcode (by decide)
  · obtain ⟨k', hrun⟩ := ext2Init_passes h hfuel hnine
    constructor
    · refine fun hcheck => ⟨hnine, fun hfile => ?_, fun hpasses => ?_⟩
      · by_contra hpasses
        obtain ⟨k'', hok⟩ := hcheck.present hfile
        rw [hrun, if_neg hpasses] at hok
        cases hok
      · by_contra hfile
        obtain ⟨k'', hthree⟩ := hcheck.missing hfile
        rw [hrun, if_pos hpasses] at hthree
        cases hthree
    · rintro ⟨-, hagree⟩
      refine ⟨fun hfile => ⟨k', ?_⟩, fun hfile => ⟨k', ?_⟩⟩
      · rw [hrun, if_pos (hagree.mp hfile)]
      · rw [hrun, if_neg fun hpasses => hfile (hagree.mpr hpasses)]

end

/-! ## Two volumes -/

/-- A volume of 16 blocks with the signature. Its root directory has two of them: one
with `.`, and one with a regular file of this name, inode 11. -/
def bootVolume (name : List UInt8) : Image := .ofBytes <|
  [(1024, 16), (1028, 16), (1044, 1), (1056, 16), (1064, 16), (1080, 0x53), (1081, 0xEF),
   (2056, 3), (3201, 0x40), (3205, 8), (3240, 5), (3244, 6), (4353, 0x80),
   (5120, 2), (5125, 4), (5126, 1), (5128, 46),
   (6144, 11), (6149, 4), (6150, UInt8.ofNat name.length)] ++
  name.zipIdx.map fun b => (6152 + b.2, b.1)

theorem bootVolume_reachable {name : List UInt8} (hname : name = [97] ∨ name = sysCfgName)
    {n : UInt32} (h : Reachable (bootVolume name) n) : n = 2 ∨ n = 11 := by
  have hentries : directory (bootVolume name) 2 = [⟨2, 1024, [46]⟩, ⟨11, 1024, name⟩] ∧
      ¬ IsDirectory (bootVolume name) 11 := by
    rcases hname with rfl | rfl <;> decide
  induction h with
  | root => exact .inl rfl
  | entry hd hdir he hne ih =>
      rcases ih with rfl | rfl
      · rw [hentries.1] at he
        simp only [List.mem_cons, List.not_mem_nil, or_false] at he
        rcases he with rfl | rfl
        · exact .inl rfl
        · exact .inr rfl
      · exact absurd hdir hentries.2

theorem bootVolume_wellFormed {name : List UInt8} (hname : name = [97] ∨ name = sysCfgName) :
    WellFormed (bootVolume name) where
  blocksize := by rcases hname with rfl | rfl <;> decide
  superblockId := by rcases hname with rfl | rfl <;> decide
  blocksInBlockgroup := by rcases hname with rfl | rfl <;> decide
  inodesInBlockgroup := by rcases hname with rfl | rfl <;> decide
  groups := by rcases hname with rfl | rfl <;> decide
  descriptors := by rcases hname with rfl | rfl <;> decide
  root := by rcases hname with rfl | rfl <;> decide
  inode n hn := by
    rcases bootVolume_reachable hname hn with rfl | rfl <;>
      rcases hname with rfl | rfl <;> decide
  directory d hd hdir := by
    rcases bootVolume_reachable hname hd with rfl | rfl
    · rcases hname with rfl | rfl <;> decide
    · refine absurd hdir ?_
      rcases hname with rfl | rfl <;> decide

/-- A kernel that finds this volume on its drive. -/
theorem bootVolume_boots [Layout] {name : List UInt8} {sectors : Nat} {k : Kernel Disk}
    (hname : name = [97] ∨ name = sysCfgName) (hserves : Serves ⟨0, 0, 0, 512⟩ 1 sectors k.dev)
    (hcontent : k.dev.content = bootVolume name) (hroom : 32 ≤ sectors)
    (hcfg : HoldsSysCfg k 0x1000) :
    Boots ⟨0, 0, 0, 512⟩ 1 sectors ⟨superblock (bootVolume name), 2, 1, 1024, 2, 8⟩ k 0x1000 := by
  have hblocks : (superblock (bootVolume name)).blocks.toNat = 16 := by
    rcases hname with rfl | rfl <;> decide
  refine ⟨⟨hserves, ?_, ?_, ?_⟩, ?_, ?_, hcfg⟩ <;> rw [hcontent]
  · exact bootVolume_wellFormed hname
  · omega
  · rcases hname with rfl | rfl <;> decide
  · rcases hname with rfl | rfl <;> decide
  · rcases hname with rfl | rfl <;> decide

theorem mountState_boots [Layout] {name : List UInt8} (hname : name = [97] ∨ name = sysCfgName) :
    ∃ priv, Boots ⟨0, 0, 0, 512⟩ 1 32 priv (mountState (bootVolume name)) 0x1000 :=
  ⟨_, bootVolume_boots hname ⟨⟨⟨.inl rfl, rfl⟩, rfl⟩, Disk.blank_answer 1 32⟩ rfl
    (Nat.le_refl 32) (mountState_holdsSysCfg _)⟩

/-- Without the file, the kernel stops as it should. -/
theorem ext2Init_sysCfg_iff_without : ∃ (_ : Layout) (priv : Ext2PrivData),
    Boots ⟨0, 0, 0, 512⟩ 1 32 priv (mountState (bootVolume [97])) 0x1000 ∧
      ChecksSysCfg ⟨0, 0, 0, 512⟩ 0x1000 (mountState (bootVolume [97])) 0x1000 := by
  let _ := bootLayout
  obtain ⟨priv, h⟩ := mountState_boots (.inl rfl)
  refine ⟨bootLayout, priv, h, (ext2Init_sysCfg_iff h (by decide)).mpr ⟨?_, ?_⟩⟩
  · exact show 9 ≤ freeCount (Kernel.zero ()).kMemoryMap by simp
  · exact show HasFile (bootVolume [97]) sysCfgName ↔ PassesFor (bootVolume [97])
      sysCfgName.tail by decide

/-- With the file, the kernel stops as well: the second block of the root directory is
the last, and it begins with the inode number 11. -/
theorem ext2Init_sysCfg_present : ∃ (_ : Layout) (priv : Ext2PrivData),
    Boots ⟨0, 0, 0, 512⟩ 1 32 priv (mountState (bootVolume sysCfgName)) 0x1000 ∧
      HasFile (bootVolume sysCfgName) sysCfgName ∧
      ¬ ChecksSysCfg ⟨0, 0, 0, 512⟩ 0x1000 (mountState (bootVolume sysCfgName)) 0x1000 := by
  let _ := bootLayout
  obtain ⟨priv, h⟩ := mountState_boots (.inr rfl)
  have hfile : HasFile (bootVolume sysCfgName) sysCfgName := by decide
  have hpasses : ¬ PassesFor (bootVolume sysCfgName) sysCfgName.tail := by decide
  refine ⟨bootLayout, priv, h, hfile, fun hcheck => ?_⟩
  obtain ⟨k₁, hok⟩ := hcheck.present hfile
  obtain ⟨k₂, hrun⟩ := ext2Init_passes h (show 0x1000 ≤ 0x1000 by decide)
    (show 9 ≤ freeCount (Kernel.zero ()).kMemoryMap by simp)
  rw [hok] at hrun
  rw [if_neg (show ¬ PassesFor (mountState (bootVolume sysCfgName)).dev.content _ from hpasses)]
    at hrun
  cases hrun

end Bedrock
