import Bedrock.Proofs.PathLookup

/-!
# Mounting a volume

The steps of `ext2_init` up to the search for `sys.cfg`, over any device that
delivers the two sectors of the superblock: what the superblock says decides
whether the run gets past `fill_priv_data` and past the signature. And the
beginning of the search itself: `"sys.cfg"` has no slash, so its first character
is skipped and `ext2_read_root_directory` is asked for `"ys.cfg"`, with the page
of the inode as its buffer.
-/

namespace Bedrock

open Lib Image

section

variable {δ : Type} [Layout] {ide : Ide δ} {device : DeviceInfo} {rel : Nat}

/-! ## The superblock -/

/-- The two sectors of the superblock are delivered. -/
theorem readSuperblock_ok {k : Kernel δ} {d₁ d₂ : δ} {c : Image} {p : UInt32}
    (hg : Geometry device rel) (hfree : 0 < freeCount k.kMemoryMap)
    (h₁ : Delivers ide k.dev d₁ (placeOf rel 2).realSector (512 * rel) c)
    (h₂ : Delivers ide d₁ d₂ (placeOf rel 3).realSector (512 * rel) c)
    (hp : Clear k.kMemoryMap p 1024) :
    ∃ m, (readSectors ide device 2 2 p).run k = .ok 0 { k with mem := m, dev := d₂ } ∧
      Mirrors m p 1024 c 1024 ∧
      SameOff (fun a => Span (scratch k.kMemoryMap) 0x1000 a ∨ Span p 1024 a) k.mem m := by
  have hlow : ∀ a, Span p 512 a → ¬ Span (scratch k.kMemoryMap) 0x1000 a := fun a ha =>
    hp a (ha.mono (by omega))
  have hhigh : ∀ a, Span (p + UInt32.ofNat 512) 512 a →
      ¬ Span (scratch k.kMemoryMap) 0x1000 a := fun a ha => hp a (ha.sub (by omega) (by omega))
  obtain ⟨m₁, hrun₁, hbytes₁, hoff₁⟩ := readSector_delivers 2 hg hfree (by decide) (by decide)
    h₁ hlow
  obtain ⟨m₂, hrun₂, hbytes₂, hoff₂⟩ := readSector_delivers (k := { k with mem := m₁, dev := d₁ })
    3 hg hfree (by decide) (by decide) h₂ hhigh
  have hapart : ∀ a, Span p 512 a → ¬ Span (p + UInt32.ofNat 512) 512 a := by
    intro a ha
    rw [← UInt32.add_zero p] at ha
    exact ha.disjoint_parts (i := 0) (by omega) (by omega)
  refine ⟨m₂, ?_, fun i hi => ?_, fun a ha => ?_⟩
  · rw [readSectors, show (2 : Int32).toInt.toNat = 1 + 1 from rfl, sectorsLoop, round_offset,
      show (2 : Int32) + Int32.ofNat 0 = 2 from rfl, Nat.mul_zero,
      show UInt32.ofNat 0 = 0 from rfl, UInt32.add_zero, Exec.bind_ok hrun₁]
    simp only [ne_eq, not_true_eq_false, if_false]
    rw [sectorsLoop, round_offset, show (2 : Int32) + Int32.ofNat (0 + 1) = 3 from rfl,
      Exec.bind_ok hrun₂]
    rfl
  · by_cases hfirst : i < 512
    · have hin := span_add (p := p) hfirst (by omega)
      refine (hoff₂ _ ?_).trans (hbytes₁ i hfirst)
      rintro (h | h)
      · exact hlow _ hin h
      · exact hapart _ hin h
    · have hbyte := hbytes₂ (i - 512) (by omega)
      rw [UInt32.add_assoc, ← UInt32.ofNat_add, show 512 + (i - 512) = i by omega] at hbyte
      rw [hbyte]
      exact congrArg c (show 512 * 3 + (i - 512) = 1024 + i by omega)
  · rw [not_or] at ha
    refine (hoff₂ a ?_).trans (hoff₁ a ?_)
    · rintro (h | h)
      · exact ha.1 h
      · exact ha.2 (h.sub (by omega) (by omega))
    · rintro (h | h)
      · exact ha.1 h
      · exact ha.2 (h.mono (by omega))

omit [Layout] in
theorem loadSuperblock_eq {m : Mem} {sb : UInt32} {c : Image} (h : Mirrors m sb 1024 c 1024) :
    loadSuperblock m sb = superblock c := by
  rw [loadSuperblock, superblock, ← h.load32 (i := 4) (by omega), ← h.load32 (i := 20) (by omega),
    ← h.load32 (i := 24) (by omega), ← h.load32 (i := 32) (by omega),
    ← h.load32 (i := 40) (by omega)]
  rfl

omit [Layout] in
theorem storePrivData_error {k : Kernel δ} {sb priv : UInt32} {c : Image} {e : Halt}
    (hsb : Mirrors k.mem sb 1024 c 1024) (he : fillPrivData (superblock c) = .error e) :
    (storePrivData sb priv).run k = .error e k := by
  rw [storePrivData, Exec.bind_ok (EStateM.run_get k), loadSuperblock_eq hsb, he]
  rfl

omit [Layout] in
/-- Filling in `struct ext2_priv_data` writes its page only. -/
theorem storePrivData_ok {k : Kernel δ} {sb : UInt32} {c : Image} {data : Ext2PrivData}
    (priv : UInt32) (hsb : Mirrors k.mem sb 1024 c 1024)
    (hdata : fillPrivData (superblock c) = .ok data) :
    ∃ m, (storePrivData sb priv).run k = .ok data { k with mem := m } ∧
      SameOff (Span priv 0x1000) k.mem m := by
  have hstore : ∀ (m : Mem) (off : Nat) (v : UInt32), off + 4 ≤ 0x1000 →
      SameOff (Span priv 0x1000) m (m.store32 (priv + UInt32.ofNat off) v) := fun m off v hoff =>
    sameOff_store32.mono fun a ha => ha.sub hoff (by omega)
  obtain ⟨m, hm⟩ : ∃ m, m = ((((k.mem.store32 (priv + 1032) data.blocksize).store32
      (priv + 1040) data.inodesPerBlock).store32 (priv + 1036) data.sectorsPerBlock).store32
      (priv + 1024) data.firstBgd).store32 (priv + 1028) data.numberOfBgs := ⟨_, rfl⟩
  refine ⟨memoryCopyLoop sb priv 1024 m, ?_, ?_⟩
  · rw [storePrivData, Exec.bind_ok (EStateM.run_get k), loadSuperblock_eq hsb, hdata,
      Exec.bind_ok (Kern.ofExcept_run rfl), hm]
    rfl
  · refine SameOff.trans ?_ ((memoryCopyLoop_sameOff (by omega)).mono fun a ha =>
      ha.mono (by omega))
    rw [hm]
    exact ((((hstore _ 1032 _ (by omega)).trans (hstore _ 1040 _ (by omega))).trans
      (hstore _ 1036 _ (by omega))).trans (hstore _ 1024 _ (by omega))).trans
      (hstore _ 1028 _ (by omega))

variable (ide device)

/-- `ext2_init` from the search for `sys.cfg` on. -/
def ext2InitSearch (fuel : Nat) (sysCfg sb privPage : UInt32) (priv : Ext2PrivData)
    (syscfgInode : UInt32) : Kern δ Unit := do
  let _ ← ext2FindFileInode ide device priv fuel sysCfg syscfgInode
  if (← read16 syscfgInode) &&& 0xF000 ≠ 0x8000 then
    kprint "\\ missing file: "
    kprint "sys.cfg"
    kprint "\n"
    kernelExit 3
  kfree syscfgInode 1
  kfree sb 1
  kfree privPage 1

/-- `ext2_init` from the check of the signature on. -/
def ext2InitChecked (fuel : Nat) (sysCfg sb privPage : UInt32) (priv : Ext2PrivData) :
    Kern δ Unit := do
  if (← read16 (sb + 56)) ≠ 0xEF53 then
    kprint "\\ error: invalid ext2 signature\n"
    return
  kprint "\\ valid ext2 signature\n"
  kprint "\\ major version: "
  kprintInt (← read32 (sb + 76))
  kprint "\n"
  let syscfgInode ← kmalloc 1
  ext2InitSearch ide device fuel sysCfg sb privPage priv syscfgInode

variable {ide device}

/-- The superblock is read to its page, and a page is taken for what mounting
computes. -/
theorem ext2Init_load {k : Kernel δ} {d₁ d₂ : δ} {c : Image} (fuel : Nat) (sysCfg : UInt32)
    (hg : Geometry device rel) (hfree : 2 ≤ freeCount k.kMemoryMap)
    (h₁ : Delivers ide k.dev d₁ (placeOf rel 2).realSector (512 * rel) c)
    (h₂ : Delivers ide d₁ d₂ (placeOf rel 3).realSector (512 * rel) c) :
    ∃ s p k', s < kMemoryMapEntries ∧ p < kMemoryMapEntries ∧ s ≠ p ∧
      k'.kMemoryMap = taken (taken k.kMemoryMap) ∧ k'.dev = d₂ ∧
      Mirrors k'.mem (blockAddr s) 1024 c 1024 ∧
      (∀ a, Span (blockAddr s) 0x1000 a ∨ Span (blockAddr p) 0x1000 a → FreeAt k.kMemoryMap a ∧
        ¬ FreeAt k'.kMemoryMap a) ∧
      SameOff (FreeAt k.kMemoryMap) k.mem k'.mem ∧
      (ext2Init ide device fuel sysCfg).run k = (do
        let priv ← storePrivData (blockAddr s) (blockAddr p)
        ext2InitChecked ide device fuel sysCfg (blockAddr s) (blockAddr p) priv :
          Kern δ Unit).run k' := by
  obtain ⟨k₀, hk₀⟩ : ∃ k₀, k₀ = (k.print (.str "\\ initializing ext2\n")).print
    (.str "\\ loading superblock\n") := ⟨_, rfl⟩
  have hmap₀ : k₀.kMemoryMap = k.kMemoryMap := by rw [hk₀]; rfl
  have hmem₀ : k₀.mem = k.mem := by rw [hk₀]; rfl
  have hdev₀ : k₀.dev = k.dev := by rw [hk₀]; rfl
  obtain ⟨s, k₁, ht₁⟩ := kmalloc_takes (k := k₀) (by rw [hmap₀]; omega)
  have hcount₁ := ht₁.count
  rw [hmap₀] at hcount₁
  have hfree₁ : 0 < freeCount k₁.kMemoryMap := by omega
  rw [← hdev₀, ← ht₁.dev] at h₁
  obtain ⟨m, hread, hbytes, hoff⟩ := readSuperblock_ok hg hfree₁ h₁ h₂
    fun a (ha : Span (blockAddr s) 1024 a) hs => not_freeAt_busy ht₁.lt ht₁.busy
      (ha.mono (by omega)) (freeAt_scratch hfree₁ hs)
  obtain ⟨p, k₃, ht₃⟩ := kmalloc_takes (k := { k₁ with mem := m, dev := d₂ }) hfree₁
  obtain ⟨hne, hbusy⟩ := ht₃.other ht₁.lt ht₁.busy
  have hfrees : ∀ a, Span (blockAddr s) 0x1000 a → FreeAt k.kMemoryMap a := fun a ha =>
    hmap₀ ▸ ⟨s, ht₁.lt, ht₁.free, ha⟩
  have hpage : ∀ a, FreeAt k₁.kMemoryMap a → FreeAt k.kMemoryMap a := fun a ha =>
    hmap₀ ▸ ht₁.freeAt a ha
  refine ⟨s, p, k₃, ht₁.lt, ht₃.lt, hne, ?_, ht₃.dev, ?_, ?_, ?_, ?_⟩
  · rw [ht₃.map, ht₁.map, hmap₀]
  · refine hbytes.congr (by omega) fun a ha => ?_
    rw [ht₃.mem, Mem.write_off]
    exact fun hp => hne (block_disjoint ht₁.lt ht₃.lt (ha.mono (by omega)) hp)
  · rintro a (ha | ha)
    · exact ⟨hfrees a ha, not_freeAt_busy ht₁.lt hbusy ha⟩
    · exact ⟨hpage a ⟨p, ht₃.lt, ht₃.free, ha⟩, not_freeAt_busy ht₃.lt ht₃.busy ha⟩
  · have hsame₁ : SameOff (FreeAt k.kMemoryMap) k.mem k₁.mem := by
      rw [← hmem₀, ← hmap₀]
      exact ht₁.sameOff
    refine (hsame₁.trans (hoff.mono ?_)).trans (ht₃.sameOff.mono hpage)
    rintro a (ha | ha)
    · exact hpage a (freeAt_scratch hfree₁ ha)
    · exact hfrees a (ha.mono (by omega))
  · rw [ext2Init, Exec.bind_ok (kprint_run _ _), Exec.bind_ok (kprint_run _ _), ← hk₀,
      Exec.bind_ok ht₁.run, Exec.bind_ok hread, Exec.bind_ok ht₃.run]
    rfl

/-- What the superblock says of the volume makes `fill_priv_data` trap. -/
theorem ext2Init_error {k : Kernel δ} {d₁ d₂ : δ} {c : Image} {e : Halt} (fuel : Nat)
    (sysCfg : UInt32) (hg : Geometry device rel) (hfree : 2 ≤ freeCount k.kMemoryMap)
    (h₁ : Delivers ide k.dev d₁ (placeOf rel 2).realSector (512 * rel) c)
    (h₂ : Delivers ide d₁ d₂ (placeOf rel 3).realSector (512 * rel) c)
    (he : fillPrivData (superblock c) = .error e) :
    ∃ k', (ext2Init ide device fuel sysCfg).run k = .error e k' := by
  obtain ⟨s, p, k₁, -, -, -, -, -, hsb, -, -, hrun⟩ := ext2Init_load fuel sysCfg hg hfree h₁ h₂
  exact ⟨k₁, hrun.trans (Exec.bind_error (storePrivData_error hsb he))⟩

/-- The run gets to the signature, with the superblock in its page. -/
theorem ext2Init_checked {k : Kernel δ} {d₁ d₂ : δ} {c : Image} {priv : Ext2PrivData}
    (fuel : Nat) (sysCfg : UInt32) (hg : Geometry device rel)
    (hfree : 2 ≤ freeCount k.kMemoryMap)
    (h₁ : Delivers ide k.dev d₁ (placeOf rel 2).realSector (512 * rel) c)
    (h₂ : Delivers ide d₁ d₂ (placeOf rel 3).realSector (512 * rel) c)
    (hpriv : fillPrivData (superblock c) = .ok priv) :
    ∃ s p k', s < kMemoryMapEntries ∧ p < kMemoryMapEntries ∧
      k'.kMemoryMap = taken (taken k.kMemoryMap) ∧ k'.dev = d₂ ∧
      Mirrors k'.mem (blockAddr s) 1024 c 1024 ∧
      (∀ a, FreeAt k'.kMemoryMap a → FreeAt k.kMemoryMap a) ∧
      SameOff (FreeAt k.kMemoryMap) k.mem k'.mem ∧
      (ext2Init ide device fuel sysCfg).run k =
        (ext2InitChecked ide device fuel sysCfg (blockAddr s) (blockAddr p) priv).run k' := by
  obtain ⟨s, p, k₁, hs, hp, hne, hmap, hdev, hsb, hbusy, hoff, hrun⟩ :=
    ext2Init_load fuel sysCfg hg hfree h₁ h₂
  obtain ⟨m, hstore, hoff'⟩ := storePrivData_ok (blockAddr p) hsb hpriv
  have hcount : freeCount (taken k.kMemoryMap) + 1 = freeCount k.kMemoryMap :=
    freeCount_taken (by omega)
  refine ⟨s, p, { k₁ with mem := m }, hs, hp, hmap, hdev, ?_, fun a ha => ?_,
    hoff.trans (hoff'.mono fun a ha => (hbusy a (.inr ha)).1), hrun.trans (Exec.bind_ok hstore)⟩
  · exact hsb.congr (by omega) fun a ha => hoff' a fun hin =>
      hne (block_disjoint hs hp (ha.mono (by omega)) hin)
  · rw [hmap] at ha
    exact ((freeAt_taken (by omega)).mp ((freeAt_taken (by omega)).mp ha).1).1

/-- A volume without the signature is reported, and the run returns. -/
theorem ext2InitChecked_invalid {k : Kernel δ} {c : Image} {sb : UInt32} (fuel : Nat)
    (sysCfg privPage : UInt32) (priv : Ext2PrivData) (hsb : Mirrors k.mem sb 1024 c 1024)
    (hsig : le16 c (1024 + 56) ≠ 0xEF53) :
    (ext2InitChecked ide device fuel sysCfg sb privPage priv).run k =
      .ok () (k.print (.str "\\ error: invalid ext2 signature\n")) := by
  have hload : k.mem.load16 (sb + 56) = le16 c (1024 + 56) := hsb.load16 (i := 56) (by omega)
  rw [ext2InitChecked, Exec.bind_ok (read16_run _ _), hload, if_pos hsig]
  rfl

/-- A volume with the signature is searched for `sys.cfg`. -/
theorem ext2InitChecked_valid (ide : Ide δ) (device : DeviceInfo) {k : Kernel δ} {c : Image}
    {sb : UInt32} (fuel : Nat) (sysCfg privPage : UInt32) (priv : Ext2PrivData)
    (hsb : Mirrors k.mem sb 1024 c 1024) (hsig : le16 c (1024 + 56) = 0xEF53) :
    ∃ k', k'.mem = k.mem ∧ k'.kMemoryMap = k.kMemoryMap ∧ k'.dev = k.dev ∧
      (ext2InitChecked ide device fuel sysCfg sb privPage priv).run k = (do
        let syscfgInode ← kmalloc 1
        ext2InitSearch ide device fuel sysCfg sb privPage priv syscfgInode :
          Kern δ Unit).run k' := by
  have hload : k.mem.load16 (sb + 56) = le16 c (1024 + 56) := hsb.load16 (i := 56) (by omega)
  refine ⟨(((k.print (.str "\\ valid ext2 signature\n")).print
    (.str "\\ major version: ")).print (.int (k.mem.load32 (sb + 76)))).print (.str "\n"),
    rfl, rfl, rfl, ?_⟩
  rw [ext2InitChecked, Exec.bind_ok (read16_run _ _), hload, if_neg (fun h => h hsig),
    Exec.bind_ok (kprint_run _ _), Exec.bind_ok (kprint_run _ _), Exec.bind_ok (read32_run _ _),
    Exec.bind_ok (kprintInt_run _ _), Exec.bind_ok (kprint_run _ _)]
  rfl

/-! ## The search for `sys.cfg` -/

/-- The characters of `"sys.cfg"`. -/
def sysCfgName : List UInt8 := [0x73, 0x79, 0x73, 0x2e, 0x63, 0x66, 0x67]

/-- The literal lies in memory, and not in a free page. -/
structure HoldsSysCfg (k : Kernel δ) (sysCfg : UInt32) : Prop where
  string : BytesAt k.mem sysCfg (sysCfgName ++ [0])
  apart : ∀ a, Span sysCfg 8 a → ¬ FreeAt k.kMemoryMap a

theorem HoldsSysCfg.congr {k k' : Kernel δ} {sysCfg : UInt32} (h : HoldsSysCfg k sysCfg)
    (hmap : ∀ a, FreeAt k'.kMemoryMap a → FreeAt k.kMemoryMap a)
    (hoff : SameOff (FreeAt k.kMemoryMap) k.mem k'.mem) : HoldsSysCfg k' sysCfg :=
  ⟨h.string.congr (by decide) fun a ha => hoff a (h.apart a ha),
    fun a ha hf => h.apart a ha (hmap a hf)⟩

theorem HoldsSysCfg.holdsString {k : Kernel δ} {sysCfg : UInt32} (h : HoldsSysCfg k sysCfg) :
    HoldsString k sysCfg sysCfgName :=
  ⟨h.string, h.apart, by decide, by decide⟩

omit [Layout] in
/-- The name has no slash: it is looked up in the root's own blocks. -/
theorem slash_not_mem_sysCfgName : slash ∉ sysCfgName := by decide

/-- Where reading the root's inode stops the run, so does the search. -/
theorem findSysCfg_error (ide : Ide δ) (device : DeviceInfo) {k : Kernel δ} {sysCfg : UInt32}
    {fuel : Nat} {e : Halt} (priv : Ext2PrivData) (inodeBuf : UInt32)
    (h : HoldsSysCfg k sysCfg) (hfuel : 8 ≤ fuel) (hfree : 4 ≤ freeCount k.kMemoryMap)
    (hread : ∀ (inode : UInt32) (k' : Kernel δ), k'.dev = k.dev →
      freeCount k'.kMemoryMap + 4 = freeCount k.kMemoryMap →
      ∃ k'', (ext2ReadInode ide device priv 2 inode).run k' = .error e k'') :
    ∃ k', (ext2FindFileInode ide device priv fuel sysCfg inodeBuf).run k = .error e k' := by
  obtain ⟨i, r, f, k₁, h₁, hrun⟩ :=
    findSetup_ok ide device priv inodeBuf h.holdsString (show 7 < fuel by omega) (by omega)
  have hcount₁ := h₁.count
  obtain ⟨j, k₂, h₂⟩ := kmalloc_takes (k := k₁) (by omega)
  have hcount₂ := h₂.count
  obtain ⟨k₃, hstop⟩ := hread (blockAddr j) k₂ (h₂.dev.trans h₁.dev) (by omega)
  rw [hrun, if_neg slash_not_mem_sysCfgName]
  refine ⟨k₃, Exec.bind_error ?_⟩
  rw [ext2ReadRootDirectory, Exec.bind_ok h₂.run]
  exact Exec.bind_error hstop

end

/-- A kernel that was just loaded, with a disk of 16 KiB and the literal at
`0x1000`. -/
def mountState (c : Image) : Kernel Disk :=
  { Kernel.zero { Disk.blank 1 32 with content := c } with
    mem := Mem.write (fun _ => 0) 0x1000 8 fun i => (sysCfgName ++ [0]).getD i 0 }

theorem mountState_holdsSysCfg [Layout] (c : Image) : HoldsSysCfg (mountState c) 0x1000 := by
  constructor
  · exact bytesAt_write_getD (by decide) (by decide)
  · intro a ha
    rw [span_iff (by decide), show (0x1000 : UInt32).toNat = 0x1000 from rfl] at ha
    exact not_freeAt_low (by omega)

end Bedrock
