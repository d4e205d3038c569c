import Bedrock.Proofs.Ext2Blocks

/-!
# What the scan of a directory block reads

`ext2_read_directory` steps from entry to entry by the 16-bit length in the entry, and
stops at an inode 0 or at the name. Nothing else stops it: it does not know where the
block ends, and a length of 0 keeps it where it is.

The scan is written here a second time, with a log of what it reads through `dir`; but for
the log it is the same program (`ext2ReadDirectoryLoop_eq`). A round is described once, for
the two of them (`ext2ReadDirectoryReads_round`).
-/

namespace Bedrock

open Lib Image

variable {δ : Type}

/-! ## The scan with a log -/

/-- The ranges of addresses that were read, the first one first. -/
abbrev ReadLog := List (UInt32 × Nat)

def ext2EntryNameReads [Layout] (dir : UInt32) : Kern δ (UInt32 × ReadLog) := do
  let name ← kmalloc 1
  let namelength := (← get).mem (dir + 6)
  memoryCopy (dir + 8) name namelength.toUInt32.toInt32
  modify fun k => { k with
    mem := k.mem.write (name + (k.mem (dir + 6)).toUInt32) 1 fun _ => 0 }
  return (name, [(dir + 6, 1), (dir + 8, namelength.toNat), (dir + 6, 1)])

def ext2ReadDirectoryReads [Layout] (fuel : Nat) (filename : UInt32) :
    (rounds : Nat) → (dir : UInt32) → Kern δ (UInt32 × ReadLog)
  | 0, _ => throw .fuel
  | rounds + 1, dir => do
      if (← read32 dir) = 0 then
        return (0, [(dir, 4)])
      let (name, reads) ← ext2EntryNameReads dir
      if (← ext2NameMatches fuel filename name) then
        kprint "Found inode "
        kprintMsg (.mem filename)
        kprint ": "
        kprintInt (← read32 dir)
        kprint "\n"
        kfree name 1
        return (← read32 dir, (dir, 4) :: reads ++ [(dir, 4), (dir, 4)])
      if filename = 0 then
        kprintMsg (.mem name)
        kprint "\n"
      let size ← read16 (dir + 4)
      kfree name 1
      let (inode, rest) ← ext2ReadDirectoryReads fuel filename rounds (dir + size.toUInt32)
      return (inode, (dir, 4) :: reads ++ (dir + 4, 2) :: rest)

section

variable [Layout]

theorem ext2EntryName_eq (dir : UInt32) :
    (ext2EntryName dir : Kern δ UInt32) = Prod.fst <$> ext2EntryNameReads dir := by
  simp only [ext2EntryName, ext2EntryNameReads, map_bind, map_pure]

/-- Without the log it is the loop of `ext2_read_directory`. -/
theorem ext2ReadDirectoryLoop_eq (fuel : Nat) (filename : UInt32) (rounds : Nat) (dir : UInt32) :
    (ext2ReadDirectoryLoop fuel filename rounds dir : Kern δ UInt32) =
      Prod.fst <$> ext2ReadDirectoryReads fuel filename rounds dir := by
  induction rounds generalizing dir with
  | zero => rfl
  | succ rounds ih =>
      rw [ext2ReadDirectoryLoop, ext2ReadDirectoryReads, map_bind]
      refine bind_congr fun inode => ?_
      by_cases hunused : inode = 0
      · simp only [if_pos hunused, map_pure]
      · simp only [if_neg hunused, ext2EntryName_eq, bind_map_left, map_bind]
        refine bind_congr fun entry => bind_congr fun found => ?_
        by_cases hfound : found = true
        · simp only [if_pos hfound, map_bind, map_pure, bind_pure]
        · simp only [if_neg hfound]
          by_cases hnull : filename = 0
          · simp only [if_pos hnull, map_bind, ih, bind_pure_comp, Functor.map_map]
          · simp only [if_neg hnull, map_bind, ih, bind_pure_comp, Functor.map_map]

end

/-! ## One round -/

theorem toInt_byte (b : UInt8) : b.toUInt32.toInt32.toInt.toNat = b.toNat := by
  have hb := b.toNat_lt
  rw [toInt_toInt32 (by rw [UInt8.toNat_toUInt32]; omega), UInt8.toNat_toUInt32,
    Int.toNat_natCast]

theorem length_entryName (c : Image) (off : Nat) :
    (entryAt c off).name.length = (c (off + 6)).toNat := by
  rw [entryAt, List.length_map, List.length_range]

theorem load_inode {c : Image} {m : Mem} {size : Nat} {dir : UInt32} {off : Nat}
    (h : Mirrors m dir size c 0) (hoff : off + 4 ≤ size) :
    m.load32 (dir + UInt32.ofNat off) = (entryAt c off).inode := by
  rw [h.load32 hoff, Nat.zero_add]
  rfl

/-- The entry has the name the scan looks for. With a null pointer it looks for none. -/
def Hits (filename : UInt32) (name : List UInt8) (e : DirEntry) : Prop :=
  filename ≠ 0 ∧ cString e.name = name

instance (filename : UInt32) (name : List UInt8) (e : DirEntry) :
    Decidable (Hits filename name e) :=
  inferInstanceAs (Decidable (_ ∧ _))

/-- `filename` and the name of an entry are compared as strings. -/
theorem ext2NameMatches_ok {k : Kernel δ} {fuel : Nat} {filename p : UInt32}
    {name : List UInt8} {e : DirEntry} (h0 : 0 ∉ name)
    (h : filename ≠ 0 → BytesAt k.mem filename (name ++ [0]))
    (h' : BytesAt k.mem p (e.name ++ [0])) (hfuel : name.length < fuel) :
    (ext2NameMatches fuel filename p).run k = .ok (decide (Hits filename name e)) k := by
  rw [ext2NameMatches]
  by_cases hnull : filename = 0
  · rw [if_pos hnull, decide_eq_false fun hits => hits.1 hnull]
    rfl
  · obtain ⟨r, hrun, hzero⟩ := strcmp_run (isStr_of_bytesAt h0 (h hnull)) (isStr_cString h')
      hfuel k
    rw [if_neg hnull, Exec.bind_ok (EStateM.run_get k), Exec.bind_ok hrun, EStateM.run_pure]
    congr 1
    rw [Bool.eq_iff_iff, beq_iff_eq, hzero, decide_eq_true_eq, Hits]
    exact ⟨fun heq => ⟨hnull, heq.symm⟩, fun hits => hits.2.symm⟩

/-- What a scan reads: a block of `size` bytes, and the name unless the pointer is null. None
of it lies in the page the scan works in. -/
structure ScanPage [Layout] (k : Kernel Disk) (c : Image) (size : Nat) (dir filename : UInt32)
    (name : List UInt8) : Prop where
  page : Mirrors k.mem dir size c 0
  pageApart : ∀ a, Span dir size a → ¬ Span (scratch k.kMemoryMap) 0x1000 a
  string : filename ≠ 0 → BytesAt k.mem filename (name ++ [0])
  stringApart : filename ≠ 0 → ∀ a, Span filename (name ++ [0]).length a →
    ¬ Span (scratch k.kMemoryMap) 0x1000 a
  size_le : size ≤ 2 ^ 32
  short : (name ++ [0]).length ≤ 2 ^ 32

/-- The bytes a round reads at a used entry at `off` are in the block: the first seven of
the header, and the name if it has any. -/
def EntryIn (size : Nat) (e : DirEntry) (off : Nat) : Prop :=
  off + 7 ≤ size ∧ (e.name.length = 0 ∨ off + 8 + e.name.length ≤ size)

/-- What a round has read when it has the name. -/
def entryReads (p : UInt32) (e : DirEntry) : ReadLog :=
  [(p, 4), (p + 6, 1), (p + 8, e.name.length), (p + 6, 1)]

section

variable [Layout] {k : Kernel Disk} {c : Image} {size off : Nat} {dir filename : UInt32}
  {name : List UInt8} {e : DirEntry}

theorem ScanPage.congr {k' : Kernel Disk} (h : ScanPage k c size dir filename name)
    (hleave : Leaves (Span (scratch k.kMemoryMap) 0x1000) k k') :
    ScanPage k' c size dir filename name := by
  have hshort := h.short
  constructor
  · exact h.page.congr h.size_le fun a ha => hleave.mem a (h.pageApart a ha)
  · rw [hleave.kMemoryMap]
    exact h.pageApart
  · intro hne
    exact (h.string hne).congr (by omega) fun a ha => hleave.mem a (h.stringApart hne a ha)
  · rw [hleave.kMemoryMap]
    exact h.stringApart
  · exact h.size_le
  · exact hshort

omit [Layout] in
theorem add_entry (n : Nat) :
    dir + UInt32.ofNat off + UInt32.ofNat n = dir + UInt32.ofNat (off + n) := by
  rw [UInt32.ofNat_add, UInt32.add_assoc]

/-- The copy of an entry's name, terminated, in a new page. -/
theorem ext2EntryNameReads_ok (hd : ScanPage k c size dir filename name)
    (hfree : 0 < freeCount k.kMemoryMap) (he : entryAt c off = e) (hin : EntryIn size e off) :
    ∃ k', (ext2EntryNameReads (dir + UInt32.ofNat off)).run k =
        .ok (scratch k.kMemoryMap, (entryReads (dir + UInt32.ofNat off) e).tail) k' ∧
      k'.dev = k.dev ∧ k'.kMemoryMap = taken k.kMemoryMap ∧
      BytesAt k'.mem (scratch k.kMemoryMap) (e.name ++ [0]) ∧
      SameOff (Span (scratch k.kMemoryMap) 0x1000) k.mem k'.mem := by
  obtain ⟨k₁, hrun₁, hdev₁, hmap₁, hmem₁⟩ := kmalloc_page hfree
  have hpage := hd.page
  have hapart := hd.pageApart
  have hsize := hd.size_le
  generalize scratch k.kMemoryMap = p at *
  have hlen : e.name.length = (c (off + 6)).toNat := by rw [← he, length_entryName]
  have hbyte := (c (off + 6)).toNat_lt
  rw [EntryIn, hlen] at hin
  have hoff₁ : SameOff (Span p 0x1000) k.mem k₁.mem := hmem₁ ▸ sameOff_write
  have hpage₁ : Mirrors k₁.mem dir size c 0 :=
    hpage.congr hsize fun a ha => hoff₁ a (hapart a ha)
  have hat : dir + UInt32.ofNat off + 6 = dir + UInt32.ofNat (off + 6) := add_entry 6
  have hnameAt : dir + UInt32.ofNat off + 8 = dir + UInt32.ofNat (off + 8) := add_entry 8
  have hlen₁ : k₁.mem (dir + UInt32.ofNat off + 6) = c (off + 6) := by
    rw [hat, hpage₁ (off + 6) (by omega), Nat.zero_add]
  have hname₁ : Mirrors k₁.mem (dir + UInt32.ofNat (off + 8)) (c (off + 6)).toNat c (off + 8) := by
    rcases hin.2 with hnone | hfits
    · rw [hnone]
      intro i hi
      exact absurd hi (Nat.not_lt_zero i)
    · have hpart := hpage₁.part (i := off + 8) (k := (c (off + 6)).toNat) (by omega)
      rwa [Nat.zero_add] at hpart
  have hnameApart : ∀ a, Span (dir + UInt32.ofNat (off + 8)) (c (off + 6)).toNat a →
      ¬ Span p (c (off + 6)).toNat a := by
    intro a ha hp
    rcases hin.2 with hnone | hfits
    · rw [hnone] at ha
      exact Nat.not_lt_zero _ ha
    · exact hapart a (ha.sub (by omega) (by omega)) (hp.mono (by omega))
  obtain ⟨k₂, hrun₂, hname, hleave₂⟩ :=
    memoryCopy_mirrors (toInt_byte (c (off + 6))) hnameApart hname₁
  have hlen₂ : k₂.mem (dir + UInt32.ofNat off + 6) = c (off + 6) := by
    rw [← hlen₁]
    refine hleave₂.mem _ fun hp => hapart (dir + UInt32.ofNat off + 6) ?_ (hp.mono (by omega))
    rw [hat]
    exact span_add (by omega) hsize
  refine ⟨{ k₂ with
      mem := k₂.mem.write (p + (k₂.mem (dir + UInt32.ofNat off + 6)).toUInt32) 1 fun _ => 0 },
    ?_, hleave₂.dev.trans hdev₁, hleave₂.kMemoryMap.trans hmap₁, ?_, ?_⟩
  · rw [ext2EntryNameReads, Exec.bind_ok hrun₁, Exec.bind_ok (EStateM.run_get k₁), hlen₁, hnameAt]
    simp only [entryReads, List.tail_cons, hlen, hnameAt]
    exact Exec.bind_ok hrun₂
  · simp only [hlen₂, ← UInt32.ofNat_uInt8ToNat]
    rw [bytesAt_append, hlen, bytesAt_cons]
    refine ⟨fun i hi => ?_, Mem.write_in (span_self Nat.zero_lt_one), bytesAt_nil⟩
    rw [hlen] at hi
    have hone : Span (p + UInt32.ofNat i) 1 (p + UInt32.ofNat i) :=
      span_self Nat.zero_lt_one
    rw [Mem.write_off (hone.disjoint_parts hi (by omega)), hname i hi]
    simp only [← he, entryAt, List.getElem_map, List.getElem_range]
  · refine (hoff₁.trans (hleave₂.mem.mono fun a ha => ha.mono (by omega))).trans ?_
    simp only [hlen₂, ← UInt32.ofNat_uInt8ToNat]
    exact sameOff_write.mono fun a ha => ha.sub (by omega) (by omega)

/-- The end of a round that found the name: the page is given back and the
entry's inode read once more. -/
theorem kfree_read32 {k₁ : Kernel Disk} {W : UInt32 → Prop} {p v : UInt32}
    (hfree : 0 < freeCount k.kMemoryMap) (hv : k₁.mem.load32 p = v)
    (hdev : k₁.dev = k.dev) (hmap : k₁.kMemoryMap = taken k.kMemoryMap)
    (hoff : SameOff W k.mem k₁.mem) (reads : ReadLog) :
    ∃ k', Leaves W k k' ∧
      (do kfree (scratch k.kMemoryMap) 1; return (← read32 p, reads) :
        Kern Disk (UInt32 × ReadLog)).run k₁ = .ok (v, reads) k' := by
  refine ⟨{ k₁ with kMemoryMap := k.kMemoryMap }, ⟨hdev, rfl, hoff⟩, ?_⟩
  rw [Exec.bind_ok (kfree_scratch k.kMemoryMap hfree hmap), Exec.bind_ok (read32_run _ _), hv]
  rfl

/-- A round at a used entry: the inode if the entry has the name, and otherwise the scan
goes on at the next entry. -/
theorem ext2ReadDirectoryReads_round {fuel : Nat} (hd : ScanPage k c size dir filename name)
    (hfree : 0 < freeCount k.kMemoryMap) (h0 : 0 ∉ name) (hfuel : name.length < fuel)
    (he : entryAt c off = e) (hused : e.inode ≠ 0) (hin : EntryIn size e off) :
    ∃ k', Leaves (Span (scratch k.kMemoryMap) 0x1000) k k' ∧ ∀ rounds,
      (ext2ReadDirectoryReads fuel filename (rounds + 1) (dir + UInt32.ofNat off)).run k =
        if Hits filename name e then
          .ok (e.inode, entryReads (dir + UInt32.ofNat off) e ++
            [(dir + UInt32.ofNat off, 4), (dir + UInt32.ofNat off, 4)]) k'
        else
          ((fun r => (r.1, entryReads (dir + UInt32.ofNat off) e ++
              (dir + UInt32.ofNat off + 4, 2) :: r.2)) <$>
            ext2ReadDirectoryReads fuel filename rounds
              (dir + UInt32.ofNat (off + e.size))).run k' := by
  have hheader := hin.1
  obtain ⟨k₁, hrun₁, hdev₁, hmap₁, hname₁, hoff₁⟩ := ext2EntryNameReads_ok hd hfree he hin
  have hpage₁ : Mirrors k₁.mem dir size c 0 :=
    hd.page.congr hd.size_le fun a ha => hoff₁ a (hd.pageApart a ha)
  have hstring₁ : filename ≠ 0 → BytesAt k₁.mem filename (name ++ [0]) := fun hne =>
    (hd.string hne).congr hd.short fun a ha => hoff₁ a (hd.stringApart hne a ha)
  have hinode₁ : k₁.mem.load32 (dir + UInt32.ofNat off) = e.inode := by
    rw [load_inode hpage₁ (by omega), he]
  have hmatches := ext2NameMatches_ok h0 hstring₁ hname₁ hfuel
  have hstart : k.mem.load32 (dir + UInt32.ofNat off) = e.inode := by
    rw [load_inode hd.page (by omega), he]
  by_cases hits : Hits filename name e
  · obtain ⟨k₂, hk₂⟩ : ∃ k₂, k₂ = ((((k₁.print (.str "Found inode ")).print
        (.mem filename)).print (.str ": ")).print
        (.int (k₁.mem.load32 (dir + UInt32.ofNat off)))).print (.str "\n") := ⟨_, rfl⟩
    obtain ⟨k', hleave, hkfree⟩ := kfree_read32 (k := k) hfree
      (show k₂.mem.load32 (dir + UInt32.ofNat off) = e.inode by rw [hk₂]; exact hinode₁)
      (by rw [hk₂]; exact hdev₁) (by rw [hk₂]; exact hmap₁) (by rw [hk₂]; exact hoff₁)
      (entryReads (dir + UInt32.ofNat off) e ++
        [(dir + UInt32.ofNat off, 4), (dir + UInt32.ofNat off, 4)])
    refine ⟨k', hleave, fun rounds => ?_⟩
    rw [ext2ReadDirectoryReads, Exec.bind_ok (read32_run _ _), hstart, if_neg hused,
      Exec.bind_ok hrun₁]
    simp only [Exec.bind_ok hmatches, hits, decide_true, if_true, Exec.bind_ok (kprint_run _ _),
      Exec.bind_ok (kprintMsg_run _ _), Exec.bind_ok (kprintInt_run _ _),
      Exec.bind_ok (read32_run _ _)]
    rw [hk₂] at hkfree
    exact hkfree
  · have hsize₁ : (k₁.mem.load16 (dir + UInt32.ofNat off + 4)).toUInt32 =
        UInt32.ofNat e.size := by
      have hload := hpage₁.load16 (i := off + 4) (by omega)
      rw [UInt32.ofNat_add, ← UInt32.add_assoc, Nat.zero_add] at hload
      rw [show (4 : UInt32) = UInt32.ofNat 4 from rfl, hload, ← he,
        ← UInt32.ofNat_uInt16ToNat]
      rfl
    by_cases hnull : filename = 0
    · obtain ⟨k₂, hk₂⟩ : ∃ k₂, k₂ = (k₁.print (.mem (scratch k.kMemoryMap))).print (.str "\n") :=
        ⟨_, rfl⟩
      have hmap₂ : k₂.kMemoryMap = taken k.kMemoryMap := by
        rw [hk₂]
        exact hmap₁
      refine ⟨{ k₂ with kMemoryMap := k.kMemoryMap },
        ⟨by rw [hk₂]; exact hdev₁, rfl, by rw [hk₂]; exact hoff₁⟩, fun rounds => ?_⟩
      rw [ext2ReadDirectoryReads, Exec.bind_ok (read32_run _ _), hstart, if_neg hused,
        Exec.bind_ok hrun₁]
      simp only [Exec.bind_ok hmatches, hits, decide_false, Bool.false_eq_true, if_false,
        if_pos hnull, Exec.bind_ok (kprint_run _ _), Exec.bind_ok (kprintMsg_run _ _),
        Exec.bind_ok (read16_run _ _), Kernel.print_mem, hsize₁]
      rw [← hk₂, Exec.bind_ok (kfree_scratch k.kMemoryMap hfree hmap₂), UInt32.add_assoc,
        ← UInt32.ofNat_add]
      rfl
    · refine ⟨{ k₁ with kMemoryMap := k.kMemoryMap }, ⟨hdev₁, rfl, hoff₁⟩, fun rounds => ?_⟩
      rw [ext2ReadDirectoryReads, Exec.bind_ok (read32_run _ _), hstart, if_neg hused,
        Exec.bind_ok hrun₁]
      simp only [Exec.bind_ok hmatches, hits, decide_false, Bool.false_eq_true, if_false,
        if_neg hnull, Exec.bind_ok (read16_run _ _), hsize₁]
      rw [Exec.bind_ok (kfree_scratch k.kMemoryMap hfree hmap₁), UInt32.add_assoc,
        ← UInt32.ofNat_add]
      rfl

end

end Bedrock
