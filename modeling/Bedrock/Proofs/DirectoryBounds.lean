import Bedrock.Proofs.Ext2Directory

/-!
# Where the scan of a directory block leaves it

Whatever the block holds, the scan comes to an end without having read a byte outside it
exactly when the records themselves lead to an end inside it
(`ext2ReadDirectory_staysIn_iff`). `Contained` is such a chain of records. Its derivations
are the runs of the scan round by round, so one direction is an induction on the chain and
the other on the rounds.
-/

namespace Bedrock

open Lib Image

section

variable [Layout] {k : Kernel Disk} {c : Image} {size off : Nat} {dir filename : UInt32}
  {name : List UInt8} {e : DirEntry}

/-- Every byte that was read is one of the `size` from `dir` on. -/
def Inside (dir : UInt32) (size : Nat) (reads : ReadLog) : Prop :=
  ∀ x ∈ reads, ∀ a, Span x.1 x.2 a → Span dir size a

/-- The scan comes to an end, and its log says that it has read nothing through `dir` outside
the block. -/
def StaysIn (k : Kernel Disk) (filename dir : UInt32) (size : Nat) : Prop :=
  ∃ n, ∀ fuel, n ≤ fuel → ∃ r reads k',
    (ext2ReadDirectory fuel filename dir).run k = .ok r k' ∧
      (ext2ReadDirectoryReads fuel filename fuel dir).run k = .ok (r, reads) k' ∧
      Inside dir size reads

/-- From the entry at `off` on, the records of the block lead inside it to an unused entry or
to the name. Each of them is behind the one before: a record of length 0 leads to itself, and
a chain that never ends is none. -/
inductive Contained (c : Image) (size : Nat) (filename : UInt32) (name : List UInt8) :
    (off : Nat) → Prop
  | unused {off : Nat} : off + 4 ≤ size → (entryAt c off).inode = 0 →
      Contained c size filename name off
  | hit {off : Nat} : (entryAt c off).inode ≠ 0 → EntryIn size (entryAt c off) off →
      Hits filename name (entryAt c off) → Contained c size filename name off
  | next {off : Nat} : (entryAt c off).inode ≠ 0 → EntryIn size (entryAt c off) off →
      ¬ Hits filename name (entryAt c off) →
      Contained c size filename name (off + (entryAt c off).size) →
      Contained c size filename name off

omit [Layout] in
theorem not_span_sub {n : Nat} (hn : 0 < n) (hout : size < off + n) (hmax : off + n ≤ 2 ^ 32) :
    ¬ ∀ a, Span (dir + UInt32.ofNat off) n a → Span dir size a := by
  intro hsub
  have hlast := hsub (dir + UInt32.ofNat off + UInt32.ofNat (n - 1))
    (span_add (by omega) (by omega))
  rw [add_entry, Span, toNat_sub_add_ofNat (by omega)] at hlast
  omega

omit [Layout] in
theorem inside_entryReads (hsize : size ≤ 2 ^ 32) (hin : EntryIn size e off) :
    Inside dir size (entryReads (dir + UInt32.ofNat off) e) := by
  obtain ⟨hheader, hname⟩ := hin
  have hlength : ∀ a, Span (dir + UInt32.ofNat off + UInt32.ofNat 6) 1 a → Span dir size a := by
    rw [add_entry]
    exact fun a ha => ha.sub (by omega) hsize
  intro x hx a ha
  simp only [entryReads, List.mem_cons, List.not_mem_nil, or_false] at hx
  rcases hx with rfl | rfl | rfl | rfl
  · exact ha.sub (by omega) hsize
  · exact hlength a ha
  · rcases hname with hnone | hfits
    · rw [hnone] at ha
      exact absurd ha (Nat.not_lt_zero _)
    · have hat : dir + UInt32.ofNat off + 8 = dir + UInt32.ofNat (off + 8) := add_entry 8
      rw [hat] at ha
      exact ha.sub hfits hsize
  · exact hlength a ha

/-- A chain that ends in the block is followed to its end, in as many rounds as it has
records. -/
theorem Contained.returns (h : Contained c size filename name off) (h0 : 0 ∉ name) :
    ∃ n, ∀ {k : Kernel Disk} {dir : UInt32} {fuel : Nat} (rounds : Nat),
      ScanPage k c size dir filename name → name.length < fuel →
      ((entryAt c off).inode ≠ 0 → 0 < freeCount k.kMemoryMap) → n ≤ rounds →
      ∃ r reads k', (ext2ReadDirectoryReads fuel filename rounds (dir + UInt32.ofNat off)).run k =
        .ok (r, reads) k' ∧ Inside dir size reads := by
  induction h with
  | @unused off hin hunused =>
      refine ⟨1, fun {k dir fuel} rounds hd hfuel hfree hrounds => ?_⟩
      obtain ⟨rounds, rfl⟩ := Nat.exists_eq_add_one_of_ne_zero (n := rounds) (by omega)
      refine ⟨0, [(dir + UInt32.ofNat off, 4)], k, ?_, ?_⟩
      · rw [ext2ReadDirectoryReads, Exec.bind_ok (read32_run _ _), load_inode hd.page hin,
          if_pos hunused]
        rfl
      · intro x hx a ha
        rw [List.mem_singleton.mp hx] at ha
        exact ha.sub hin hd.size_le
  | @hit off hused hin hits =>
      refine ⟨1, fun {k dir fuel} rounds hd hfuel hfree hrounds => ?_⟩
      obtain ⟨rounds, rfl⟩ := Nat.exists_eq_add_one_of_ne_zero (n := rounds) (by omega)
      obtain ⟨k', -, hround⟩ := ext2ReadDirectoryReads_round hd (hfree hused) h0 hfuel rfl hused hin
      refine ⟨_, _, k', (hround rounds).trans (if_pos hits), fun x hx a ha => ?_⟩
      rcases List.mem_append.mp hx with hentry | hinode
      · exact inside_entryReads hd.size_le hin x hentry a ha
      · have hheader := hin.1
        simp only [List.mem_cons, List.not_mem_nil, or_false, or_self] at hinode
        rw [hinode] at ha
        exact ha.sub (by omega) hd.size_le
  | @next off hused hin hmiss hnext ih =>
      obtain ⟨n, hn⟩ := ih
      refine ⟨n + 1, fun {k dir fuel} rounds hd hfuel hfree hrounds => ?_⟩
      obtain ⟨rounds, rfl⟩ := Nat.exists_eq_add_one_of_ne_zero (n := rounds) (by omega)
      obtain ⟨k₁, hleave, hround⟩ :=
        ext2ReadDirectoryReads_round hd (hfree hused) h0 hfuel rfl hused hin
      have hfree₁ : 0 < freeCount k₁.kMemoryMap := by
        rw [hleave.kMemoryMap]
        exact hfree hused
      obtain ⟨r, reads, k', hrun, hinside⟩ :=
        hn rounds (hd.congr hleave) hfuel (fun _ => hfree₁) (by omega)
      have hwhole : (ext2ReadDirectoryReads fuel filename (rounds + 1)
          (dir + UInt32.ofNat off)).run k = .ok (r, entryReads (dir + UInt32.ofNat off)
            (entryAt c off) ++ (dir + UInt32.ofNat off + 4, 2) :: reads) k' := by
        rw [hround, if_neg hmiss, map_eq_pure_bind, Exec.bind_ok hrun]
        rfl
      refine ⟨r, _, k', hwhole, fun x hx a ha => ?_⟩
      rcases List.mem_append.mp hx with hentry | hrest
      · exact inside_entryReads hd.size_le hin x hentry a ha
      · rcases List.mem_cons.mp hrest with rfl | hlater
        · have hheader := hin.1
          have hat : dir + UInt32.ofNat off + 4 = dir + UInt32.ofNat (off + 4) := add_entry 4
          rw [hat] at ha
          exact ha.sub (by omega) hd.size_le
        · exact hinside x hlater a ha

/-- What was read for the name of an entry, whatever the entry is. -/
theorem ext2EntryNameReads_inv {k' : Kernel Disk} {p : UInt32} {entry : UInt32 × ReadLog}
    (h : (ext2EntryNameReads p).run k = .ok entry k') :
    0 < freeCount k.kMemoryMap ∧ entry.2 = [(p + 6, 1), (p + 8,
      ((k.mem.write (scratch k.kMemoryMap) 0x1000 fun _ => 0) (p + 6)).toNat), (p + 6, 1)] := by
  rw [ext2EntryNameReads] at h
  obtain ⟨page, k₁, hkmalloc, hrest⟩ := Exec.bind_inv h
  obtain ⟨hfree, hpage, -, hmem⟩ := kmalloc_inv (n := 1) (by decide) hkmalloc
  rw [Exec.bind_ok (EStateM.run_get k₁)] at hrest
  obtain ⟨_, _, -, hrest⟩ := Exec.bind_inv hrest
  obtain ⟨_, _, -, hreturn⟩ := Exec.bind_inv hrest
  obtain ⟨rfl, -⟩ := Exec.pure_inv hreturn
  refine ⟨hfree, ?_⟩
  rw [hmem, hpage]
  rfl

/-- A round that returns has read the inode of its entry, and what it needs for the name if
the entry is used. -/
theorem ext2ReadDirectoryReads_inv {fuel rounds : Nat} {k' : Kernel Disk} {p r : UInt32}
    {reads : ReadLog}
    (h : (ext2ReadDirectoryReads fuel filename (rounds + 1) p).run k = .ok (r, reads) k') :
    (p, 4) ∈ reads ∧ (k.mem.load32 p ≠ 0 → ∃ entry k₁,
      (ext2EntryNameReads p).run k = .ok entry k₁ ∧ ∀ x ∈ entry.2, x ∈ reads) := by
  rw [ext2ReadDirectoryReads, Exec.bind_ok (read32_run _ _)] at h
  by_cases hunused : k.mem.load32 p = 0
  · rw [if_pos hunused] at h
    obtain ⟨heq, -⟩ := Exec.pure_inv h
    obtain ⟨-, rfl⟩ := Prod.mk.inj heq
    exact ⟨List.mem_singleton_self _, fun hused => absurd hunused hused⟩
  · rw [if_neg hunused] at h
    obtain ⟨entry, k₁, hentry, hrest⟩ := Exec.bind_inv h
    have hreads : ∃ tail, reads = (p, 4) :: entry.2 ++ tail := by
      obtain ⟨found, k₂, -, hrest⟩ := Exec.bind_inv hrest
      by_cases hfound : found = true
      · simp only [if_pos hfound, Exec.bind_ok (kprint_run _ _), Exec.bind_ok (kprintMsg_run _ _),
          Exec.bind_ok (kprintInt_run _ _), Exec.bind_ok (read32_run _ _)] at hrest
        obtain ⟨_, k₃, -, hreturn⟩ := Exec.bind_inv hrest
        rw [Exec.bind_ok (read32_run _ _)] at hreturn
        obtain ⟨heq, -⟩ := Exec.pure_inv hreturn
        exact ⟨_, (Prod.mk.inj heq).2⟩
      · have hnext : ∃ k₃, (do
            let size ← read16 (p + 4)
            kfree entry.1 1
            let x ← ext2ReadDirectoryReads fuel filename rounds (p + size.toUInt32)
            return (x.1, (p, 4) :: entry.2 ++ (p + 4, 2) :: x.2) :
              Kern Disk (UInt32 × ReadLog)).run k₃ = .ok (r, reads) k' := by
          by_cases hnull : filename = 0
          · simp only [if_neg hfound, if_pos hnull, Exec.bind_ok (kprint_run _ _),
              Exec.bind_ok (kprintMsg_run _ _)] at hrest
            exact ⟨_, hrest⟩
          · simp only [if_neg hfound, if_neg hnull] at hrest
            exact ⟨_, hrest⟩
        obtain ⟨k₃, hnext⟩ := hnext
        rw [Exec.bind_ok (read16_run _ _)] at hnext
        obtain ⟨_, _, -, hnext⟩ := Exec.bind_inv hnext
        obtain ⟨_, _, -, hreturn⟩ := Exec.bind_inv hnext
        obtain ⟨heq, -⟩ := Exec.pure_inv hreturn
        exact ⟨_, (Prod.mk.inj heq).2⟩
    obtain ⟨tail, rfl⟩ := hreads
    exact ⟨List.mem_cons_self, fun _ => ⟨entry, k₁, hentry, fun x hx =>
      List.mem_cons_of_mem _ (List.mem_append_left _ hx)⟩⟩

/-- A scan that returns without having left the block has followed such a chain. -/
theorem contained_of_inside {fuel rounds : Nat} {k' : Kernel Disk} {r : UInt32} {reads : ReadLog}
    (hd : ScanPage k c size dir filename name) (h0 : 0 ∉ name) (hfuel : name.length < fuel)
    (hsize : size < 2 ^ 31) (hoff : off ≤ size + 0xFFFF)
    (hrun : (ext2ReadDirectoryReads fuel filename rounds (dir + UInt32.ofNat off)).run k =
      .ok (r, reads) k') (hinside : Inside dir size reads) :
    Contained c size filename name off ∧
      ((entryAt c off).inode ≠ 0 → 0 < freeCount k.kMemoryMap) := by
  induction rounds generalizing k off r reads k' with
  | zero => cases hrun
  | succ rounds ih =>
      obtain ⟨hinode, hname⟩ := ext2ReadDirectoryReads_inv hrun
      have hin : off + 4 ≤ size := by
        have hsub : ∀ a, Span (dir + UInt32.ofNat off) 4 a → Span dir size a :=
          hinside (_, 4) hinode
        by_contra hout
        exact not_span_sub (by omega) (by omega) (by omega) hsub
      have hload : k.mem.load32 (dir + UInt32.ofNat off) = (entryAt c off).inode :=
        load_inode hd.page hin
      by_cases hunused : (entryAt c off).inode = 0
      · exact ⟨.unused hin hunused, fun hused => absurd hunused hused⟩
      obtain ⟨entry, k₁, hentry, hreads⟩ := hname (by rw [hload]; exact hunused)
      obtain ⟨hfree, hlog⟩ := ext2EntryNameReads_inv hentry
      have hat : dir + UInt32.ofNat off + 6 = dir + UInt32.ofNat (off + 6) := add_entry 6
      have hnameAt : dir + UInt32.ofNat off + 8 = dir + UInt32.ofNat (off + 8) := add_entry 8
      rw [hlog, hat, hnameAt] at hreads
      have hheader : off + 7 ≤ size := by
        have hsub : ∀ a, Span (dir + UInt32.ofNat (off + 6)) 1 a → Span dir size a :=
          hinside (_, 1) (hreads _ List.mem_cons_self)
        by_contra hout
        exact not_span_sub (by omega) (by omega) (by omega) hsub
      have hlength : (k.mem.write (scratch k.kMemoryMap) 0x1000 fun _ => 0)
          (dir + UInt32.ofNat (off + 6)) = c (off + 6) := by
        rw [Mem.write_off (hd.pageApart _ (span_add (by omega) (by omega))),
          hd.page (off + 6) (by omega), Nat.zero_add]
      rw [hlength, ← length_entryName] at hreads
      have hentryIn : EntryIn size (entryAt c off) off := by
        have hsub : ∀ a, Span (dir + UInt32.ofNat (off + 8)) (entryAt c off).name.length a →
            Span dir size a :=
          hinside (_, _) (hreads _ (List.mem_cons_of_mem _ List.mem_cons_self))
        have hbyte := (c (off + 6)).toNat_lt
        have hlen := length_entryName c off
        refine ⟨hheader, ?_⟩
        by_contra hout
        exact not_span_sub (by omega) (by omega) (by omega) hsub
      refine ⟨?_, fun _ => hfree⟩
      obtain ⟨k₂, hleave, hround⟩ :=
        ext2ReadDirectoryReads_round hd hfree h0 hfuel rfl hunused hentryIn
      by_cases hits : Hits filename name (entryAt c off)
      · exact .hit hunused hentryIn hits
      rw [hround, if_neg hits, map_eq_pure_bind] at hrun
      obtain ⟨⟨r', rest⟩, k₃, hrest, hreturn⟩ := Exec.bind_inv hrun
      obtain ⟨heq, -⟩ := Exec.pure_inv hreturn
      obtain ⟨-, rfl⟩ := Prod.mk.inj heq
      have hsize16 := (le16 c (off + 4)).toNat_lt
      have hstep : off + (entryAt c off).size ≤ size + 0xFFFF := by
        rw [show (entryAt c off).size = (le16 c (off + 4)).toNat from rfl]
        omega
      refine .next hunused hentryIn hits (ih (hd.congr hleave) hstep hrest fun x hx => ?_).1
      exact hinside x (List.mem_append_right _ (List.mem_cons_of_mem _ hx))

theorem contained_of_staysIn (hd : ScanPage k c size dir filename name) (h0 : 0 ∉ name)
    (hsize : size < 2 ^ 31) (h : StaysIn k filename dir size) :
    Contained c size filename name 0 ∧
      ((entryAt c 0).inode ≠ 0 → 0 < freeCount k.kMemoryMap) := by
  obtain ⟨n, hn⟩ := h
  obtain ⟨r, reads, k', -, hrun, hinside⟩ := hn (n + name.length + 1) (by omega)
  rw [← UInt32.add_zero dir] at hrun
  exact contained_of_inside hd h0 (by omega) hsize (by omega) hrun hinside

/-- On any content of a block, and with any name: the scan comes to an end and reads nothing
outside the block exactly when its records lead to an end inside it, and a page is free for
the names unless the first entry is unused. -/
theorem ext2ReadDirectory_staysIn_iff (hd : ScanPage k c size dir filename name) (h0 : 0 ∉ name)
    (hsize : size < 2 ^ 31) :
    StaysIn k filename dir size ↔ Contained c size filename name 0 ∧
      ((entryAt c 0).inode ≠ 0 → 0 < freeCount k.kMemoryMap) := by
  refine ⟨contained_of_staysIn hd h0 hsize, ?_⟩
  rintro ⟨hcontained, hfree⟩
  obtain ⟨n, hn⟩ := hcontained.returns h0
  refine ⟨n + name.length + 1, fun fuel hfuel => ?_⟩
  obtain ⟨r, reads, k', hrun, hinside⟩ :=
    hn fuel hd (show name.length < fuel by omega) hfree (by omega)
  rw [show dir + UInt32.ofNat 0 = dir from UInt32.add_zero dir] at hrun
  refine ⟨r, reads, k', ?_, hrun, hinside⟩
  rw [ext2ReadDirectory, ext2ReadDirectoryLoop_eq, map_eq_pure_bind, Exec.bind_ok hrun]
  rfl

omit [Layout] in
/-- No chain leads over a used record of length 0. -/
theorem not_contained_of_zero (hused : (entryAt c off).inode ≠ 0) (hsize : (entryAt c off).size = 0)
    (hmiss : ¬ Hits filename name (entryAt c off)) : ¬ Contained c size filename name off := by
  intro h
  induction h with
  | unused _ hunused => exact hused hunused
  | hit _ _ hits => exact hmiss hits
  | next _ _ _ _ ih =>
      rw [hsize, Nat.add_zero] at ih
      exact ih hused hsize hmiss

end

/-- A used entry `a` and an unused one behind it. -/
def oneEntry : Image := .ofBytes [(0, 11), (4, 12), (6, 1), (8, 97)]

/-- The name `b` in this block: the scan reads two entries. -/
theorem ext2ReadDirectory_staysIn_oneEntry : ∃ _ : Layout,
    StaysIn (blockState oneEntry [98]) 0x3000 0x1000 1024 := by
  let _ := bootLayout
  have hfree : 0 < freeCount (Kernel.zero ()).kMemoryMap := by simp
  have hchain : Contained oneEntry 1024 0x3000 [98] 0 :=
    .next (by decide) ⟨by decide, .inr (by decide)⟩ (by decide)
      (.unused (by decide) (by decide))
  exact ⟨bootLayout, (ext2ReadDirectory_staysIn_iff
    (blockState_dirPage (show [98].length < 0x1000 by decide)).scan (by decide) (by decide)).mpr
      ⟨hchain, fun _ => hfree⟩⟩

/-- A used entry `a` of length 0. -/
def zeroLength : Image := .ofBytes [(0, 11), (6, 1), (8, 97)]

/-- A used entry `a` that fills its block. -/
def filledBlock : Image := .ofBytes [(0, 11), (5, 4), (6, 1), (8, 97)]

/-- The name `b` in these blocks: in the first the scan never ends, however many rounds it
is given, and in the second it goes on behind the block. -/
theorem ext2ReadDirectory_leaves : ∃ _ : Layout,
    (∀ fuel, 2 ≤ fuel → ∃ k', (ext2ReadDirectory fuel 0x3000 0x1000).run
      (blockState zeroLength [98]) = .error .fuel k') ∧
    ¬ StaysIn (blockState zeroLength [98]) 0x3000 0x1000 1024 ∧
    ¬ StaysIn (blockState filledBlock [98]) 0x3000 0x1000 1024 := by
  let _ := bootLayout
  have hfree : 0 < freeCount (Kernel.zero ()).kMemoryMap := by simp
  have hzero : DirPage (blockState zeroLength [98]) zeroLength 1024 0x1000 0x3000 [98] :=
    blockState_dirPage (by decide)
  have hfilled : DirPage (blockState filledBlock [98]) filledBlock 1024 0x1000 0x3000 [98] :=
    blockState_dirPage (by decide)
  refine ⟨bootLayout, fun fuel hfuel => ?_, fun h => ?_, fun h => ?_⟩
  · have hstuck : ∃ k', (ext2ReadDirectoryLoop fuel 0x3000 fuel (0x1000 + UInt32.ofNat 0)).run
        (blockState zeroLength [98]) = .error .fuel k' :=
      ext2ReadDirectoryLoop_stuck hzero hfree (by decide) (by decide)
        (show [98].length < fuel from hfuel) rfl (by decide) (by decide)
        (by decide) (by decide) fuel
    exact hstuck
  · refine not_contained_of_zero ?_ ?_ ?_
      (contained_of_staysIn hzero.scan (by decide) (by decide) h).1
    · decide
    · decide
    · decide
  · cases (contained_of_staysIn hfilled.scan (by decide) (by decide) h).1 with
    | unused _ hunused => exact absurd hunused (by decide)
    | hit _ _ hits => exact absurd hits (by decide)
    | next _ _ _ hnext =>
        have hend : 0 + (entryAt filledBlock 0).size = 1024 := by decide
        rw [hend] at hnext
        cases hnext with
        | unused hin => exact absurd hin (by decide)
        | hit _ hin => exact absurd hin.1 (by decide)
        | next _ hin => exact absurd hin.1 (by decide)

end Bedrock
