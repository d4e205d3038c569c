import Bedrock.Proofs.DirectoryReads

/-!
# Scanning a directory block

`ext2_read_directory` over a page: it answers the inode of the first entry of
the name, but it only looks as far as the first entry with inode 0. Whether the
page holds a directory makes no difference to it; all that matters is that the
entries it meets lie in the page. On the block of a directory they do: the
bytes behind the block are zero, so what follows the last entry looks like an
unused one.

Each round takes a page for the copy of the entry's name and gives it back, so
a whole scan changes nothing but that page.

Over a block of entries that fill it exactly the answer is right when the name
comes before the first unused entry, or is not there at all and there is an
unused entry (`ext2ReadDirectory_iff`). Otherwise the scan has stopped too early,
or it goes on behind the block.
-/

namespace Bedrock

open Lib Image

/-- The block with a used entry of length 0 and without a name behind it. -/
def trailed (c : Image) (size : Nat) (i : Nat) : UInt8 :=
  if i < size then c i else if i = size then 1 else 0

theorem entryAt_trailed (c : Image) (size : Nat) : entryAt (trailed c size) size = ⟨1, 0, []⟩ := by
  have hone : trailed c size size = 1 := by simp [trailed]
  have hzero : ∀ i, 0 < i → trailed c size (size + i) = 0 := fun i hi => by
    simp only [trailed]
    rw [if_neg (by omega), if_neg (by omega)]
  simp only [entryAt, le32, le16, hone, hzero 1, hzero 2, hzero 3, hzero 4, hzero (4 + 1),
    hzero 6, Nat.add_assoc, Nat.zero_lt_succ]
  rfl

/-- The state with these bytes behind the block. -/
def withTrailer (k : Kernel Disk) (c : Image) (size : Nat) (dir : UInt32) : Kernel Disk :=
  { k with
    mem := k.mem.write (dir + UInt32.ofNat size) 8 fun i => trailed c size (size + i) }

theorem withTrailer_mem {k : Kernel Disk} {c : Image} {size : Nat} {dir : UInt32} :
    (withTrailer k c size dir).mem = k.mem.write (dir + UInt32.ofNat size) 8 fun i =>
      trailed c size (size + i) := rfl

section

variable [Layout] {k : Kernel Disk} {c : Image}

/-- What a scan reads: `size` bytes of entries, and the name. None of it lies in
the page the scan works in. -/
structure DirPage (k : Kernel Disk) (page : Image) (size : Nat) (rootBuf filename : UInt32)
    (name : List UInt8) : Prop where
  page : Mirrors k.mem rootBuf size page 0
  pageApart : ∀ a, Span rootBuf size a → ¬ Span (scratch k.kMemoryMap) 0x1000 a
  string : BytesAt k.mem filename (name ++ [0])
  stringApart : ∀ a, Span filename (name ++ [0]).length a →
    ¬ Span (scratch k.kMemoryMap) 0x1000 a
  size_le : size ≤ 2 ^ 32
  short : (name ++ [0]).length ≤ 2 ^ 32

theorem DirPage.congr {k' : Kernel Disk} {size : Nat} {rootBuf filename : UInt32}
    {name : List UInt8} (h : DirPage k c size rootBuf filename name)
    (hleave : Leaves (Span (scratch k.kMemoryMap) 0x1000) k k') :
    DirPage k' c size rootBuf filename name := by
  have hshort := h.short
  have hsize := h.size_le
  constructor
  · exact h.page.congr hsize fun a ha => hleave.mem a (h.pageApart a ha)
  · rw [hleave.kMemoryMap]
    exact h.pageApart
  · exact h.string.congr (by omega) fun a ha => hleave.mem a (h.stringApart a ha)
  · rw [hleave.kMemoryMap]
    exact h.stringApart
  · exact hsize
  · exact hshort

theorem DirPage.scan {size : Nat} {rootBuf filename : UInt32} {name : List UInt8}
    (h : DirPage k c size rootBuf filename name) : ScanPage k c size rootBuf filename name :=
  ⟨h.page, h.pageApart, fun _ => h.string, fun _ => h.stringApart, h.size_le, h.short⟩

/-- A round at a used entry inside the page: the inode if the entry has the
name, and otherwise the scan goes on at the next entry. -/
theorem ext2ReadDirectory_round {fuel size off : Nat}
    {rootBuf filename : UInt32} {name : List UInt8}
    (hd : DirPage k c size rootBuf filename name) (hfree : 0 < freeCount k.kMemoryMap)
    (hne : filename ≠ 0) (h0 : 0 ∉ name) (hfuel : name.length < fuel)
    {e : DirEntry} (he : entryAt c off = e) (hused : e.inode ≠ 0)
    (hin : off + 8 + e.name.length ≤ size) :
    ∃ k', Leaves (Span (scratch k.kMemoryMap) 0x1000) k k' ∧ ∀ rounds,
      (ext2ReadDirectoryLoop fuel filename (rounds + 1)
          (rootBuf + UInt32.ofNat off)).run k =
        if cString e.name = name then .ok e.inode k'
        else (ext2ReadDirectoryLoop fuel filename rounds
          (rootBuf + UInt32.ofNat (off + e.size))).run k' := by
  obtain ⟨k', hleave, hround⟩ := ext2ReadDirectoryReads_round hd.scan hfree h0 hfuel he hused
    ⟨by omega, .inr hin⟩
  refine ⟨k', hleave, fun rounds => ?_⟩
  rw [ext2ReadDirectoryLoop_eq, ext2ReadDirectoryLoop_eq]
  by_cases hmatch : cString e.name = name
  · rw [if_pos hmatch, map_eq_pure_bind,
      Exec.bind_ok ((hround rounds).trans (if_pos ⟨hne, hmatch⟩))]
    rfl
  · rw [if_neg hmatch]
    refine (Exec.map_run_congr Prod.fst
      ((hround rounds).trans (if_neg fun hits => hmatch hits.2))).trans ?_
    rw [Functor.map_map]

/-- The scan of a page: the inode of the first entry of the name that it meets,
or 0. -/
theorem ext2ReadDirectoryLoop_ok {fuel rounds n off : Nat} {rootBuf filename : UInt32}
    {name : List UInt8} {es : List DirEntry} (hd : DirPage k c 0x1000 rootBuf filename name)
    (hfree : 0 < freeCount k.kMemoryMap) (hne : filename ≠ 0) (h0 : 0 ∉ name)
    (hfuel : name.length < fuel) (hscan : scanEntries c n off = some es)
    (hn : n ≤ rounds) :
    ∃ k', Leaves (Span (scratch k.kMemoryMap) 0x1000) k k' ∧
      (ext2ReadDirectoryLoop fuel filename rounds (rootBuf + UInt32.ofNat off)).run k =
        .ok (((es.find? fun e => cString e.name = name).map DirEntry.inode).getD 0)
          k' := by
  induction n generalizing rounds off es k with
  | zero => cases hscan
  | succ n ih =>
      obtain ⟨rounds, rfl⟩ := Nat.exists_eq_add_one_of_ne_zero (n := rounds) (by omega)
      rw [scanEntries] at hscan
      by_cases hout : 0x1000 < off + 4
      · rw [if_pos hout] at hscan
        cases hscan
      rw [if_neg hout] at hscan
      generalize he : entryAt c off = e at *
      by_cases hused : e.inode = 0
      · rw [if_pos hused] at hscan
        injection hscan with hscan
        subst hscan
        refine ⟨k, Leaves.refl k, ?_⟩
        rw [ext2ReadDirectoryLoop, Exec.bind_ok (read32_run _ _),
          load_inode hd.page (by omega), he, if_pos hused]
        rfl
      rw [if_neg hused] at hscan
      by_cases hlong : 0x1000 < off + 8 + e.name.length
      · rw [if_pos hlong] at hscan
        cases hscan
      rw [if_neg hlong] at hscan
      obtain ⟨rest, hrest, rfl⟩ := Option.map_eq_some_iff.mp hscan
      obtain ⟨k₁, hleave₁, hround⟩ := ext2ReadDirectory_round hd hfree hne h0 hfuel
        he hused (by omega)
      rw [hround rounds]
      by_cases hmatch : cString e.name = name
      · rw [if_pos hmatch, List.find?_cons_of_pos (by simp [hmatch])]
        exact ⟨k₁, hleave₁, rfl⟩
      · rw [if_neg hmatch, List.find?_cons_of_neg (by simp [hmatch])]
        obtain ⟨k₂, hleave₂, hrun⟩ := ih (hd.congr hleave₁)
          (by rw [hleave₁.kMemoryMap]; exact hfree) hrest (show n ≤ rounds by omega)
        rw [hleave₁.kMemoryMap] at hleave₂
        exact ⟨k₂, hleave₁.trans hleave₂, hrun⟩

/-! ## A block of entries -/

variable {size off : Nat} {dir filename : UInt32} {name : List UInt8}

/-- Used entries of other names are passed over. -/
theorem ext2ReadDirectoryLoop_skip {cap n fuel : Nat} {pre rest : List DirEntry}
    (hd : DirPage k c cap dir filename name) (hfree : 0 < freeCount k.kMemoryMap)
    (hne : filename ≠ 0) (h0 : 0 ∉ name) (hfuel : name.length < fuel) (hcap : size ≤ cap)
    (hparse : parseEntries c 0 size n off = some (pre ++ rest))
    (hpre : ∀ e ∈ pre, e.used = true ∧ DirEntry.names name e = false) :
    ∃ n' off' k', parseEntries c 0 size n' off' = some rest ∧
      Leaves (Span (scratch k.kMemoryMap) 0x1000) k k' ∧
      ∀ rounds, (ext2ReadDirectoryLoop fuel filename (pre.length + rounds)
          (dir + UInt32.ofNat off)).run k =
        (ext2ReadDirectoryLoop fuel filename rounds (dir + UInt32.ofNat off')).run k' := by
  induction pre generalizing n off k with
  | nil =>
      refine ⟨n, off, k, hparse, Leaves.refl k, fun rounds => ?_⟩
      rw [List.length_nil, Nat.zero_add]
  | cons e pre ih =>
      obtain ⟨n₁, he, hfits, hrest⟩ := parseEntries_cons hparse
      obtain ⟨hused, hother⟩ := hpre e List.mem_cons_self
      obtain ⟨hname, hroom, hstring⟩ := hfits
      have hinode : e.inode ≠ 0 := of_decide_eq_true hused
      have hmiss : cString e.name ≠ name := by
        rw [cString_eq (hstring hinode)]
        rintro rfl
        rw [DirEntry.names, hused, Bool.true_and, decide_eq_false_iff_not] at hother
        exact hother rfl
      rw [Nat.zero_add] at he
      obtain ⟨k₁, hleave₁, hround⟩ := ext2ReadDirectory_round hd hfree hne h0 hfuel he
        hinode (by omega)
      obtain ⟨n', off', k₂, hparse₂, hleave₂, hskip⟩ := ih (hd.congr hleave₁)
        (by rw [hleave₁.kMemoryMap]; exact hfree) hrest
        fun e' he' => hpre e' (List.mem_cons_of_mem _ he')
      rw [hleave₁.kMemoryMap] at hleave₂
      refine ⟨n', off', k₂, hparse₂, hleave₁.trans hleave₂, fun rounds => ?_⟩
      rw [List.length_cons, Nat.add_right_comm, hround, if_neg hmiss, hskip]

/-- The scan comes to an end, and answers `r`. -/
def AnswersInode (k : Kernel Disk) (filename dir r : UInt32) : Prop :=
  ∃ n, ∀ fuel, n ≤ fuel → ∃ k', (ext2ReadDirectory fuel filename dir).run k = .ok r k'

theorem AnswersInode.unique {r r' : UInt32} (h : AnswersInode k filename dir r)
    (h' : AnswersInode k filename dir r') : r = r' := by
  obtain ⟨n, hn⟩ := h
  obtain ⟨n', hn'⟩ := h'
  obtain ⟨k₁, hrun⟩ := hn (max n n') (Nat.le_max_left _ _)
  obtain ⟨k₂, hrun'⟩ := hn' (max n n') (Nat.le_max_right _ _)
  rw [hrun] at hrun'
  injection hrun'

/-- The skipped entries, and what the scan answers from there on. -/
theorem answersInode_of_skip {cap n m : Nat} {r : UInt32} {pre rest : List DirEntry}
    (hd : DirPage k c cap dir filename name) (hfree : 0 < freeCount k.kMemoryMap)
    (hne : filename ≠ 0) (h0 : 0 ∉ name) (hcap : size ≤ cap)
    (hparse : parseEntries c 0 size n 0 = some (pre ++ rest))
    (hpre : ∀ e ∈ pre, e.used = true ∧ DirEntry.names name e = false)
    (hrest : ∀ n' off' fuel rounds k₁, parseEntries c 0 size n' off' = some rest →
      DirPage k₁ c cap dir filename name → 0 < freeCount k₁.kMemoryMap →
      name.length < fuel → m ≤ rounds → ∃ k₂,
        (ext2ReadDirectoryLoop fuel filename rounds (dir + UInt32.ofNat off')).run k₁ =
          .ok r k₂) :
    AnswersInode k filename dir r := by
  refine ⟨pre.length + m + name.length + 1, fun fuel hfuel => ?_⟩
  obtain ⟨n', off', k₁, hparse₁, hleave₁, hskip⟩ := ext2ReadDirectoryLoop_skip hd hfree hne h0
    (show name.length < fuel by omega) hcap hparse hpre
  obtain ⟨k₂, hrun⟩ := hrest n' off' fuel (fuel - pre.length) k₁ hparse₁ (hd.congr hleave₁)
    (by rw [hleave₁.kMemoryMap]; exact hfree) (by omega) (by omega)
  have hstart := hskip (fuel - pre.length)
  rw [show pre.length + (fuel - pre.length) = fuel by omega,
    show UInt32.ofNat 0 = 0 from rfl, UInt32.add_zero] at hstart
  exact ⟨k₂, hstart.trans hrun⟩

/-- The inode of the first used entry of the name, or 0. -/
def firstNamed (es : List DirEntry) (name : List UInt8) : UInt32 :=
  ((es.find? (DirEntry.names name)).map DirEntry.inode).getD 0

/-- The name is met before the first unused entry, or it is not there and there
is an unused entry. -/
def Decided (es : List DirEntry) (name : List UInt8) : Prop :=
  (∃ e ∈ es.takeWhile DirEntry.used, DirEntry.names name e = true) ∨
    (∀ e ∈ es, DirEntry.names name e = false) ∧ ∃ e ∈ es, e.used = false

variable {n : Nat} {es : List DirEntry}

/-- A name before the first unused entry is found. -/
theorem answersInode_listed (hparse : parseEntries c 0 size n 0 = some es)
    (hd : DirPage k c size dir filename name) (hfree : 0 < freeCount k.kMemoryMap)
    (hne : filename ≠ 0) (h0 : 0 ∉ name)
    (hlisted : ∃ e ∈ es.takeWhile DirEntry.used, DirEntry.names name e = true) :
    AnswersInode k filename dir (firstNamed es name) := by
  obtain ⟨e, he⟩ := Option.isSome_iff_exists.mp (List.find?_isSome.mpr hlisted)
  obtain ⟨hnames, pre, post, hsplit, hpre⟩ := List.find?_eq_some_iff_append.mp he
  have hall : es = pre ++ e :: (post ++ es.dropWhile DirEntry.used) := by
    rw [← List.cons_append, ← List.append_assoc, ← hsplit, List.takeWhile_append_dropWhile]
  have hused : ∀ a ∈ pre ++ e :: post, a.used = true := fun a ha =>
    List.mem_takeWhile_imp (by rw [hsplit]; exact ha)
  have hfirst : firstNamed es name = e.inode := by
    rw [firstNamed, ← List.takeWhile_append_dropWhile (p := DirEntry.used) (l := es),
      List.find?_append, he]
    rfl
  rw [hall] at hparse
  rw [hfirst]
  refine answersInode_of_skip (m := 1) hd hfree hne h0 (Nat.le_refl _) hparse
    (fun a ha => ⟨hused a (List.mem_append_left _ ha), by simpa using hpre a ha⟩) ?_
  intro n' off' fuel rounds k₁ hparse₁ hd₁ hfree₁ hfuel hrounds
  obtain ⟨_, hentry, ⟨hname, hroom, hstring⟩, -⟩ := parseEntries_cons hparse₁
  obtain ⟨rounds, rfl⟩ := Nat.exists_eq_add_one_of_ne_zero (n := rounds) (by omega)
  simp only [DirEntry.names, Bool.and_eq_true, decide_eq_true_eq] at hnames
  have hinode : e.inode ≠ 0 := of_decide_eq_true hnames.1
  rw [Nat.zero_add] at hentry
  obtain ⟨k₂, -, hrun⟩ := ext2ReadDirectory_round hd₁ hfree₁ hne h0 hfuel hentry hinode
    (by omega)
  exact ⟨k₂, by rw [hrun, if_pos ((cString_eq (hstring hinode)).trans hnames.2)]⟩

/-- At the first unused entry the scan stops with 0. -/
theorem answersInode_unused (hparse : parseEntries c 0 size n 0 = some es)
    (hd : DirPage k c size dir filename name) (hfree : 0 < freeCount k.kMemoryMap)
    (hne : filename ≠ 0) (h0 : 0 ∉ name)
    (hmiss : ∀ e ∈ es.takeWhile DirEntry.used, DirEntry.names name e = false)
    (hunused : ∃ e ∈ es, e.used = false) : AnswersInode k filename dir 0 := by
  have hsplit := List.takeWhile_append_dropWhile (p := DirEntry.used) (l := es)
  have hstop := List.head?_dropWhile_not DirEntry.used es
  cases hdrop : es.dropWhile DirEntry.used with
  | nil =>
      obtain ⟨e, he, hfalse⟩ := hunused
      rw [hdrop, List.append_nil] at hsplit
      rw [← hsplit] at he
      rw [List.mem_takeWhile_imp he] at hfalse
      cases hfalse
  | cons u rest =>
      rw [hdrop] at hsplit hstop
      have hzero : u.inode = 0 := of_decide_eq_false hstop |> not_not.mp
      rw [← hsplit] at hparse
      refine answersInode_of_skip (m := 1) hd hfree hne h0 (Nat.le_refl _) hparse
        (fun a ha => ⟨List.mem_takeWhile_imp ha, hmiss a ha⟩) ?_
      intro n' off' fuel rounds k₁ hparse₁ hd₁ hfree₁ hfuel hrounds
      obtain ⟨_, hentry, ⟨hname, hroom, -⟩, -⟩ := parseEntries_cons hparse₁
      obtain ⟨rounds, rfl⟩ := Nat.exists_eq_add_one_of_ne_zero (n := rounds) (by omega)
      rw [Nat.zero_add] at hentry
      refine ⟨k₁, ?_⟩
      rw [ext2ReadDirectoryLoop, Exec.bind_ok (read32_run _ _),
        load_inode hd₁.page (by omega), hentry, if_pos hzero]
      rfl

/-- At an entry that is its own successor the scan stays for good. -/
theorem ext2ReadDirectoryLoop_stuck {cap fuel : Nat} {e : DirEntry}
    (hd : DirPage k c cap dir filename name) (hfree : 0 < freeCount k.kMemoryMap)
    (hne : filename ≠ 0) (h0 : 0 ∉ name) (hfuel : name.length < fuel)
    (he : entryAt c off = e) (hused : e.inode ≠ 0) (hsize : e.size = 0)
    (hmiss : cString e.name ≠ name) (hin : off + 8 + e.name.length ≤ cap) (rounds : Nat) :
    ∃ k', (ext2ReadDirectoryLoop fuel filename rounds (dir + UInt32.ofNat off)).run k =
      .error .fuel k' := by
  induction rounds generalizing k with
  | zero => exact ⟨k, rfl⟩
  | succ rounds ih =>
      obtain ⟨k₁, hleave₁, hround⟩ := ext2ReadDirectory_round hd hfree hne h0 hfuel he hused hin
      obtain ⟨k₂, hrun⟩ := ih (hd.congr hleave₁) (by rw [hleave₁.kMemoryMap]; exact hfree)
      exact ⟨k₂, by rw [hround, if_neg hmiss, hsize, Nat.add_zero, hrun]⟩

/-- A state with other bytes behind the block, which are nobody's. -/
theorem dirPage_trailed (hd : DirPage k c size dir filename name)
    (hroom : ∀ a, Span (dir + UInt32.ofNat size) 8 a → ¬ Span dir size a ∧
      ¬ Span filename (name ++ [0]).length a ∧ ¬ Span (scratch k.kMemoryMap) 0x1000 a) :
    DirPage (withTrailer k c size dir) (trailed c size) (size + 8) dir filename name := by
  have hsize := hd.size_le
  have hmax : size + 8 ≤ 2 ^ 32 := by
    by_contra hover
    have hwrap : dir + UInt32.ofNat size + UInt32.ofNat (2 ^ 32 - size) = dir := by
      rw [UInt32.add_assoc, ← UInt32.ofNat_add, show size + (2 ^ 32 - size) = 2 ^ 32 by omega]
      exact UInt32.add_zero dir
    have hin := span_add (p := dir + UInt32.ofNat size) (n := 8) (i := 2 ^ 32 - size)
      (by omega) (by omega)
    rw [hwrap] at hin
    exact (hroom dir hin).1 (span_self (by omega))
  constructor
  · intro i hi
    rw [Nat.zero_add, withTrailer_mem]
    by_cases hblock : i < size
    · rw [Mem.write_off fun h => (hroom _ h).1 (span_add hblock hsize), hd.page i hblock,
        Nat.zero_add, trailed, if_pos hblock]
    · rw [show i = size + (i - size) by omega, UInt32.ofNat_add, ← UInt32.add_assoc,
        Mem.write_at (by omega) (by omega)]
  · intro a ha hs
    obtain ⟨i, hi, rfl⟩ := ha.exists_offset
    by_cases hblock : i < size
    · exact hd.pageApart _ (span_add hblock hsize) hs
    · refine (hroom _ ?_).2.2 hs
      rw [show i = size + (i - size) by omega, UInt32.ofNat_add, ← UInt32.add_assoc]
      exact span_add (by omega) (by omega)
  · refine hd.string.congr hd.short fun a ha => ?_
    rw [withTrailer_mem]
    exact Mem.write_off fun h => (hroom a h).2.1 ha
  · exact hd.stringApart
  · exact hmax
  · exact hd.short

/-- With used entries of other names only, the scan leaves the block, and what
lies behind it can make the answer wrong. -/
theorem not_answersInode_trailed (hparse : parseEntries c 0 size n 0 = some es)
    (hd : DirPage k c size dir filename name) (hfree : 0 < freeCount k.kMemoryMap)
    (hne : filename ≠ 0) (h0 : 0 ∉ name)
    (hall : ∀ e ∈ es, e.used = true ∧ DirEntry.names name e = false)
    (hroom : ∀ a, Span (dir + UInt32.ofNat size) 8 a → ¬ Span dir size a ∧
      ¬ Span filename (name ++ [0]).length a ∧ ¬ Span (scratch k.kMemoryMap) 0x1000 a) :
    ¬ AnswersInode (withTrailer k c size dir) filename dir 0 := by
  have hd' := dirPage_trailed hd hroom
  have hparse' : parseEntries (trailed c size) 0 size n 0 = some (es ++ []) := by
    rw [List.append_nil]
    exact parseEntries_congr hparse fun i hi => if_pos hi
  by_cases hempty : name = []
  · -- the entry behind the block has this name
    subst hempty
    have hone : AnswersInode (withTrailer k c size dir) filename dir 1 := by
      refine answersInode_of_skip (m := 1) hd' hfree hne h0 (Nat.le_add_right _ _) hparse'
        hall ?_
      intro n' off' fuel rounds k₁ hparse₁ hd₁ hfree₁ hfuel hrounds
      obtain ⟨rounds, rfl⟩ := Nat.exists_eq_add_one_of_ne_zero (n := rounds) (by omega)
      obtain ⟨k₂, -, hrun⟩ := ext2ReadDirectory_round hd₁ hfree₁ hne h0 hfuel
        (entryAt_trailed c size) (by decide) (Nat.le_refl _)
      refine ⟨k₂, ?_⟩
      rw [parseEntries_nil hparse₁, hrun]
      exact if_pos (cString_eq (l := []) List.not_mem_nil)
    exact fun hzero => absurd (hone.unique hzero) (by decide)
  · rintro ⟨m, hm⟩
    have hfuel : name.length < m + es.length + name.length + 1 := by omega
    obtain ⟨k', hrun⟩ := hm (m + es.length + name.length + 1) (by omega)
    obtain ⟨n', off', k₁, hparse₁, hleave₁, hskip⟩ := ext2ReadDirectoryLoop_skip hd' hfree
      hne h0 hfuel (Nat.le_add_right _ _) hparse' hall
    rw [parseEntries_nil hparse₁] at hskip
    obtain ⟨k₂, hstuck⟩ := ext2ReadDirectoryLoop_stuck (hd'.congr hleave₁)
      (by rw [hleave₁.kMemoryMap]; exact hfree) hne h0 hfuel (entryAt_trailed c size)
      (by decide) rfl (fun h => hempty h.symm) (Nat.le_refl _)
      (m + name.length + 1)
    have hstart := hskip (m + name.length + 1)
    rw [show es.length + (m + name.length + 1) = m + es.length + name.length + 1 by omega,
      show UInt32.ofNat 0 = 0 from rfl, UInt32.add_zero, hstuck] at hstart
    rw [ext2ReadDirectory, hstart] at hrun
    cases hrun

/-- On a block of entries that fill it, with any name: where the name is decided
inside the block, the answer is the inode of the first used entry of the name, or
0. Where it is not, the answer is another one, for some bytes behind the block. -/
theorem ext2ReadDirectory_iff (hparse : parseEntries c 0 size n 0 = some es)
    (hd : DirPage k c size dir filename name) (hfree : 0 < freeCount k.kMemoryMap)
    (hne : filename ≠ 0) (h0 : 0 ∉ name) :
    (Decided es name → AnswersInode k filename dir (firstNamed es name)) ∧
    (¬ Decided es name →
      (∀ a, Span (dir + UInt32.ofNat size) 8 a → ¬ Span dir size a ∧
        ¬ Span filename (name ++ [0]).length a ∧
        ¬ Span (scratch k.kMemoryMap) 0x1000 a) →
      ∃ m : Mem, (∀ a, ¬ Span (dir + UInt32.ofNat size) 8 a → m a = k.mem a) ∧
        ¬ AnswersInode { k with mem := m } filename dir (firstNamed es name)) := by
  have hnone : (∀ e ∈ es, DirEntry.names name e = false) → firstNamed es name = 0 := by
    intro hmiss
    rw [firstNamed, List.find?_eq_none.mpr fun e he => by rw [hmiss e he]; exact Bool.false_ne_true]
    rfl
  constructor
  · rintro (hlisted | ⟨hmiss, hunused⟩)
    · exact answersInode_listed hparse hd hfree hne h0 hlisted
    · rw [hnone hmiss]
      exact answersInode_unused hparse hd hfree hne h0
        (fun e he => hmiss e (List.takeWhile_subset _ he)) hunused
  · intro hnot hroom
    rw [Decided, not_or, not_and] at hnot
    obtain ⟨hlisted, hstop⟩ := hnot
    have hmiss : ∀ e ∈ es.takeWhile DirEntry.used, DirEntry.names name e = false :=
      fun e he => Bool.eq_false_iff.mpr fun h => hlisted ⟨e, he, h⟩
    by_cases hthere : ∀ e ∈ es, DirEntry.names name e = false
    · -- the scan meets no unused entry in the block
      have hused : ∀ e ∈ es, e.used = true ∧ DirEntry.names name e = false := fun e he =>
        ⟨Bool.of_not_eq_false fun h => hstop hthere ⟨e, he, h⟩, hthere e he⟩
      rw [hnone hthere]
      exact ⟨(withTrailer k c size dir).mem, fun a ha => by
          rw [withTrailer_mem]
          exact Mem.write_off ha,
        not_answersInode_trailed hparse hd hfree hne h0 hused hroom⟩
    · -- the scan has stopped before the name
      simp only [not_forall, Bool.not_eq_false] at hthere
      obtain ⟨e, he, hnames⟩ := hthere
      have hunused : ∃ e ∈ es, e.used = false := by
        by_contra hall
        have hsame : es.takeWhile DirEntry.used = es := List.takeWhile_eq_self_iff.mpr
          fun a ha => Bool.of_not_eq_false fun h => hall ⟨a, ha, h⟩
        rw [← hsame] at he
        rw [hmiss e he] at hnames
        cases hnames
      have hfound : firstNamed es name ≠ 0 := by
        obtain ⟨f, hf⟩ := Option.isSome_iff_exists.mp (List.find?_isSome.mpr ⟨e, he, hnames⟩)
        have hfnames := List.find?_some hf
        simp only [DirEntry.names, DirEntry.used, Bool.and_eq_true, decide_eq_true_eq] at hfnames
        rw [firstNamed, hf]
        exact hfnames.1
      refine ⟨k.mem, fun _ _ => rfl, fun hanswer => hfound ?_⟩
      exact hanswer.unique (answersInode_unused hparse hd hfree hne h0 hmiss hunused)

end

/-- A kernel that was just loaded, with a directory block at `0x1000` and a name at
`0x3000`. -/
def blockState (c : Image) (name : List UInt8) : Kernel Disk :=
  { Kernel.zero (Disk.blank 1 0) with
    mem := (Mem.write (fun _ => 0) 0x1000 1024 c).write 0x3000 (name.length + 1) fun i =>
      (name ++ [0]).getD i 0 }

theorem blockState_mem {c : Image} {name : List UInt8} : (blockState c name).mem =
    (Mem.write (fun _ => 0) 0x1000 1024 c).write 0x3000 (name.length + 1) fun i =>
      (name ++ [0]).getD i 0 := rfl

theorem blockState_dirPage [Layout] {c : Image} {name : List UInt8}
    (hshort : name.length < 0x1000) :
    DirPage (blockState c name) c 1024 0x1000 0x3000 name := by
  have hfree : 0 < freeCount (blockState c name).kMemoryMap :=
    show 0 < freeCount (Kernel.zero ()).kMemoryMap by simp
  have hlen : (name ++ [0]).length = name.length + 1 := List.length_append
  constructor
  · intro i hi
    have hoff : ¬ Span 0x3000 (name.length + 1) (0x1000 + UInt32.ofNat i) := by
      rw [span_iff (by rw [show (0x3000 : UInt32).toNat = 0x3000 from rfl]; omega),
        UInt32.toNat_add, UInt32.toNat_ofNat', show (0x3000 : UInt32).toNat = 0x3000 from rfl,
        show (0x1000 : UInt32).toNat = 0x1000 from rfl]
      omega
    rw [Nat.zero_add, blockState_mem, Mem.write_off hoff, Mem.write_at hi (by decide)]
  · exact clear_low hfree (by decide)
  · rw [blockState_mem]
    exact bytesAt_write_getD (by omega) (by omega)
  · rw [hlen]
    exact clear_low hfree (by rw [show (0x3000 : UInt32).toNat = 0x3000 from rfl]; omega)
  · decide
  · omega

/-- A block of two entries: `.` with inode 2, and `ab` with inode 11. -/
def twoEntries : Image := .ofBytes
  [(0, 2), (5, 2), (6, 1), (8, 46), (512, 11), (517, 2), (518, 2), (520, 97), (521, 98)]

theorem twoEntries_entries : parseEntries twoEntries 0 1024 3 0 =
    some [⟨2, 512, [46]⟩, ⟨11, 512, [97, 98]⟩] := by decide

/-- The name `ab` in this block. -/
theorem ext2ReadDirectory_iff_second : ∃ _ : Layout,
    AnswersInode (blockState twoEntries [97, 98]) 0x3000 0x1000 11 := by
  let _ := bootLayout
  have hfree : 0 < freeCount (Kernel.zero ()).kMemoryMap := by simp
  have hanswer := (ext2ReadDirectory_iff twoEntries_entries
    (blockState_dirPage (show [97, 98].length < 0x1000 by decide)) hfree (by decide)
      (by decide)).1 (.inl (by decide))
  exact ⟨bootLayout, hanswer⟩

/-- A block of two entries: an unused one that was `x`, and `a` with inode 11. -/
def deletedFirst : Image := .ofBytes
  [(5, 2), (6, 1), (8, 120), (512, 11), (517, 2), (518, 1), (520, 97)]

theorem deletedFirst_entries : parseEntries deletedFirst 0 1024 3 0 =
    some [⟨0, 512, [120]⟩, ⟨11, 512, [97]⟩] := by decide

/-- The name `a`: the scan stops at the unused entry before it. -/
theorem ext2ReadDirectory_unused : ∃ _ : Layout,
    firstNamed [⟨0, 512, [120]⟩, ⟨11, 512, [97]⟩] [97] = 11 ∧
      AnswersInode (blockState deletedFirst [97]) 0x3000 0x1000 0 ∧
      ¬ AnswersInode (blockState deletedFirst [97]) 0x3000 0x1000 11 := by
  let _ := bootLayout
  have hfree : 0 < freeCount (Kernel.zero ()).kMemoryMap := by simp
  have hzero : AnswersInode (blockState deletedFirst [97]) 0x3000 0x1000 0 :=
    answersInode_unused deletedFirst_entries (blockState_dirPage (by decide)) hfree
      (by decide) (by decide) (by decide) (by decide)
  refine ⟨bootLayout, by decide, hzero, fun heleven => ?_⟩
  exact absurd (hzero.unique heleven) (by decide)

end Bedrock
