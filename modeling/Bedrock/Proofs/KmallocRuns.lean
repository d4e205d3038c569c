import Bedrock.Lib.Run
import Bedrock.Kernel.Kmalloc

/-!
# Runs of the page allocator

A heap is the kernel state together with the allocations its callers hold.
A run is any sequence of `kmalloc` and `kfree` calls in which a caller asks
for at least one block and gives back only what it holds, with its own
address and count.

The search of `kmalloc` does not start over at a used block, so it hands out
the `n` blocks behind the first free one whether or not they are free. That
is harmless exactly when the first `n` free blocks lie next to each other
(`kmalloc_free_iff`). In a run that meets this before every `kmalloc` no two
callers ever hold the same block (`live_disjoint_run`), and
`kmalloc_overlap` is the shortest run that does not.

In any run at all, overlaps or not, the map marks no block that nobody holds,
every access to it is inside it, and a `kmalloc(n)` for which there are `n` free
blocks in a row returns (`owned_run`).
-/

namespace Bedrock

open Lib

variable {δ : Type}

/-- What a caller of `kmalloc` holds: the address and its block count. -/
structure Alloc where
  address : UInt32
  blockCount : UInt32
deriving DecidableEq

/-- The kernel and the allocations that are live in it. -/
structure Heap (δ : Type) where
  kernel : Kernel δ
  live : List Alloc

inductive HeapOp where
  | kmalloc (blockCount address : UInt32)
  | kfree (a : Alloc)

section

variable [Layout]

/-- The first block of an allocation, as `kfree` computes it. -/
def Alloc.start (a : Alloc) : Nat :=
  ((a.address - Layout.kmallocMemory) / blockSize).toNat

/-- Block `i` belongs to the allocation. -/
def Alloc.Owns (a : Alloc) (i : Nat) : Prop :=
  a.start ≤ i ∧ i < a.start + a.blockCount.toNat

/-- One call. A `kfree` gives back a live allocation, which is live no more. -/
inductive HeapStep : Heap δ → HeapOp → Heap δ → Prop
  | kmalloc {h : Heap δ} {n p : UInt32} {k' : Kernel δ} : 1 ≤ n.toNat →
      (kmalloc n).run h.kernel = .ok p k' →
      HeapStep h (.kmalloc n p) ⟨k', ⟨p, n⟩ :: h.live⟩
  | kfree {h : Heap δ} {a : Alloc} {k' : Kernel δ} : a ∈ h.live →
      (kfree a.address a.blockCount).run h.kernel = .ok () k' →
      HeapStep h (.kfree a) ⟨k', h.live.erase a⟩

/-- The all-zero map, before anything was handed out. -/
def Heap.Fresh (h : Heap δ) : Prop :=
  (∀ i (hi : i < kMemoryMapEntries), h.kernel.kMemoryMap[i] = 0) ∧ h.live = []

/-- No block has two owners, and every owned block is a marked block of the
map. -/
structure Heap.Exclusive (h : Heap δ) : Prop where
  disjoint : h.live.Pairwise fun a b => ∀ i, ¬ (a.Owns i ∧ b.Owns i)
  inside : ∀ a ∈ h.live, a.start + a.blockCount.toNat ≤ kMemoryMapEntries
  marked : ∀ a ∈ h.live, ∀ i (hi : i < kMemoryMapEntries), a.Owns i →
    h.kernel.kMemoryMap[i] = 1

end

/-- The blocks from the lowest free one on, `n` of them or up to the end of
the map, are all free. -/
def Contiguous (map : Vector UInt8 kMemoryMapEntries) (n : Nat) : Prop :=
  ∀ s j (hs : s < kMemoryMapEntries) (hj : j < kMemoryMapEntries),
    map[s] = 0 → (∀ i (hi : i < s), map[i] ≠ 0) →
    s ≤ j → j < s + n → map[j] = 0

/-- The condition on the state before a call under which the allocator does
its job: at a `kmalloc(n)` the first `n` free blocks are next to each other. -/
def KmallocGuard (h : Heap δ) : HeapOp → Prop
  | .kmalloc n _ => Contiguous h.kernel.kMemoryMap n.toNat
  | .kfree _ => True

theorem contiguous_iff {map : Vector UInt8 kMemoryMapEntries} {n : Nat}
    (h : 0 < freeCount map) :
    Contiguous map n ↔ ∀ j (hj : j < kMemoryMapEntries),
      firstFree map ≤ j → j < firstFree map + n → map[j] = 0 := by
  have hlt := firstFree_lt h
  constructor
  · intro hc j hj hle hjn
    exact hc _ j hlt hj (firstFree_free hlt)
      (fun i hi => used_before_firstFree (by omega) hi) hle hjn
  · intro hf s j hs hj hs0 hbelow hle hjn
    have heq : s = firstFree map := by
      rcases Nat.lt_trichotomy s (firstFree map) with hl | he | hg
      · exact absurd hs0 (used_before_firstFree hs hl)
      · exact he
      · exact absurd (firstFree_free hlt) (hbelow _ hg)
    subst heq
    exact hf j hj hle hjn

/-- A single block is next to itself. -/
theorem contiguous_one (map : Vector UInt8 kMemoryMapEntries) : Contiguous map 1 := by
  intro s j hs hj hs0 hbelow hle hlt
  obtain rfl : s = j := by omega
  exact hs0

section

variable [Layout]

/-- What `kmalloc` hands out starts at the first free block and lies inside
the map. -/
theorem alloc_of_kmalloc {n p : UInt32} {k k' : Kernel δ} (hn : 1 ≤ n.toNat)
    (h : (kmalloc n).run k = .ok p k') :
    (Alloc.mk p n).start = firstFree k.kMemoryMap ∧
      firstFree k.kMemoryMap + n.toNat ≤ kMemoryMapEntries ∧
      0 < freeCount k.kMemoryMap := by
  obtain ⟨hle, hp, -, -⟩ := kmalloc_inv hn h
  have hroom := firstFree_add_freeCount k.kMemoryMap
  refine ⟨?_, by omega, by omega⟩
  subst hp
  exact blockAddr_div_self (by omega)

/-- A call of `kmalloc` hands out free blocks only if, and whenever, the first
free blocks of the map are next to each other. -/
theorem kmalloc_free_iff {n p : UInt32} {k k' : Kernel δ} (hn : 1 ≤ n.toNat)
    (h : (kmalloc n).run k = .ok p k') :
    (∀ i (hi : i < kMemoryMapEntries), (Alloc.mk p n).Owns i →
      k.kMemoryMap[i] = 0) ↔ Contiguous k.kMemoryMap n.toNat := by
  obtain ⟨hstart, -, hpos⟩ := alloc_of_kmalloc hn h
  rw [contiguous_iff hpos]
  constructor
  · intro hfree j hj hle hlt
    exact hfree j hj ⟨by rw [hstart]; exact hle, by rw [hstart]; exact hlt⟩
  · intro hc i hi hown
    rw [Alloc.Owns, hstart] at hown
    exact hc i hi hown.1 hown.2

theorem exclusive_fresh {h : Heap δ} (hf : h.Fresh) : h.Exclusive := by
  have hnone : ∀ a, a ∉ h.live := by
    intro a ha
    rw [hf.2] at ha
    cases ha
  refine ⟨?_, fun a ha => absurd ha (hnone a), fun a ha => absurd ha (hnone a)⟩
  rw [hf.2]
  exact List.Pairwise.nil

/-- A `kmalloc` that meets the condition takes no block a caller holds. -/
theorem exclusive_kmalloc {h : Heap δ} {n p : UInt32} {k' : Kernel δ}
    (hx : h.Exclusive) (hn : 1 ≤ n.toNat)
    (hrun : (kmalloc n).run h.kernel = .ok p k')
    (hc : Contiguous h.kernel.kMemoryMap n.toNat) :
    (Heap.mk k' (⟨p, n⟩ :: h.live)).Exclusive := by
  obtain ⟨-, -, hmap, -⟩ := kmalloc_inv hn hrun
  obtain ⟨hstart, hfits, -⟩ := alloc_of_kmalloc hn hrun
  have hfree := (kmalloc_free_iff hn hrun).mpr hc
  constructor
  · refine List.Pairwise.cons ?_ hx.disjoint
    rintro b hb i ⟨hown, hbi⟩
    have hi : i < kMemoryMapEntries := Nat.lt_of_lt_of_le hbi.2 (hx.inside b hb)
    have hone := hx.marked b hb i hi hbi
    rw [hfree i hi hown] at hone
    exact absurd hone (by decide)
  · intro a ha
    rcases List.mem_cons.mp ha with rfl | hmem
    · rw [hstart]
      exact hfits
    · exact hx.inside a hmem
  · intro a ha i hi hai
    simp only [hmap, getElem_mapRange]
    rcases List.mem_cons.mp ha with rfl | hmem
    · rw [Alloc.Owns, hstart] at hai
      exact if_pos hai
    · rw [hx.marked a hmem i hi hai, ite_self]

/-- Giving back an allocation clears only its own blocks. -/
theorem exclusive_kfree {h : Heap δ} {a : Alloc} {k' : Kernel δ}
    (hx : h.Exclusive) (ha : a ∈ h.live)
    (hrun : (kfree a.address a.blockCount).run h.kernel = .ok () k') :
    (Heap.mk k' (h.live.erase a)).Exclusive := by
  have hperm := List.perm_cons_erase ha
  have hpair := (hperm.pairwise_iff
    fun {b c} hbc i hcb => hbc i hcb.symm).mp hx.disjoint
  rw [List.pairwise_cons] at hpair
  rw [kfree_run (hx.inside a ha)] at hrun
  injection hrun with _ hk
  subst hk
  refine ⟨hpair.2, fun b hb => hx.inside b (List.mem_of_mem_erase hb), ?_⟩
  intro b hb i hi hbi
  have hoff : ¬ a.Owns i := fun hown => hpair.1 b hb i ⟨hown, hbi⟩
  rw [getElem_mapRange]
  exact (if_neg hoff).trans (hx.marked b (List.mem_of_mem_erase hb) i hi hbi)

theorem exclusive_step {h h' : Heap δ} {op : HeapOp} (hx : h.Exclusive)
    (hs : Guarded HeapStep KmallocGuard h op h') : h'.Exclusive := by
  obtain ⟨hguard, hstep⟩ := hs
  cases hstep with
  | kmalloc hn hrun => exact exclusive_kmalloc hx hn hrun hguard
  | kfree ha hrun => exact exclusive_kfree hx ha hrun

/-- In a run whose every `kmalloc` meets the condition, the live allocations
never share a block, every block of theirs is marked, and what the next such
`kmalloc` hands out was free. -/
theorem live_disjoint_run {h₀ h : Heap δ} {tr : List HeapOp} (hf : h₀.Fresh)
    (hrun : Run (Guarded HeapStep KmallocGuard) h₀ tr h) :
    h.Exclusive ∧
      ∀ n p h', Guarded HeapStep KmallocGuard h (.kmalloc n p) h' →
        ∀ i (hi : i < kMemoryMapEntries), (Alloc.mk p n).Owns i →
          h.kernel.kMemoryMap[i] = 0 := by
  refine ⟨hrun.invariant (exclusive_fresh hf) fun _ _ _ => exclusive_step, ?_⟩
  rintro n p h' ⟨hguard, hstep⟩
  cases hstep with
  | kmalloc hn hk => exact (kmalloc_free_iff hn hk).mpr hguard

end

section

variable [Layout]

/-- A call of `kmalloc` that has enough free blocks is a step. -/
theorem HeapStep.exists_kmalloc {k : Kernel δ} {l : List Alloc} {n : UInt32}
    {s : Nat} (hs : firstFree k.kMemoryMap = s) (hn : 1 ≤ n.toNat)
    (hfree : n.toNat ≤ freeCount k.kMemoryMap) :
    ∃ k', HeapStep ⟨k, l⟩ (.kmalloc n (blockAddr s))
        ⟨k', ⟨blockAddr s, n⟩ :: l⟩ ∧
      k'.kMemoryMap = mapRange k.kMemoryMap s n.toNat 1 := by
  subst hs
  exact ⟨_, .kmalloc hn (kmalloc_ok hn hfree), rfl⟩

theorem HeapStep.exists_kfree {k : Kernel δ} {l r : List Alloc}
    {a : Alloc} {s : Nat} (hs : a.start = s) (ha : a ∈ l) (hr : l.erase a = r)
    (hfits : s + a.blockCount.toNat ≤ kMemoryMapEntries) :
    ∃ k', HeapStep ⟨k, l⟩ (.kfree a) ⟨k', r⟩ ∧
      k'.kMemoryMap = mapRange k.kMemoryMap s a.blockCount.toNat 0 := by
  subst hs hr
  exact ⟨_, .kfree ha (kfree_run hfits), rfl⟩

theorem Alloc.start_blockAddr {s : Nat} {n : UInt32} (hs : s < kMemoryMapEntries) :
    (Alloc.mk (blockAddr s) n).start = s :=
  blockAddr_div_self hs

/-- Two single blocks, the first given back, and any number of blocks at once: they start at
the first block again. -/
theorem freed_first {n : UInt32} (hn : 1 ≤ n.toNat) (hfew : n.toNat ≤ 99) :
    ∃ k k' : Kernel Unit,
      Run (Guarded HeapStep KmallocGuard) ⟨Kernel.zero (), []⟩
        [.kmalloc 1 (blockAddr 0), .kmalloc 1 (blockAddr 1), .kfree ⟨blockAddr 0, 1⟩]
        ⟨k, [⟨blockAddr 1, 1⟩]⟩ ∧
      HeapStep ⟨k, [⟨blockAddr 1, 1⟩]⟩ (.kmalloc n (blockAddr 0))
        ⟨k', [⟨blockAddr 0, n⟩, ⟨blockAddr 1, 1⟩]⟩ := by
  obtain ⟨k₁, h₁, hm₁⟩ := HeapStep.exists_kmalloc (k := Kernel.zero ())
    (l := []) (n := 1) (s := 0) (by decide) (by decide) (by simp)
  obtain ⟨k₂, h₂, hm₂⟩ := HeapStep.exists_kmalloc (k := k₁)
    (l := [⟨blockAddr 0, 1⟩]) (n := 1) (s := 1)
    (by rw [hm₁]; decide +kernel) (by decide) (by rw [hm₁]; decide +kernel)
  have hother : (Alloc.mk (blockAddr 1) 1) ≠ ⟨blockAddr 0, 1⟩ := by
    intro h
    have hstart := congrArg Alloc.start h
    rw [Alloc.start_blockAddr (by decide), Alloc.start_blockAddr (by decide)] at hstart
    cases hstart
  obtain ⟨k₃, h₃, hm₃⟩ := HeapStep.exists_kfree (k := k₂)
    (l := [⟨blockAddr 1, 1⟩, ⟨blockAddr 0, 1⟩]) (r := [⟨blockAddr 1, 1⟩])
    (a := ⟨blockAddr 0, 1⟩) (s := 0) (Alloc.start_blockAddr (by decide)) (by simp)
    (by simp [hother]) (show 0 + 1 ≤ kMemoryMapEntries by decide)
  have hmap : k₃.kMemoryMap = mapRange (Vector.replicate kMemoryMapEntries 0) 1 1 1 := by
    rw [hm₃, hm₂, hm₁]
    show mapRange (mapRange (mapRange (Vector.replicate kMemoryMapEntries 0) 0 1 1) 1 1 1) 0 1 0 = _
    decide +kernel
  have hcount : freeCount (mapRange (Vector.replicate kMemoryMapEntries 0) 1 1 1) = 99 := by
    decide +kernel
  obtain ⟨k₄, h₄, -⟩ := HeapStep.exists_kmalloc (k := k₃) (l := [⟨blockAddr 1, 1⟩]) (n := n)
    (s := 0) (by rw [hmap]; decide +kernel) hn (by rw [hmap, hcount]; exact hfew)
  exact ⟨k₃, k₄, ((Run.single ⟨contiguous_one _, h₁⟩).snoc ⟨contiguous_one _, h₂⟩).snoc
    ⟨trivial, h₃⟩, h₄⟩

end

/-- Then another single block: the first one again, beside the one still in use. -/
theorem live_disjoint_run_reuses : ∃ (_ : Layout) (h : Heap Unit),
    Run (Guarded HeapStep KmallocGuard) ⟨Kernel.zero (), []⟩
      [.kmalloc 1 (blockAddr 0), .kmalloc 1 (blockAddr 1), .kfree ⟨blockAddr 0, 1⟩,
        .kmalloc 1 (blockAddr 0)] h ∧
      h.live = [⟨blockAddr 0, 1⟩, ⟨blockAddr 1, 1⟩] ∧ h.Exclusive := by
  let _ := bootLayout
  obtain ⟨k, k', hfreed, h'⟩ := freed_first (n := 1) (by decide) (by decide)
  have hguard : KmallocGuard ⟨k, [⟨blockAddr 1, 1⟩]⟩ (.kmalloc 1 (blockAddr 0)) :=
    contiguous_one _
  have hrun : Run (Guarded HeapStep KmallocGuard) ⟨Kernel.zero (), []⟩ _ _ :=
    hfreed.snoc ⟨hguard, h'⟩
  exact ⟨bootLayout, _, hrun, rfl, (live_disjoint_run ⟨by decide, rfl⟩ hrun).1⟩

/-- But two blocks at once: the second caller's block is handed out again. -/
theorem kmalloc_overlap : ∃ (_ : Layout) (h : Heap Unit),
    Run HeapStep ⟨Kernel.zero (), []⟩
      [.kmalloc 1 (blockAddr 0), .kmalloc 1 (blockAddr 1),
        .kfree ⟨blockAddr 0, 1⟩, .kmalloc 2 (blockAddr 0)] h ∧
      h.live = [⟨blockAddr 0, 2⟩, ⟨blockAddr 1, 1⟩] ∧ ¬ h.Exclusive := by
  let _ := bootLayout
  obtain ⟨k, k', hfreed, h'⟩ := freed_first (n := 2) (by decide) (by decide)
  refine ⟨bootLayout, _, hfreed.of_guarded.snoc h', rfl, ?_⟩
  intro hx
  have hdisj := (List.pairwise_cons.mp hx.disjoint).1 _ List.mem_cons_self 1
  exact hdisj (by constructor <;> constructor <;> decide)

/-! ## The map against the live allocations -/

/-- `n` free blocks in a row are `n` free blocks. -/
theorem le_freeCount {map : Vector UInt8 kMemoryMapEntries} {lo n : Nat}
    (hfits : lo + n ≤ kMemoryMapEntries)
    (hfree : ∀ i (hi : i < kMemoryMapEntries), lo ≤ i → i < lo + n → map[i] = 0) :
    n ≤ freeCount map := by
  have hzero : (map.toList.drop lo).take n = List.replicate n 0 := by
    rw [List.eq_replicate_iff]
    refine ⟨by rw [List.length_take, List.length_drop, Vector.length_toList]; omega, ?_⟩
    intro b hb
    obtain ⟨j, hj, rfl⟩ := List.mem_iff_getElem.mp hb
    rw [List.length_take, List.length_drop, Vector.length_toList] at hj
    rw [List.getElem_take, List.getElem_drop, Vector.getElem_toList]
    exact hfree (lo + j) (by omega) (by omega) (by omega)
  have hsub : ((map.toList.drop lo).take n).Sublist map.toList :=
    (List.take_sublist _ _).trans (List.drop_sublist _ _)
  have hcount := hsub.count_le 0
  rwa [hzero, List.count_replicate_self] at hcount

section

variable [Layout]

/-- Every marked block has an owner, and no owner has a block outside the map. -/
structure Heap.Owned (h : Heap δ) : Prop where
  inside : ∀ a ∈ h.live, a.start + a.blockCount.toNat ≤ kMemoryMapEntries
  owner : ∀ i (hi : i < kMemoryMapEntries), h.kernel.kMemoryMap[i] ≠ 0 →
    ∃ a ∈ h.live, a.Owns i

theorem owned_fresh {h : Heap δ} (hf : h.Fresh) : h.Owned := by
  constructor
  · intro a ha
    rw [hf.2] at ha
    cases ha
  · intro i hi hne
    exact absurd (hf.1 i hi) hne

/-- A new allocation owns what it marks, whatever was marked there before. -/
theorem owned_kmalloc {h : Heap δ} {n p : UInt32} {k' : Kernel δ} (ho : h.Owned)
    (hn : 1 ≤ n.toNat) (hrun : (kmalloc n).run h.kernel = .ok p k') :
    (Heap.mk k' (⟨p, n⟩ :: h.live)).Owned := by
  obtain ⟨-, -, hmap, -⟩ := kmalloc_inv hn hrun
  obtain ⟨hstart, hfits, -⟩ := alloc_of_kmalloc hn hrun
  constructor
  · intro a ha
    rcases List.mem_cons.mp ha with rfl | hmem
    · rw [hstart]
      exact hfits
    · exact ho.inside a hmem
  · intro i hi hne
    simp only [hmap, getElem_mapRange] at hne
    split at hne
    · rename_i hin
      exact ⟨⟨p, n⟩, List.mem_cons_self, by rw [Alloc.Owns, hstart]; exact hin⟩
    · obtain ⟨a, ha, hown⟩ := ho.owner i hi hne
      exact ⟨a, List.mem_cons_of_mem _ ha, hown⟩

/-- What is still marked after a `kfree` did not belong to the allocation that
was given back, so its owner is still there. -/
theorem owned_kfree {h : Heap δ} {a : Alloc} {k' : Kernel δ} (ho : h.Owned)
    (ha : a ∈ h.live) (hrun : (kfree a.address a.blockCount).run h.kernel = .ok () k') :
    (Heap.mk k' (h.live.erase a)).Owned := by
  rw [kfree_run (ho.inside a ha)] at hrun
  injection hrun with _ hk
  subst hk
  refine ⟨fun b hb => ho.inside b (List.mem_of_mem_erase hb), fun i hi hne => ?_⟩
  simp only [getElem_mapRange] at hne
  split at hne
  · exact absurd rfl hne
  · rename_i hout
    obtain ⟨b, hb, hown⟩ := ho.owner i hi hne
    have hother : b ≠ a := by
      rintro rfl
      exact hout hown
    exact ⟨b, (List.mem_erase_of_ne hother).mpr hb, hown⟩

theorem owned_step {h h' : Heap δ} {op : HeapOp} (ho : h.Owned)
    (hs : HeapStep h op h') : h'.Owned := by
  cases hs with
  | kmalloc hn hrun => exact owned_kmalloc ho hn hrun
  | kfree ha hrun => exact owned_kfree ho ha hrun

/-- A `kmalloc` has two ends: it returns, or it stops the kernel with 2. -/
theorem kmalloc_ends {n : UInt32} (hn : 1 ≤ n.toNat) (k : Kernel δ) :
    (∃ p k', (kmalloc n).run k = .ok p k') ∨
      ∃ k', (kmalloc n).run k = .error (.exit 2) k' := by
  rcases Nat.lt_or_ge (freeCount k.kMemoryMap) n.toNat with hlt | hge
  · obtain ⟨k', hexit, -⟩ := kmalloc_exit hn hlt
    exact .inr ⟨k', hexit⟩
  · exact .inl ⟨_, _, kmalloc_ok hn hge⟩

/-- After any run, a block is marked only if a live allocation owns it; no call
that may follow leaves the map; and `kmalloc(n)` returns whenever `n` free
blocks lie in a row. -/
theorem owned_run {h₀ h : Heap δ} {tr : List HeapOp} (hf : h₀.Fresh)
    (hrun : Run HeapStep h₀ tr h) :
    (∀ i (hi : i < kMemoryMapEntries), h.kernel.kMemoryMap[i] ≠ 0 →
      ∃ a ∈ h.live, a.Owns i) ∧
    (h.live = [] → ∀ i (hi : i < kMemoryMapEntries), h.kernel.kMemoryMap[i] = 0) ∧
    (∀ a ∈ h.live, ∃ k', (kfree a.address a.blockCount).run h.kernel = .ok () k') ∧
    ∀ n : UInt32, 1 ≤ n.toNat →
      (∀ k', (kmalloc n).run h.kernel ≠ .error .wildIndex k') ∧
      ∀ lo, lo + n.toNat ≤ kMemoryMapEntries →
        (∀ i (hi : i < kMemoryMapEntries), lo ≤ i → i < lo + n.toNat →
          h.kernel.kMemoryMap[i] = 0) →
        ∃ p k', (kmalloc n).run h.kernel = .ok p k' := by
  have ho : h.Owned := hrun.invariant (owned_fresh hf) fun _ _ _ => owned_step
  refine ⟨ho.owner, ?_, fun a ha => ⟨_, kfree_run (ho.inside a ha)⟩, fun n hn => ⟨?_, ?_⟩⟩
  · intro hnone i hi
    by_contra hne
    obtain ⟨a, ha, -⟩ := ho.owner i hi hne
    rw [hnone] at ha
    cases ha
  · intro k' hwild
    rcases kmalloc_ends hn h.kernel with ⟨p, k₁, hok⟩ | ⟨k₁, hexit⟩
    · rw [hok] at hwild
      cases hwild
    · rw [hexit] at hwild
      cases hwild
  · intro lo hfits hfree
    exact ⟨_, _, kmalloc_ok hn (le_freeCount hfits hfree)⟩

end

/-- Two live allocations that share a block: it is marked and has owners. -/
theorem owned_run_overlap : ∃ (_ : Layout) (h : Heap Unit),
    Run HeapStep ⟨Kernel.zero (), []⟩
      [.kmalloc 1 (blockAddr 0), .kmalloc 1 (blockAddr 1), .kfree ⟨blockAddr 0, 1⟩,
        .kmalloc 2 (blockAddr 0)] h ∧
      h.live = [⟨blockAddr 0, 2⟩, ⟨blockAddr 1, 1⟩] ∧
      (∀ i (hi : i < kMemoryMapEntries), h.kernel.kMemoryMap[i] ≠ 0 →
        ∃ a ∈ h.live, a.Owns i) ∧
      ∃ k', (kfree (blockAddr 1) 1).run h.kernel = .ok () k' := by
  let _ := bootLayout
  obtain ⟨k, k', hfreed, h'⟩ := freed_first (n := 2) (by decide) (by decide)
  have hrun := hfreed.of_guarded.snoc h'
  obtain ⟨howner, -, hkfree, -⟩ := owned_run ⟨by decide, rfl⟩ hrun
  exact ⟨bootLayout, _, hrun, rfl, howner, hkfree ⟨blockAddr 1, 1⟩ (by simp)⟩

end Bedrock
