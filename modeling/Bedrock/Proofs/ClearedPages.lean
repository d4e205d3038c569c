import Bedrock.Proofs.KmallocRuns

/-!
# What `kmalloc` clears

`kmalloc` marks `block_count` blocks in a loop and then clears `BLOCK_SIZE` bytes,
however many blocks that were. For one block the two agree. For more, the blocks behind
the first keep what their last owner wrote; for none, the page that is cleared is block 0,
which is somebody else's.
-/

namespace Bedrock

open Lib

variable {δ : Type}

section

variable [Layout]

/-- The bytes of an allocation are those of its blocks. -/
def Alloc.HasByte (a : Alloc) (x : UInt32) : Prop :=
  ∃ i, a.Owns i ∧ Span (blockAddr i) 0x1000 x

/-- The condition on the state before `kmalloc(n)`: the `n - 1` blocks behind the first
free one are zero already; with `n = 0`, so is block 0 if it belongs to anybody. -/
def Heap.ClearAhead (h : Heap δ) (n : UInt32) : Prop :=
  if n = 0 then
    ∀ a ∈ h.live, a.Owns 0 → ∀ x, Span (blockAddr 0) 0x1000 x → h.kernel.mem x = 0
  else
    ∀ x, Span (blockAddr (firstFree h.kernel.kMemoryMap + 1)) ((n.toNat - 1) * 0x1000) x →
      h.kernel.mem x = 0

/-- A range of `n` blocks is its first block and the range of the others. -/
theorem span_blocks {i n : Nat} {x : UInt32} (hn : 1 ≤ n) (hfits : i + n ≤ kMemoryMapEntries) :
    Span (blockAddr i) (n * 0x1000) x ↔
      Span (blockAddr i) 0x1000 x ∨ Span (blockAddr (i + 1)) ((n - 1) * 0x1000) x := by
  have hfit := Layout.kmallocMemory_fits
  have hfst := toNat_blockAddr (i := i) (by omega)
  have hsnd := toNat_blockAddr (i := i + 1) (by omega)
  simp only [kMemoryMapEntries] at hfit hfits
  rw [span_iff (by omega), span_iff (by omega), span_iff (by omega), hfst, hsnd]
  omega

theorem span_block_apart {i n : Nat} {x : UInt32} (hn : 1 ≤ n)
    (hfits : i + n ≤ kMemoryMapEntries) (h : Span (blockAddr (i + 1)) ((n - 1) * 0x1000) x) :
    ¬ Span (blockAddr i) 0x1000 x := by
  have hfit := Layout.kmallocMemory_fits
  have hfst := toNat_blockAddr (i := i) (by omega)
  have hsnd := toNat_blockAddr (i := i + 1) (by omega)
  simp only [kMemoryMapEntries] at hfit hfits
  rw [span_iff (by omega)] at h ⊢
  omega

/-- The bytes of what `kmalloc` handed out are the `n * 4096` from its address on. -/
theorem hasByte_iff {s : Nat} {n x : UInt32} (hs : s < kMemoryMapEntries)
    (hfits : s + n.toNat ≤ kMemoryMapEntries) :
    (Alloc.mk (blockAddr s) n).HasByte x ↔ Span (blockAddr s) (n.toNat * 0x1000) x := by
  have howns : ∀ i, (Alloc.mk (blockAddr s) n).Owns i ↔ s ≤ i ∧ i < s + n.toNat := by
    intro i
    rw [Alloc.Owns, Alloc.start_blockAddr hs]
  have hfit := Layout.kmallocMemory_fits
  have hbase := toNat_blockAddr (Nat.le_of_lt hs)
  simp only [kMemoryMapEntries] at hfit hfits hs
  rw [span_iff (by omega), hbase]
  constructor
  · rintro ⟨i, hi, hx⟩
    rw [howns] at hi
    have haddr := toNat_blockAddr (i := i) (by simp only [kMemoryMapEntries]; omega)
    rw [span_iff (by omega), haddr] at hx
    have hfst : s * 0x1000 ≤ i * 0x1000 := Nat.mul_le_mul_right _ hi.1
    have hlast : (i + 1) * 0x1000 ≤ (s + n.toNat) * 0x1000 := Nat.mul_le_mul_right _ hi.2
    rw [Nat.add_mul, Nat.add_mul, Nat.one_mul] at hlast
    refine ⟨Nat.le_trans (Nat.add_le_add_left hfst _) hx.1, Nat.lt_of_lt_of_le hx.2 ?_⟩
    rw [Nat.add_assoc, Nat.add_assoc]
    exact Nat.add_le_add_left hlast _
  · rintro ⟨hlo, hhi⟩
    obtain ⟨i, hi⟩ : ∃ i, i = (x.toNat - Layout.kmallocMemory.toNat) / 0x1000 := ⟨_, rfl⟩
    have haddr := toNat_blockAddr (i := i) (by simp only [kMemoryMapEntries]; omega)
    refine ⟨i, (howns i).mpr (by omega), ?_⟩
    rw [span_iff (by omega), haddr]
    omega

/-- With at least one block asked for, only the first free block is written, and that is
nobody's. -/
theorem kmalloc_frame {h : Heap δ} {n p : UInt32} {k' : Kernel δ} (hx : h.Exclusive)
    (hn : 1 ≤ n.toNat) (hrun : (kmalloc n).run h.kernel = .ok p k') {a : Alloc}
    (ha : a ∈ h.live) {x : UInt32} (hbyte : a.HasByte x) : k'.mem x = h.kernel.mem x := by
  obtain ⟨hle, hp, -, hmem⟩ := kmalloc_inv hn hrun
  have hfirst : firstFree h.kernel.kMemoryMap < kMemoryMapEntries := firstFree_lt (by omega)
  obtain ⟨i, hown, hin⟩ := hbyte
  have hi : i < kMemoryMapEntries := Nat.lt_of_lt_of_le hown.2 (hx.inside a ha)
  rw [hmem, Mem.write_off]
  intro hpage
  rw [hp] at hpage
  obtain rfl := block_disjoint hi hfirst hin hpage
  have hone := hx.marked a ha _ hi hown
  rw [firstFree_free hfirst] at hone
  exact absurd hone (by decide)

/-- A call of `kmalloc` that returns hands out zeros and changes nobody's bytes exactly
when what it does not clear, or should not clear, is zero already. -/
theorem kmalloc_cleared_iff {h : Heap δ} {n p : UInt32} {k' : Kernel δ} (hx : h.Exclusive)
    (hrun : (kmalloc n).run h.kernel = .ok p k') :
    ((∀ x, Span p (n.toNat * 0x1000) x → k'.mem x = 0) ∧
      ∀ a ∈ h.live, ∀ x, a.HasByte x → k'.mem x = h.kernel.mem x) ↔ h.ClearAhead n := by
  rw [Heap.ClearAhead]
  by_cases hzero : n = 0
  · subst hzero
    obtain ⟨hp, hmem⟩ := kmalloc_zero_inv hrun
    rw [if_pos rfl]
    constructor
    · rintro ⟨-, hkept⟩ a ha hown x hin
      rw [← hkept a ha x ⟨0, hown, hin⟩, hmem, hp, Mem.write_in hin]
    · intro hclear
      refine ⟨fun x hin => absurd hin (Nat.not_lt_zero _), ?_⟩
      rintro a ha x ⟨i, hown, hin⟩
      rw [hmem, hp]
      by_cases hpage : Span (blockAddr 0) 0x1000 x
      · have hi : i < kMemoryMapEntries := Nat.lt_of_lt_of_le hown.2 (hx.inside a ha)
        obtain rfl := block_disjoint hi (by decide) hin hpage
        rw [Mem.write_in hpage, hclear a ha hown x hpage]
      · exact Mem.write_off hpage
  · have hn : 1 ≤ n.toNat := Nat.pos_of_ne_zero fun h0 => hzero (UInt32.toNat_inj.mp h0)
    obtain ⟨hle, hp, -, hmem⟩ := kmalloc_inv hn hrun
    obtain ⟨-, hfits, -⟩ := alloc_of_kmalloc hn hrun
    rw [if_neg hzero]
    constructor
    · rintro ⟨hclear, -⟩ x hin
      have hall := hclear x (by rw [hp]; exact (span_blocks hn hfits).mpr (.inr hin))
      rwa [hmem, hp, Mem.write_off (span_block_apart hn hfits hin)] at hall
    · intro hclear
      refine ⟨fun x hin => ?_, fun a ha x => kmalloc_frame hx hn hrun ha⟩
      rw [hmem]
      by_cases hpage : Span p 0x1000 x
      · exact Mem.write_in hpage
      · rw [Mem.write_off hpage]
        rw [hp, span_blocks hn hfits, ← hp] at hin
        exact hclear x (hin.resolve_left hpage)

end

/-- A kernel in which the blocks of `used` are in use and the owners of the `n` blocks from
block `i` on have written. -/
def writtenBlocks [Layout] (used i n : Nat) : Kernel Unit :=
  { Kernel.zero () with
    kMemoryMap := mapRange (Kernel.zero ()).kMemoryMap 0 used 1
    mem := Mem.write (fun _ => 0) (blockAddr i) (n * 0x1000) fun _ => 0xAA }

theorem writtenBlocks_exclusive [Layout] (i n : Nat) :
    (Heap.mk (writtenBlocks 1 i n) [⟨blockAddr 0, 1⟩]).Exclusive := by
  have hstart : (Alloc.mk (blockAddr 0) 1).start = 0 := Alloc.start_blockAddr (by decide)
  constructor
  · exact List.pairwise_singleton _ _
  · intro a ha
    obtain rfl := List.mem_singleton.mp ha
    rw [hstart]
    show 0 + 1 ≤ kMemoryMapEntries
    decide
  · intro a ha j hj hown
    obtain rfl := List.mem_singleton.mp ha
    rw [Alloc.Owns, hstart] at hown
    exact (getElem_mapRange hj).trans (if_pos hown)

/-- Beside a block in use, one that was written before and one that was not. -/
theorem kmalloc_cleared_reused : ∃ (_ : Layout) (h : Heap Unit) (p : UInt32) (k' : Kernel Unit),
    h.live = [⟨blockAddr 0, 1⟩] ∧ (kmalloc 2).run h.kernel = .ok p k' ∧
      h.kernel.mem p = 0xAA ∧ h.kernel.mem (blockAddr 0) = 0xAA ∧
      (∀ x, Span p (2 * 0x1000) x → k'.mem x = 0) ∧
      ∀ x, Span (blockAddr 0) 0x1000 x → k'.mem x = h.kernel.mem x := by
  let _ := bootLayout
  let h : Heap Unit := ⟨writtenBlocks 1 0 2, [⟨blockAddr 0, 1⟩]⟩
  have hfirst : firstFree h.kernel.kMemoryMap = 1 := by decide
  have hcount : 2 ≤ freeCount h.kernel.kMemoryMap := by decide +kernel
  have hrun := kmalloc_ok (k := h.kernel) (n := 2) (by decide) hcount
  have hahead : h.ClearAhead 2 := by
    rw [Heap.ClearAhead, if_neg (by decide), hfirst]
    intro x hx
    show Mem.write (fun _ => 0) (blockAddr 0) (2 * 0x1000) (fun _ => 0xAA) x = 0
    refine Mem.write_off fun hin => ?_
    have hlo := toNat_blockAddr (i := 0) (by decide)
    have hhi := toNat_blockAddr (i := 1 + 1) (by decide)
    rw [span_iff (by decide)] at hx hin
    omega
  obtain ⟨hclear, hkept⟩ := (kmalloc_cleared_iff (writtenBlocks_exclusive 0 2) hrun).mpr hahead
  refine ⟨bootLayout, h, _, _, rfl, hrun, ?_, by decide, hclear, fun x hx =>
    hkept _ List.mem_cons_self x ((hasByte_iff (by decide) (by decide)).mpr hx)⟩
  rw [hfirst]
  decide

/-- Two blocks, the second of which was in use before, and no block while block 0 is in
use. -/
theorem kmalloc_uncleared : ∃ _ : Layout,
    (∃ (h : Heap Unit) (p : UInt32) (k' : Kernel Unit), h.Exclusive ∧
      (kmalloc 2).run h.kernel = .ok p k' ∧ ∃ x, Span p (2 * 0x1000) x ∧ k'.mem x ≠ 0) ∧
    ∃ (h : Heap Unit) (p : UInt32) (k' : Kernel Unit), h.Exclusive ∧
      (kmalloc 0).run h.kernel = .ok p k' ∧
        ∃ a ∈ h.live, ∃ x, a.HasByte x ∧ k'.mem x ≠ h.kernel.mem x := by
  let _ := bootLayout
  refine ⟨bootLayout, ⟨⟨writtenBlocks 0 1 1, []⟩, _, _, ?_, kmalloc_ok (by decide) ?_,
    blockAddr 1, ?_, ?_⟩, ⟨writtenBlocks 1 0 1, [⟨blockAddr 0, 1⟩]⟩, _, _,
    writtenBlocks_exclusive 0 1, kmalloc_zero_ok ?_, _, List.mem_cons_self, blockAddr 0,
    (hasByte_iff ?_ ?_).mpr ?_, ?_⟩
  · exact exclusive_fresh ⟨by decide +kernel, rfl⟩
  · decide +kernel
  all_goals decide

end Bedrock
