import Bedrock.Lib.Mem

/-!
# Byte strings in memory

A string lies at an address when the bytes from there on are the string's.
The facts about it are about lists: a string of two parts lies where its
parts lie one behind the other, and a string survives every change elsewhere.

The same words a memory has are read off a medium addressed by natural
numbers, and a word is the same in both when its bytes are.
-/

namespace Bedrock.Lib

/-- The bytes from `p` on are those of `l`. -/
def BytesAt (m : Mem) (p : UInt32) (l : List UInt8) : Prop :=
  ∀ i (h : i < l.length), m (p + UInt32.ofNat i) = l[i]

theorem bytesAt_nil {m : Mem} {p : UInt32} : BytesAt m p [] :=
  fun i h => absurd h (Nat.not_lt_zero i)

theorem bytesAt_append {m : Mem} {p : UInt32} {l₁ l₂ : List UInt8} :
    BytesAt m p (l₁ ++ l₂) ↔
      BytesAt m p l₁ ∧ BytesAt m (p + UInt32.ofNat l₁.length) l₂ := by
  constructor
  · intro h
    constructor
    · intro i hi
      rw [h i (by rw [List.length_append]; omega), List.getElem_append_left hi]
    · intro i hi
      rw [UInt32.add_assoc, ← UInt32.ofNat_add,
        h (l₁.length + i) (by rw [List.length_append]; omega),
        List.getElem_append_right (by omega)]
      simp only [Nat.add_sub_cancel_left]
  · rintro ⟨h₁, h₂⟩ i hi
    rw [List.length_append] at hi
    by_cases hlt : i < l₁.length
    · rw [h₁ i hlt, List.getElem_append_left hlt]
    · have hr := h₂ (i - l₁.length) (by omega)
      rw [UInt32.add_assoc, ← UInt32.ofNat_add,
        show l₁.length + (i - l₁.length) = i by omega] at hr
      rw [hr, List.getElem_append_right (by omega)]

theorem bytesAt_cons {m : Mem} {p : UInt32} {b : UInt8} {l : List UInt8} :
    BytesAt m p (b :: l) ↔ m p = b ∧ BytesAt m (p + 1) l := by
  have hone : BytesAt m p [b] ↔ m p = b := by
    constructor
    · intro h
      have h0 := h 0 (Nat.zero_lt_one)
      rwa [show UInt32.ofNat 0 = 0 from rfl, UInt32.add_zero] at h0
    · intro h i hi
      obtain rfl : i = 0 := Nat.lt_one_iff.mp hi
      rw [show UInt32.ofNat 0 = 0 from rfl, UInt32.add_zero]
      exact h
  rw [show b :: l = [b] ++ l from rfl, bytesAt_append, hone]
  exact Iff.rfl

/-- A string keeps its bytes under changes elsewhere. -/
theorem BytesAt.congr {m m' : Mem} {p : UInt32} {l : List UInt8}
    (h : BytesAt m p l) (hmax : l.length ≤ 2 ^ 32)
    (hsame : ∀ a, Span p l.length a → m' a = m a) : BytesAt m' p l :=
  fun i hi => (hsame _ (span_add hi hmax)).trans (h i hi)

/-- A block write of a string's bytes. -/
theorem bytesAt_write {m : Mem} {p : UInt32} {n : Nat} {f : Nat → UInt8}
    {l : List UInt8} (hlen : l.length ≤ n) (hmax : n ≤ 2 ^ 32)
    (hf : ∀ i (h : i < l.length), f i = l[i]) : BytesAt (m.write p n f) p l := by
  intro i hi
  rw [Mem.write_at (by omega) hmax, hf i hi]

/-- A block write of a string, filled up with zeros. -/
theorem bytesAt_write_getD {m : Mem} {p : UInt32} {n : Nat} {l : List UInt8}
    (hlen : l.length ≤ n) (hmax : n ≤ 2 ^ 32) :
    BytesAt (m.write p n fun i => l.getD i 0) p l := by
  refine bytesAt_write hlen hmax fun i hi => ?_
  rw [List.getD_eq_getElem?_getD, List.getElem?_eq_getElem hi, Option.getD_some]

/-! ## Words of a medium -/

/-- The 16-bit word at `off`. -/
def le16 (c : Nat → UInt8) (off : Nat) : UInt16 :=
  UInt16.ofNat ((c off).toNat + 2 ^ 8 * (c (off + 1)).toNat)

/-- The 32-bit word at `off`. -/
def le32 (c : Nat → UInt8) (off : Nat) : UInt32 :=
  UInt32.ofNat ((c off).toNat + 2 ^ 8 * (c (off + 1)).toNat +
    2 ^ 16 * (c (off + 2)).toNat + 2 ^ 24 * (c (off + 3)).toNat)

theorem le16_congr {c c' : Nat → UInt8} {off off' : Nat}
    (h : ∀ i < 2, c' (off' + i) = c (off + i)) : le16 c' off' = le16 c off := by
  have h0 := h 0 (by omega)
  rw [Nat.add_zero, Nat.add_zero] at h0
  rw [le16, le16, h0, h 1 (by omega)]

theorem le32_congr {c c' : Nat → UInt8} {off off' : Nat}
    (h : ∀ i < 4, c' (off' + i) = c (off + i)) : le32 c' off' = le32 c off := by
  have h0 := h 0 (by omega)
  rw [Nat.add_zero, Nat.add_zero] at h0
  rw [le32, le32, h0, h 1 (by omega), h 2 (by omega), h 3 (by omega)]

/-- The `n` bytes from `p` on are those of the medium from `off` on. -/
def Mirrors (m : Mem) (p : UInt32) (n : Nat) (c : Nat → UInt8) (off : Nat) : Prop :=
  ∀ i < n, m (p + UInt32.ofNat i) = c (off + i)

section

variable {m m' : Mem} {p : UInt32} {n : Nat} {c : Nat → UInt8} {off : Nat}

theorem Mirrors.congr (h : Mirrors m p n c off) (hmax : n ≤ 2 ^ 32)
    (hsame : ∀ a, Span p n a → m' a = m a) : Mirrors m' p n c off :=
  fun i hi => (hsame _ (span_add hi hmax)).trans (h i hi)

/-- A part of what is mirrored. -/
theorem Mirrors.part (h : Mirrors m p n c off) {i k : Nat} (hi : i + k ≤ n) :
    Mirrors m (p + UInt32.ofNat i) k c (off + i) := by
  intro j hj
  rw [UInt32.add_assoc, ← UInt32.ofNat_add, h (i + j) (by omega), Nat.add_assoc]

theorem Mirrors.load16 (h : Mirrors m p n c off) {i : Nat} (hi : i + 2 ≤ n) :
    m.load16 (p + UInt32.ofNat i) = le16 c (off + i) := by
  have h0 := h i (by omega)
  have h1 := h (i + 1) (by omega)
  rw [UInt32.ofNat_add, ← UInt32.add_assoc] at h1
  rw [Mem.load16, le16, h0, show p + UInt32.ofNat i + 1 =
    p + UInt32.ofNat i + UInt32.ofNat 1 from rfl, h1]
  rfl

theorem Mirrors.load32 (h : Mirrors m p n c off) {i : Nat} (hi : i + 4 ≤ n) :
    m.load32 (p + UInt32.ofNat i) = le32 c (off + i) := by
  have hb : ∀ j < 4, m (p + UInt32.ofNat i + UInt32.ofNat j) = c (off + i + j) :=
    h.part hi
  have h0 := h i (by omega)
  rw [Mem.load32, le32, h0, show p + UInt32.ofNat i + 1 =
    p + UInt32.ofNat i + UInt32.ofNat 1 from rfl, hb 1 (by omega),
    show p + UInt32.ofNat i + 2 = p + UInt32.ofNat i + UInt32.ofNat 2 from rfl,
    hb 2 (by omega), show p + UInt32.ofNat i + 3 =
    p + UInt32.ofNat i + UInt32.ofNat 3 from rfl, hb 3 (by omega)]

/-- A copy of what is mirrored mirrors it too. -/
theorem Mirrors.write (h : Mirrors m p n c off) {q : UInt32} (hmax : n ≤ 2 ^ 32) :
    Mirrors (m'.write q n fun i => m (p + UInt32.ofNat i)) q n c off := by
  intro i hi
  rw [Mem.write_at hi hmax]
  exact h i hi

end

end Bedrock.Lib
