import Mathlib.Algebra.Group.Nat.Defs
import Mathlib.Tactic.Common

/-!
# Byte-addressed memory of 32 bits

A memory gives every 32-bit address a byte. The one way it changes is a
block write: `n` bytes from `p` on receive the values of a function of the
offset. A store of a word, a fill, a copy between ranges that do not meet and
a transfer from a device are all block writes, so one pair of lemmas says
what each of them leaves behind.

An address lies in a range when its distance from the start, taken modulo
`2^32`, is below the length. This reading needs no assumption that the range
stays below the top of the address space; `span_iff` is the ordinary
reading for a range that does.
-/

namespace Bedrock.Lib

/-- A memory: the byte at each address. -/
abbrev Mem : Type := UInt32 → UInt8

/-- `a` is one of the `n` addresses from `p` on. -/
def Span (p : UInt32) (n : Nat) (a : UInt32) : Prop := (a - p).toNat < n

instance {p : UInt32} {n : Nat} {a : UInt32} : Decidable (Span p n a) :=
  inferInstanceAs (Decidable (_ < _))

theorem span_iff {p a : UInt32} {n : Nat} (h : p.toNat + n ≤ 2 ^ 32) :
    Span p n a ↔ p.toNat ≤ a.toNat ∧ a.toNat < p.toNat + n := by
  have ha := a.toNat_lt
  rw [Span, UInt32.toNat_sub]
  omega

theorem toNat_sub_add_ofNat {p : UInt32} {i : Nat} (hi : i < 2 ^ 32) :
    (p + UInt32.ofNat i - p).toNat = i := by
  have hp := p.toNat_lt
  rw [UInt32.toNat_sub, UInt32.toNat_add, UInt32.toNat_ofNat']
  omega

theorem span_add {p : UInt32} {i n : Nat} (hi : i < n) (hn : n ≤ 2 ^ 32) :
    Span p n (p + UInt32.ofNat i) := by
  rw [Span, toNat_sub_add_ofNat (by omega)]
  exact hi

theorem span_self {p : UInt32} {n : Nat} (h : 0 < n) : Span p n p := by
  rw [Span, UInt32.sub_self]
  exact h

theorem span_one {p a : UInt32} : Span p 1 a ↔ a = p := by
  have hp := p.toNat_lt
  have ha := a.toNat_lt
  rw [Span, UInt32.toNat_sub, ← UInt32.toNat_inj]
  omega

/-- The address at a known distance. -/
theorem add_ofNat_toNat_sub (p a : UInt32) :
    p + UInt32.ofNat (a - p).toNat = a := by
  rw [UInt32.ofNat_toNat, UInt32.add_comm, UInt32.sub_add_cancel]

theorem Span.exists_offset {p a : UInt32} {n : Nat} (h : Span p n a) :
    ∃ i < n, a = p + UInt32.ofNat i :=
  ⟨(a - p).toNat, h, (add_ofNat_toNat_sub p a).symm⟩

theorem Span.mono {p a : UInt32} {n k : Nat} (h : Span p n a) (hle : n ≤ k) :
    Span p k a := Nat.lt_of_lt_of_le h hle

/-- A range inside a range, by its offset. -/
theorem Span.sub {p a : UInt32} {i n k : Nat}
    (h : Span (p + UInt32.ofNat i) n a) (hk : i + n ≤ k) (hmax : k ≤ 2 ^ 32) :
    Span p k a := by
  have hp := p.toNat_lt
  have ha := a.toNat_lt
  rw [Span, UInt32.toNat_sub, UInt32.toNat_add, UInt32.toNat_ofNat'] at h
  rw [Span, UInt32.toNat_sub]
  omega

/-- Two parts of one range that lie one after the other have no address in
common. -/
theorem Span.disjoint_parts {p a : UInt32} {i j n k : Nat}
    (h : Span (p + UInt32.ofNat i) n a) (hij : i + n ≤ j) (hk : j + k ≤ 2 ^ 32) :
    ¬ Span (p + UInt32.ofNat j) k a := by
  have hp := p.toNat_lt
  have ha := a.toNat_lt
  rw [Span, UInt32.toNat_sub, UInt32.toNat_add, UInt32.toNat_ofNat'] at h ⊢
  omega

/-- Two ranges of which one ends before the other begins. -/
theorem Span.below {p q a : UInt32} {n k : Nat} (h : Span p n a) (hlt : p.toNat + n ≤ q.toNat)
    (hmax : q.toNat + k ≤ 2 ^ 32) : ¬ Span q k a := by
  intro hq
  rw [span_iff (by omega)] at h hq
  omega

/-! ## Block writes -/

/-- `n` bytes from `p` on receive `f 0, f 1, …`. -/
def Mem.write (m : Mem) (p : UInt32) (n : Nat) (f : Nat → UInt8) : Mem :=
  fun a => if Span p n a then f (a - p).toNat else m a

theorem Mem.write_in {m : Mem} {p a : UInt32} {n : Nat} {f : Nat → UInt8}
    (h : Span p n a) : m.write p n f a = f (a - p).toNat := if_pos h

theorem Mem.write_off {m : Mem} {p a : UInt32} {n : Nat} {f : Nat → UInt8}
    (h : ¬ Span p n a) : m.write p n f a = m a := if_neg h

theorem Mem.write_at {m : Mem} {p : UInt32} {n i : Nat} {f : Nat → UInt8}
    (hi : i < n) (hn : n ≤ 2 ^ 32) :
    m.write p n f (p + UInt32.ofNat i) = f i := by
  rw [Mem.write_in (span_add hi hn), toNat_sub_add_ofNat (by omega)]

@[simp] theorem Mem.write_zero {m : Mem} {p : UInt32} {f : Nat → UInt8} :
    m.write p 0 f = m := by
  funext a
  exact Mem.write_off (Nat.not_lt_zero _)

theorem Mem.write_congr {m : Mem} {p : UInt32} {n : Nat} {f g : Nat → UInt8}
    (h : ∀ i < n, f i = g i) : m.write p n f = m.write p n g := by
  funext a
  by_cases ha : Span p n a
  · rw [Mem.write_in ha, Mem.write_in ha, h _ ha]
  · rw [Mem.write_off ha, Mem.write_off ha]

/-- One more byte at the end: the loop step of every byte-by-byte writer. -/
theorem Mem.write_succ {m : Mem} {p : UInt32} {n : Nat} {f : Nat → UInt8}
    (hn : n < 2 ^ 32) :
    (m.write p n f).write (p + UInt32.ofNat n) 1 (fun _ => f n) =
      m.write p (n + 1) f := by
  funext a
  have hp := p.toNat_lt
  have ha := a.toNat_lt
  have hone : Span (p + UInt32.ofNat n) 1 a ↔ (a - p).toNat = n := by
    rw [Span, UInt32.toNat_sub, UInt32.toNat_sub, UInt32.toNat_add,
      UInt32.toNat_ofNat']
    omega
  by_cases hlast : (a - p).toNat = n
  · rw [Mem.write_in (hone.mpr hlast),
      Mem.write_in (show Span p (n + 1) a by rw [Span]; omega), hlast]
  · rw [Mem.write_off (mt hone.mp hlast)]
    by_cases hin : Span p n a
    · rw [Mem.write_in hin, Mem.write_in (hin.mono (Nat.le_succ n))]
    · rw [Mem.write_off hin, Mem.write_off]
      rw [Span] at hin ⊢
      omega

/-- Two writes one behind the other are one write. -/
theorem Mem.write_write {m : Mem} {p : UInt32} {n k : Nat} {f : Nat → UInt8}
    (h : n + k ≤ 2 ^ 32) :
    (m.write p n f).write (p + UInt32.ofNat n) k (fun i => f (n + i)) =
      m.write p (n + k) f := by
  induction k with
  | zero => rw [Mem.write_zero, Nat.add_zero]
  | succ k ih =>
      rw [← Mem.write_succ (by omega), ih (by omega), UInt32.add_assoc, ← UInt32.ofNat_add,
        ← Nat.add_assoc, Mem.write_succ (by omega)]

/-! ## A store without a top

A medium that is addressed by natural numbers has the same block write; its
ranges cannot wrap. -/

/-- The bytes `off, …, off + n - 1` become `f 0, …, f (n - 1)`. -/
def patch (c : Nat → UInt8) (off n : Nat) (f : Nat → UInt8) : Nat → UInt8 :=
  fun b => if off ≤ b ∧ b < off + n then f (b - off) else c b

theorem patch_in {c f : Nat → UInt8} {off n b : Nat} (h : off ≤ b)
    (hlt : b < off + n) : patch c off n f b = f (b - off) := if_pos ⟨h, hlt⟩

theorem patch_off {c f : Nat → UInt8} {off n b : Nat}
    (h : b < off ∨ off + n ≤ b) : patch c off n f b = c b :=
  if_neg (by omega)

@[simp] theorem patch_zero {c f : Nat → UInt8} {off : Nat} :
    patch c off 0 f = c := by
  funext b
  exact patch_off (by omega)

theorem patch_congr {c f g : Nat → UInt8} {off n : Nat}
    (h : ∀ i < n, f i = g i) : patch c off n f = patch c off n g := by
  funext b
  by_cases hb : off ≤ b ∧ b < off + n
  · rw [patch_in hb.1 hb.2, patch_in hb.1 hb.2, h _ (by omega)]
  · rw [patch_off (by omega), patch_off (by omega)]

/-- Two writes one behind the other are one write. -/
theorem patch_patch {c f : Nat → UInt8} {off n k : Nat} :
    patch (patch c off n f) (off + n) k (fun i => f (n + i)) =
      patch c off (n + k) f := by
  funext b
  by_cases hlo : off ≤ b ∧ b < off + n
  · rw [patch_off (by omega), patch_in hlo.1 hlo.2, patch_in hlo.1 (by omega)]
  · by_cases hhi : off + n ≤ b ∧ b < off + n + k
    · rw [patch_in hhi.1 hhi.2, patch_in (by omega) (by omega)]
      congr 1
      omega
    · rw [patch_off (by omega), patch_off (by omega), patch_off (by omega)]

/-- Writing back a part inside an unchanged surrounding writes the part. -/
theorem patch_inner {c f g : Nat → UInt8} {off n i k : Nat} (h : i + k ≤ n)
    (hin : ∀ j < k, g (i + j) = f j)
    (hout : ∀ j < n, j < i ∨ i + k ≤ j → g j = c (off + j)) :
    patch c off n g = patch c (off + i) k f := by
  funext b
  by_cases hb : off ≤ b ∧ b < off + n
  · rw [patch_in hb.1 hb.2]
    by_cases hk : off + i ≤ b ∧ b < off + i + k
    · rw [patch_in hk.1 hk.2, ← hin _ (by omega)]
      congr 1
      omega
    · rw [patch_off (by omega), hout _ (by omega) (by omega)]
      congr 1
      omega
  · rw [patch_off (by omega), patch_off (by omega)]

/-! ## What stayed the same -/

/-- The two memories agree outside the addresses of `W`. -/
def SameOff (W : UInt32 → Prop) (m m' : Mem) : Prop :=
  ∀ a, ¬ W a → m' a = m a

theorem SameOff.refl {W : UInt32 → Prop} (m : Mem) : SameOff W m m :=
  fun _ _ => rfl

theorem SameOff.trans {W : UInt32 → Prop} {m₁ m₂ m₃ : Mem}
    (h₁ : SameOff W m₁ m₂) (h₂ : SameOff W m₂ m₃) : SameOff W m₁ m₃ :=
  fun a ha => (h₂ a ha).trans (h₁ a ha)

theorem SameOff.mono {W V : UInt32 → Prop} {m m' : Mem} (h : SameOff W m m')
    (hle : ∀ a, W a → V a) : SameOff V m m' :=
  fun a ha => h a (mt (hle a) ha)

theorem sameOff_write {m : Mem} {p : UInt32} {n : Nat} {f : Nat → UInt8} :
    SameOff (Span p n) m (m.write p n f) :=
  fun _ ha => Mem.write_off ha

/-! ## Little-endian words -/

/-- The 16-bit word at `p`. -/
def Mem.load16 (m : Mem) (p : UInt32) : UInt16 :=
  UInt16.ofNat ((m p).toNat + 2 ^ 8 * (m (p + 1)).toNat)

/-- The 32-bit word at `p`. -/
def Mem.load32 (m : Mem) (p : UInt32) : UInt32 :=
  UInt32.ofNat ((m p).toNat + 2 ^ 8 * (m (p + 1)).toNat +
    2 ^ 16 * (m (p + 2)).toNat + 2 ^ 24 * (m (p + 3)).toNat)

/-- Byte `i` of a word, the lowest first. -/
def byteOf (v i : Nat) : UInt8 := UInt8.ofNat (v / 256 ^ i)

def Mem.store32 (m : Mem) (p : UInt32) (v : UInt32) : Mem :=
  m.write p 4 (byteOf v.toNat)

theorem Mem.load16_congr {m m' : Mem} {p : UInt32}
    (h : ∀ a, Span p 2 a → m' a = m a) : m'.load16 p = m.load16 p := by
  rw [Mem.load16, Mem.load16, h p (span_self (by omega)),
    h (p + 1) (span_add (i := 1) (by omega) (by omega))]

theorem Mem.load32_congr {m m' : Mem} {p : UInt32}
    (h : ∀ a, Span p 4 a → m' a = m a) : m'.load32 p = m.load32 p := by
  rw [Mem.load32, Mem.load32, h p (span_self (by omega)),
    h (p + 1) (span_add (i := 1) (by omega) (by omega)),
    h (p + 2) (span_add (i := 2) (by omega) (by omega)),
    h (p + 3) (span_add (i := 3) (by omega) (by omega))]

theorem Mem.load16_eq (m : Mem) (p : UInt32) : m.load16 p = (m.load32 p).toUInt16 := by
  have h0 := (m p).toNat_lt
  have h1 := (m (p + 1)).toNat_lt
  apply UInt16.toNat_inj.mp
  rw [Mem.load16, Mem.load32, UInt16.toNat_ofNat', UInt32.toNat_toUInt16, UInt32.toNat_ofNat']
  omega

theorem Mem.load32_zero {m : Mem} {p : UInt32} (h : ∀ a, Span p 4 a → m a = 0) :
    m.load32 p = 0 :=
  (Mem.load32_congr (m := fun _ => 0) h).trans rfl

theorem Mem.load32_store32 {m : Mem} {p v : UInt32} :
    (m.store32 p v).load32 p = v := by
  have hv := v.toNat_lt
  have hb : ∀ i < 4, (m.store32 p v) (p + UInt32.ofNat i) =
      byteOf v.toNat i := fun i hi => Mem.write_at hi (by omega)
  have h0 : (m.store32 p v) p = byteOf v.toNat 0 := by
    simpa using hb 0 (by omega)
  have h1 : (m.store32 p v) (p + 1) = byteOf v.toNat 1 := hb 1 (by omega)
  have h2 : (m.store32 p v) (p + 2) = byteOf v.toNat 2 := hb 2 (by omega)
  have h3 : (m.store32 p v) (p + 3) = byteOf v.toNat 3 := hb 3 (by omega)
  apply UInt32.toNat_inj.mp
  rw [Mem.load32, h0, h1, h2, h3]
  simp only [byteOf, UInt8.toNat_ofNat', UInt32.toNat_ofNat']
  omega

theorem Mem.load32_store32_off {m : Mem} {p q v : UInt32}
    (h : ∀ a, Span p 4 a → ¬ Span q 4 a) :
    (m.store32 q v).load32 p = m.load32 p :=
  Mem.load32_congr fun a ha => Mem.write_off (h a ha)

theorem sameOff_store32 {m : Mem} {p v : UInt32} :
    SameOff (Span p 4) m (m.store32 p v) := sameOff_write

/-! ## Words of 64 bits -/

/-- The 64 bits at `p`, as a number. -/
def Mem.load64 (m : Mem) (p : UInt32) : Nat :=
  (m.load32 p).toNat + 2 ^ 32 * (m.load32 (p + UInt32.ofNat 4)).toNat

def Mem.store64 (m : Mem) (p : UInt32) (v : Nat) : Mem := m.write p 8 (byteOf v)

theorem Mem.load64_congr {m m' : Mem} {p : UInt32} (h : ∀ a, Span p 8 a → m' a = m a) :
    m'.load64 p = m.load64 p := by
  have hlow : m'.load32 p = m.load32 p :=
    Mem.load32_congr fun a ha => h a (ha.mono (by omega))
  have hhigh : m'.load32 (p + UInt32.ofNat 4) = m.load32 (p + UInt32.ofNat 4) :=
    Mem.load32_congr fun a ha => h a (ha.sub (by omega) (by omega))
  rw [Mem.load64, Mem.load64, hlow, hhigh]

theorem byteOf_mod {v i : Nat} (hi : i < 4) : byteOf v i = byteOf (v % 2 ^ 32) i := by
  apply UInt8.toNat_inj.mp
  rw [byteOf, byteOf, UInt8.toNat_ofNat', UInt8.toNat_ofNat']
  rcases (by omega : i = 0 ∨ i = 1 ∨ i = 2 ∨ i = 3) with rfl | rfl | rfl | rfl
  all_goals omega

theorem byteOf_div {v i : Nat} : byteOf v (4 + i) = byteOf (v / 2 ^ 32) i := by
  have hfour : 256 ^ 4 = 2 ^ 32 := rfl
  rw [byteOf, byteOf, Nat.div_div_eq_div_mul, Nat.pow_add, hfour]

theorem Mem.store64_eq {m : Mem} {p : UInt32} {v : Nat} :
    m.store64 p v = (m.store32 p (UInt32.ofNat v)).store32 (p + UInt32.ofNat 4)
      (UInt32.ofNat (v / 2 ^ 32)) := by
  have hlow : ∀ i < 4, byteOf (UInt32.ofNat v).toNat i = byteOf v i := fun i hi => by
    rw [UInt32.toNat_ofNat', ← byteOf_mod hi]
  have hhigh : ∀ i < 4, byteOf (UInt32.ofNat (v / 2 ^ 32)).toNat i = byteOf v (4 + i) :=
    fun i hi => by rw [UInt32.toNat_ofNat', ← byteOf_mod hi, byteOf_div]
  rw [Mem.store64, Mem.store32, Mem.store32, Mem.write_congr hlow, Mem.write_congr hhigh,
    Mem.write_write (by omega)]

theorem Mem.load64_store64 {m : Mem} {p : UInt32} {v : Nat} (hv : v < 2 ^ 64) :
    (m.store64 p v).load64 p = v := by
  have hlow : (m.store64 p v).load32 p = UInt32.ofNat v := by
    rw [Mem.store64_eq, Mem.load32_store32_off, Mem.load32_store32]
    intro a ha
    rw [← UInt32.add_zero p] at ha
    exact ha.disjoint_parts (i := 0) (by omega) (by omega)
  have hhigh : (m.store64 p v).load32 (p + UInt32.ofNat 4) = UInt32.ofNat (v / 2 ^ 32) := by
    rw [Mem.store64_eq, Mem.load32_store32]
  rw [Mem.load64, hlow, hhigh, UInt32.toNat_ofNat', UInt32.toNat_ofNat']
  omega

/-! ## Arrays of words -/

/-- Entry `i` of the array of 32-bit words at `base`. -/
def Mem.word (m : Mem) (base : UInt32) (i : Nat) : UInt32 :=
  m.load32 (base + UInt32.ofNat (4 * i))

def Mem.setWord (m : Mem) (base : UInt32) (i : Nat) (v : UInt32) : Mem :=
  m.store32 (base + UInt32.ofNat (4 * i)) v

@[simp] theorem Mem.word_setWord_self {m : Mem} {base v : UInt32} {i : Nat} :
    (m.setWord base i v).word base i = v := Mem.load32_store32

theorem Mem.word_setWord_ne {m : Mem} {base v : UInt32} {i j : Nat}
    (h : j ≠ i) (hi : 4 * i + 4 ≤ 2 ^ 32) (hj : 4 * j + 4 ≤ 2 ^ 32) :
    (m.setWord base i v).word base j = m.word base j := by
  refine Mem.load32_store32_off fun a ha hb => ?_
  rcases Nat.lt_or_gt_of_ne h with hlt | hgt
  · exact ha.disjoint_parts (by omega) (by omega) hb
  · exact hb.disjoint_parts (by omega) (by omega) ha

theorem sameOff_setWord {m : Mem} {base v : UInt32} {i n : Nat} (hi : i < n)
    (hn : 4 * n ≤ 2 ^ 32) :
    SameOff (Span base (4 * n)) m (m.setWord base i v) :=
  sameOff_store32.mono fun _ ha => ha.sub (by omega) hn

/-- An array keeps its words under writes elsewhere. -/
theorem SameOff.word {W : UInt32 → Prop} {m m' : Mem} {base : UInt32}
    {i n : Nat} (h : SameOff W m m') (hi : i < n) (hn : 4 * n ≤ 2 ^ 32)
    (hoff : ∀ a, Span base (4 * n) a → ¬ W a) :
    m'.word base i = m.word base i :=
  Mem.load32_congr fun a ha => h a (hoff a (ha.sub (by omega) hn))

/-- Entry `i` of the array of 64-bit words at `base`. -/
def Mem.quad (m : Mem) (base : UInt32) (i : Nat) : Nat :=
  m.load64 (base + UInt32.ofNat (8 * i))

def Mem.setQuad (m : Mem) (base : UInt32) (i v : Nat) : Mem :=
  m.store64 (base + UInt32.ofNat (8 * i)) v

theorem Mem.quad_setQuad_self {m : Mem} {base : UInt32} {i v : Nat} (hv : v < 2 ^ 64) :
    (m.setQuad base i v).quad base i = v := Mem.load64_store64 hv

theorem sameOff_setQuad {m : Mem} {base : UInt32} {i n v : Nat} (hi : i < n)
    (hn : 8 * n ≤ 2 ^ 32) : SameOff (Span base (8 * n)) m (m.setQuad base i v) :=
  sameOff_write.mono fun _ ha => ha.sub (by omega) hn

theorem Mem.quad_setQuad_ne {m : Mem} {base : UInt32} {i j v : Nat} (h : j ≠ i)
    (hi : 8 * i + 8 ≤ 2 ^ 32) (hj : 8 * j + 8 ≤ 2 ^ 32) :
    (m.setQuad base i v).quad base j = m.quad base j := by
  refine Mem.load64_congr fun a ha => Mem.write_off fun hb => ?_
  rcases Nat.lt_or_gt_of_ne h with hlt | hgt
  · exact ha.disjoint_parts (by omega) (by omega) hb
  · exact hb.disjoint_parts (by omega) (by omega) ha

/-- The first `n` words become `f 0, …, f (n - 1)`, one after the other. -/
def Mem.fillWords (m : Mem) (base : UInt32) (f : Nat → UInt32) : Nat → Mem
  | 0 => m
  | n + 1 => (m.fillWords base f n).setWord base n (f n)

theorem Mem.word_fillWords {m : Mem} {base : UInt32} {f : Nat → UInt32}
    {n i : Nat} (hi : i < n) (hn : 4 * n ≤ 2 ^ 32) :
    (m.fillWords base f n).word base i = f i := by
  induction n with
  | zero => exact absurd hi (Nat.not_lt_zero i)
  | succ n ih =>
      rw [Mem.fillWords]
      by_cases hlast : i = n
      · rw [hlast, Mem.word_setWord_self]
      · rw [Mem.word_setWord_ne hlast (by omega) (by omega),
          ih (by omega) (by omega)]

theorem sameOff_fillWords {m : Mem} {base : UInt32} {f : Nat → UInt32}
    {n : Nat} (hn : 4 * n ≤ 2 ^ 32) :
    SameOff (Span base (4 * n)) m (m.fillWords base f n) := by
  induction n with
  | zero => exact SameOff.refl m
  | succ n ih =>
      exact ((ih (by omega)).mono fun _ ha => ha.mono (by omega)).trans
        (sameOff_setWord (Nat.lt_succ_self n) hn)

end Bedrock.Lib
