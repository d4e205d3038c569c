import Bedrock.Libc.Numerals

/-!
# What `kprint_int` and `kprint_hex` print

Both hand the console a string they build in a buffer of 16 bytes. For `kprint_int`
it is the numeral of the value as an `int`, so that the upper half of the range comes
out negative. `kprint_hex` prints the digit 10 right in the last place only.
-/

namespace Bedrock

open Lib

/-- The character of a digit. -/
def digitChar (d : Nat) : UInt8 :=
  if d < 10 then UInt8.ofNat (d + 0x30) else UInt8.ofNat (d - 10 + 0x61)

theorem digitChar_ne {d : Nat} (hd : d < 16) {c : UInt8}
    (hc : c.toNat < 0x30 ∨ c.toNat = 0x3A) : digitChar d ≠ c := by
  rintro rfl
  interval_cases d <;> revert hc <;> decide

/-- Neither NUL nor `-` nor `:` is among the characters of a numeral. -/
theorem not_mem_digits {b : Nat} (hb : b ≤ 16) {c : UInt8}
    (hc : c.toNat < 0x30 ∨ c.toNat = 0x3A) {ds : List Nat} (hds : ∀ d ∈ ds, d < b) :
    c ∉ ds.map digitChar := by
  intro hmem
  obtain ⟨d, hd, hchar⟩ := List.mem_map.mp hmem
  have hlt := hds d hd
  exact digitChar_ne (show d < 16 by omega) hc hchar

variable {δ : Type} {k : Kernel δ} {p : UInt32} {l : List UInt8} {fuel : Nat}

/-- A memory holds one string at an address. -/
theorem IsStr.unique {s : Nat → UInt8} {l l' : List UInt8} (h : IsStr s l) (h' : IsStr s l') :
    l = l' := by
  have hlen : l.length = l'.length := by
    rcases Nat.le_total l.length l'.length with hle | hle
    · exact (h'.eq_zero_iff hle).mp h.stop
    · exact ((h.eq_zero_iff hle).mp h'.stop).symm
  refine List.ext_getElem hlen fun i hi hi' => ?_
  rw [← h.char i hi, ← h'.char i hi']

theorem IsStr.mem_of_ne_zero {s : Nat → UInt8} {l : List UInt8} {i : Nat} (h : IsStr s l)
    (hi : i ≤ l.length) (hne : s i ≠ 0) : s i ∈ l := by
  rcases Nat.lt_or_eq_of_le hi with hlt | rfl
  · rw [h.char i hlt]
    exact List.getElem_mem hlt
  · exact absurd h.stop hne

/-! ## `reverse` -/

theorem setChar_run (s i : UInt32) (c : UInt8) (k : Kernel δ) :
    (setChar s i c).run k = .ok () { k with mem := k.mem.write (s + i) 1 fun _ => c } := rfl

theorem toUInt32_ofNat (n : Nat) : (Int32.ofNat n).toUInt32 = UInt32.ofNat n :=
  Int32.toUInt32_ofNat'

theorem sameOff_char {m : Mem} {n i : Nat} {f : Nat → UInt8} (hi : i < n) (hn : n ≤ 2 ^ 32) :
    SameOff (Span p n) m (m.write (p + UInt32.ofNat i) 1 f) :=
  sameOff_write.mono fun _ ha => ha.sub (by omega) hn

/-- With `a` characters exchanged from both ends, `b` is the place opposite to `a`. -/
theorem reverseLoop_run {a b : Nat} (hlen : a + b + 1 = l.length) (hmax : l.length < 2 ^ 31)
    (hbuf : ∀ t (ht : t < l.length), chars k.mem p t =
      if t < a ∨ b < t then l[l.length - 1 - t] else l[t])
    (hfuel : b + 1 ≤ fuel + a) (hpos : 0 < fuel) :
    ∃ m, (reverseLoop p fuel (Int32.ofNat a) (Int32.ofNat b)).run k = .ok () { k with mem := m } ∧
      (∀ t (ht : t < l.length), chars m p t = l[l.length - 1 - t]) ∧
      SameOff (Span p l.length) k.mem m := by
  induction fuel generalizing a b k with
  | zero => omega
  | succ fuel ih =>
      have hlt : Int32.ofNat a < Int32.ofNat b ↔ a < b := by
        rw [Int32.lt_iff_toInt_lt, Int32.toInt_ofNat_of_lt (by omega),
          Int32.toInt_ofNat_of_lt (by omega)]
        omega
      rw [reverseLoop]
      by_cases hab : a < b
      · rw [if_pos (hlt.mpr hab), Exec.bind_ok (EStateM.run_get k)]
        simp only [toUInt32_ofNat]
        rw [Exec.bind_ok (setChar_run _ _ _ _), Exec.bind_ok (setChar_run _ _ _ _)]
        have hnext : Int32.ofNat a + 1 = Int32.ofNat (a + 1) := (Int32.ofNat_add a 1).symm
        have hprev : Int32.ofNat b - 1 = Int32.ofNat (b - 1) := by
          rw [← Int32.toInt_inj, Int32.toInt_sub, Int32.toInt_ofNat_of_lt (by omega),
            Int32.toInt_ofNat_of_lt (by omega), show (1 : Int32).toInt = 1 from rfl]
          rw [Int.bmod_eq_of_le (by omega) (by omega)]
          omega
        obtain ⟨m₁, hm₁⟩ : ∃ m₁, m₁ = (k.mem.write (p + UInt32.ofNat a) 1 fun _ =>
          k.mem (p + UInt32.ofNat b)).write (p + UInt32.ofNat b) 1 fun _ =>
            k.mem (p + UInt32.ofNat a) := ⟨_, rfl⟩
        have hoff₁ : SameOff (Span p l.length) k.mem m₁ := by
          rw [hm₁]
          exact (sameOff_char (by omega) (by omega)).trans (sameOff_char (by omega) (by omega))
        have hbuf₁ : ∀ t (ht : t < l.length), chars m₁ p t =
            if t < a + 1 ∨ b - 1 < t then l[l.length - 1 - t] else l[t] := by
          intro t ht
          have ha := hbuf a (by omega)
          have hb := hbuf b (by omega)
          rw [if_neg (by omega)] at ha hb
          rw [hm₁, chars_write (by omega) (by omega), chars_write (by omega) (by omega),
            show k.mem (p + UInt32.ofNat a) = _ from ha,
            show k.mem (p + UInt32.ofNat b) = _ from hb]
          by_cases htb : t = b
          · subst htb
            rw [if_pos rfl, if_pos (by omega)]
            congr 1
            omega
          by_cases hta : t = a
          · subst hta
            rw [if_neg htb, if_pos rfl, if_pos (by omega)]
            congr 1
            omega
          · rw [if_neg htb, if_neg hta, hbuf t ht]
            simp only [show (t < a + 1 ∨ b - 1 < t) ↔ (t < a ∨ b < t) by omega]
        obtain ⟨m, hrun, hrev, hoff⟩ := ih (k := { k with mem := m₁ }) (a := a + 1) (b := b - 1)
          (by omega) hbuf₁ (by omega) (by omega)
        refine ⟨m, ?_, hrev, hoff₁.trans hoff⟩
        rw [hnext, hprev, ← hm₁]
        exact hrun
      · rw [if_neg (mt hlt.mp hab)]
        refine ⟨k.mem, rfl, fun t ht => ?_, SameOff.refl k.mem⟩
        rw [hbuf t ht]
        split
        · rfl
        · congr 1
          omega

theorem reverse_run (hl : IsStr (chars k.mem p) l) (hne : l ≠ []) (hmax : l.length < 2 ^ 31)
    (hfuel : l.length < fuel) :
    ∃ m, (reverse fuel p).run k = .ok () { k with mem := m } ∧ IsStr (chars m p) l.reverse ∧
      SameOff (Span p l.length) k.mem m := by
  have hpos := List.length_pos_iff.mpr hne
  have hlast : Int32.ofNat l.length - 1 = Int32.ofNat (l.length - 1) := by
    obtain ⟨n, hn⟩ := Nat.exists_eq_add_one_of_ne_zero (Nat.ne_of_gt hpos)
    rw [hn, Int32.ofNat_add, Nat.add_sub_cancel]
    exact Int32.add_sub_cancel _ _
  obtain ⟨m, hrun, hrev, hoff⟩ := reverseLoop_run (k := k) (p := p) (l := l) (a := 0)
    (b := l.length - 1) (by omega) hmax (fun t ht => by rw [if_neg (by omega), hl.char t ht])
    (show l.length - 1 + 1 ≤ fuel + 0 by omega) (by omega)
  refine ⟨m, ?_, ⟨fun i hi => ?_, ?_, fun h0 => hl.nonzero (List.mem_reverse.mp h0)⟩, hoff⟩
  · rw [reverse, strlen_bind hl hfuel, hlast]
    exact hrun
  · rw [List.length_reverse] at hi
    rw [hrev i hi, List.getElem_reverse]
  · rw [List.length_reverse, ← hl.stop]
    refine hoff _ fun hin => ?_
    rw [Span, toNat_sub_add_ofNat (by omega)] at hin
    exact absurd hin (Nat.lt_irrefl _)

/-! ## `int_to_ascii` -/

theorem ofNat_mod_ten {v : Nat} (hv : v < 2 ^ 31) :
    Int32.ofNat v % 10 = Int32.ofNat (v % 10) := by
  rw [← Int32.toInt_inj, Int32.toInt_mod, Int32.toInt_ofNat_of_lt hv,
    Int32.toInt_ofNat_of_lt (by omega)]
  exact Int.tmod_eq_emod_of_nonneg (by omega)

theorem ofNat_div_ten {v : Nat} (hv : v < 2 ^ 31) :
    Int32.ofNat v / 10 = Int32.ofNat (v / 10) := by
  rw [← Int32.toInt_inj, Int32.toInt_div, Int32.toInt_ofNat_of_lt hv,
    Int32.toInt_ofNat_of_lt (by omega), show (10 : Int32).toInt = 10 from rfl,
    Int.tdiv_eq_ediv_of_nonneg (by omega), Int.bmod_eq_of_le (by omega) (by omega)]
  rfl

theorem toChar_digit {d : Nat} (hd : d < 10) : toChar (Int32.ofNat d + 0x30) = digitChar d := by
  interval_cases d <;> rfl

/-- The loop writes the digits of a number that is not negative, the last one first. -/
theorem intToAsciiLoop_run {a v : Nat} (hv : v < 2 ^ 31)
    (hfuel : (revDigits 10 v).length ≤ fuel) (hmax : a + (revDigits 10 v).length < 2 ^ 31) :
    ∃ m, (intToAsciiLoop p fuel (Int32.ofNat a) (Int32.ofNat v)).run k =
        .ok (Int32.ofNat (a + (revDigits 10 v).length)) { k with mem := m } ∧
      BytesAt m (p + UInt32.ofNat a) ((revDigits 10 v).map digitChar) ∧
      SameOff (Span (p + UInt32.ofNat a) (revDigits 10 v).length) k.mem m := by
  induction fuel generalizing a v k with
  | zero =>
      have hnil := List.eq_nil_of_length_eq_zero (Nat.le_zero.mp hfuel)
      have hnum := (isNumeral_revDigits (show 1 < 10 by decide) v).nonempty
      rw [hnil] at hnum
      exact absurd rfl hnum
  | succ fuel ih =>
      have hpos : 0 < Int32.ofNat (v / 10) ↔ 10 ≤ v := by
        rw [Int32.lt_iff_toInt_lt, Int32.toInt_ofNat_of_lt (by omega),
          show (0 : Int32).toInt = 0 from rfl]
        omega
      rw [intToAsciiLoop, ofNat_mod_ten hv, ofNat_div_ten hv,
        toChar_digit (Nat.mod_lt _ (by decide)), toUInt32_ofNat,
        Exec.bind_ok (setChar_run _ _ _ _)]
      by_cases hten : 10 ≤ v
      · rw [revDigits_cons (by decide) hten, List.length_cons] at hfuel hmax
        have hnext : p + UInt32.ofNat a + 1 = p + UInt32.ofNat (a + 1) := by
          rw [UInt32.ofNat_add, UInt32.add_assoc]
          rfl
        have hrest : ∀ t, Span (p + UInt32.ofNat (a + 1)) (revDigits 10 (v / 10)).length t →
            Span (p + UInt32.ofNat a) ((revDigits 10 (v / 10)).length + 1) t := fun t ht => by
          rw [← hnext, ← show UInt32.ofNat 1 = 1 from rfl] at ht
          exact ht.sub (by omega) (by omega)
        have hfirst : ¬ Span (p + UInt32.ofNat (a + 1)) (revDigits 10 (v / 10)).length
            (p + UInt32.ofNat a) :=
          (span_self Nat.zero_lt_one).disjoint_parts (by omega) (by omega)
        obtain ⟨m₁, hm₁⟩ : ∃ m₁, m₁ = k.mem.write (p + UInt32.ofNat a) 1 fun _ =>
          digitChar (v % 10) := ⟨_, rfl⟩
        have hoff₁ : SameOff (Span (p + UInt32.ofNat a) 1) k.mem m₁ := hm₁ ▸ sameOff_write
        obtain ⟨m, hrun, hbytes, hoff⟩ := ih (k := { k with mem := m₁ }) (a := a + 1)
          (v := v / 10) (by omega) (by omega) (by omega)
        rw [if_pos (hpos.mpr hten), revDigits_cons (by decide) hten, List.map_cons,
          List.length_cons, ← hm₁, show Int32.ofNat a + 1 = Int32.ofNat (a + 1) from
            (Int32.ofNat_add a 1).symm, hrun]
        refine ⟨m, ?_, bytesAt_cons.mpr ⟨?_, ?_⟩, ?_⟩
        · rw [Nat.add_right_comm, Nat.add_assoc]
        · rw [hoff _ hfirst]
          show m₁ _ = _
          rw [hm₁, Mem.write_in (span_self Nat.zero_lt_one)]
        · rw [hnext]
          exact hbytes
        · exact (hoff₁.mono fun t ht => ht.mono (by omega)).trans (hoff.mono hrest)
      · rw [if_neg (mt hpos.mp hten), revDigits_last (by omega), Nat.mod_eq_of_lt (by omega)]
        exact ⟨_, by rw [List.length_singleton, Int32.ofNat_add]; rfl,
          bytesAt_cons.mpr ⟨Mem.write_in (span_self Nat.zero_lt_one), bytesAt_nil⟩, sameOff_write⟩

theorem length_decimal {v : Nat} (hv : v < 2 ^ 31) : (revDigits 10 v).length ≤ 10 :=
  length_revDigits_le (by decide) (by decide) (by omega)

theorem zero_not_mem_decimal (v : Nat) : (0 : UInt8) ∉ (revDigits 10 v).map digitChar := by
  refine not_mem_digits (show 10 ≤ 16 by decide) (.inl (by decide)) fun d hd => ?_
  exact (isNumeral_revDigits (by decide) v).digit d (List.mem_reverse.mpr hd)

/-- The characters are closed with a NUL and reversed. -/
theorem closeStr_run (h : BytesAt k.mem p l) (h0 : 0 ∉ l) (hne : l ≠ []) (hlen : l.length < 16)
    (hfuel : 16 ≤ fuel) :
    ∃ m, (do
        setChar p (UInt32.ofNat l.length) 0
        reverse fuel p : Kern δ Unit).run k = .ok () { k with mem := m } ∧
      IsStr (chars m p) l.reverse ∧ SameOff (Span p 16) k.mem m := by
  obtain ⟨m₁, hm₁⟩ : ∃ m₁, m₁ = k.mem.write (p + UInt32.ofNat l.length) 1 fun _ => 0 := ⟨_, rfl⟩
  have hchars : ∀ j < 2 ^ 32, chars m₁ p j = if j = l.length then 0 else chars k.mem p j :=
    fun j hj => by rw [hm₁, chars_write (by omega) hj]
  have hstr : IsStr (chars m₁ p) l := by
    refine ⟨fun i hi => ?_, ?_, h0⟩
    · rw [hchars i (by omega), if_neg (by omega)]
      exact h i hi
    · rw [hchars _ (by omega), if_pos rfl]
  obtain ⟨m, hrun, hrev, hoff⟩ := reverse_run (k := { k with mem := m₁ }) hstr hne (by omega)
    (show l.length < fuel by omega)
  have hoff₁ : SameOff (Span p 16) k.mem m₁ := hm₁ ▸ sameOff_char hlen (by omega)
  refine ⟨m, ?_, hrev, hoff₁.trans (hoff.mono fun a ha => ha.mono (by omega))⟩
  rw [Exec.bind_ok (setChar_run _ _ _ _), ← hm₁, hrun]

theorem intToAscii_run {v : Nat} (hv : v < 2 ^ 31) (hfuel : 16 ≤ fuel) :
    ∃ m, (intToAscii fuel (Int32.ofNat v) p).run k = .ok () { k with mem := m } ∧
      IsStr (chars m p) ((revDigits 10 v).reverse.map digitChar) ∧
      SameOff (Span p 16) k.mem m := by
  have hsign : ¬ Int32.ofNat v < 0 := by
    rw [Int32.lt_iff_toInt_lt, Int32.toInt_ofNat_of_lt hv]
    exact Int.not_lt.mpr (Int.natCast_nonneg v)
  have hlen := length_decimal hv
  have hne : (revDigits 10 v).map digitChar ≠ [] := fun hnil =>
    (isNumeral_revDigits (show 1 < 10 by decide) v).nonempty (by
      rw [List.map_eq_nil_iff.mp hnil]
      rfl)
  obtain ⟨m₁, hloop, hbytes, hoff₁⟩ := intToAsciiLoop_run (k := k) (p := p) (a := 0) hv
    (show (revDigits 10 v).length ≤ fuel by omega) (by omega)
  rw [show UInt32.ofNat 0 = 0 from rfl, UInt32.add_zero] at hbytes hoff₁
  obtain ⟨m, hclose, hrev, hoff⟩ := closeStr_run (k := { k with mem := m₁ }) hbytes
    (zero_not_mem_decimal v) hne (by rw [List.length_map]; omega) hfuel
  rw [List.length_map] at hclose
  rw [← List.map_reverse] at hrev
  refine ⟨m, ?_, hrev, (hoff₁.mono fun a ha => ha.mono (by omega)).trans hoff⟩
  rw [intToAscii]
  simp only [if_neg hsign]
  refine (Exec.bind_ok hloop).trans ?_
  rw [Nat.zero_add, toUInt32_ofNat, hclose]

/-- Of a negative number the loop gets the digits of its opposite, and of the smallest
`int`, which has none, a single character that is no digit. -/
theorem intToAsciiLoop_neg {n : Int32} (hn : n < 0) (hfuel : 16 ≤ fuel) :
    ∃ (l : List UInt8) (m : Mem), (intToAsciiLoop p fuel 0 (-n)).run k =
        .ok (Int32.ofNat l.length) { k with mem := m } ∧
      BytesAt m p l ∧ 0 ∉ l ∧ l.length ≤ 10 := by
  rw [Int32.lt_iff_toInt_lt, show (0 : Int32).toInt = 0 from rfl] at hn
  have hmin := Int32.le_toInt n
  by_cases hleast : n = -2147483648
  · obtain ⟨fuel, rfl⟩ := Nat.exists_eq_add_one_of_ne_zero (n := fuel) (by omega)
    subst hleast
    refine ⟨[40], k.mem.write p 1 fun _ => 40, ?_, bytesAt_cons.mpr ⟨Mem.write_in
      (span_self Nat.zero_lt_one), bytesAt_nil⟩, by decide, by decide⟩
    rw [intToAsciiLoop, Exec.bind_ok (setChar_run _ _ _ _), if_neg (by decide)]
    rw [show (0 : Int32).toUInt32 = 0 from rfl, UInt32.add_zero]
    rfl
  · have hne : n.toInt ≠ -2147483648 := fun h => hleast (Int32.toInt_inj.mp h)
    obtain ⟨v, hv⟩ : ∃ v : Nat, n.toInt = -v := ⟨n.toInt.natAbs, by omega⟩
    have hopp : -n = Int32.ofNat v := by
      rw [← Int32.toInt_inj, Int32.toInt_neg, Int32.toInt_ofNat_of_lt (by omega), hv,
        Int.neg_neg, Int.bmod_eq_of_le (by omega) (by omega)]
    have hlen := length_decimal (show v < 2 ^ 31 by omega)
    obtain ⟨m, hloop, hbytes, -⟩ := intToAsciiLoop_run (k := k) (p := p) (a := 0)
      (show v < 2 ^ 31 by omega) (show (revDigits 10 v).length ≤ fuel by omega) (by omega)
    rw [show UInt32.ofNat 0 = 0 from rfl, UInt32.add_zero] at hbytes
    refine ⟨_, m, ?_, hbytes, zero_not_mem_decimal v, by rw [List.length_map]; exact hlen⟩
    rw [hopp, List.length_map]
    rw [Nat.zero_add] at hloop
    exact hloop

/-- A negative number gets a sign. -/
theorem intToAscii_neg {n : Int32} (hn : n < 0) (hfuel : 16 ≤ fuel) :
    ∃ (l : List UInt8) (m : Mem), (intToAscii fuel n p).run k = .ok () { k with mem := m } ∧
      IsStr (chars m p) (0x2D :: l) := by
  obtain ⟨l, m₁, hloop, hbytes, h0, hlen⟩ := intToAsciiLoop_neg (k := k) (p := p) hn hfuel
  obtain ⟨m₂, hm₂⟩ : ∃ m₂, m₂ = m₁.write (p + UInt32.ofNat l.length) 1 fun _ => 0x2D := ⟨_, rfl⟩
  have hsigned : BytesAt m₂ p (l ++ [0x2D]) := by
    intro i hi
    rw [List.length_append, List.length_singleton] at hi
    show chars m₂ p i = _
    rw [hm₂, chars_write (by omega) (by omega)]
    split
    · rename_i heq
      subst heq
      rw [List.getElem_concat_length rfl]
    · rename_i hne
      rw [List.getElem_append_left (by omega)]
      exact hbytes i (by omega)
  obtain ⟨m, hclose, hrev, -⟩ := closeStr_run (k := { k with mem := m₂ }) hsigned
    (by simp [h0]) (by simp) (by rw [List.length_append, List.length_singleton]; omega) hfuel
  rw [List.reverse_append, List.reverse_singleton, List.singleton_append] at hrev
  rw [List.length_append, List.length_singleton] at hclose
  refine ⟨l.reverse, m, ?_, hrev⟩
  rw [intToAscii]
  simp only [if_pos hn]
  rw [Exec.bind_ok hloop, toUInt32_ofNat, Exec.bind_ok (setChar_run _ _ _ _), ← hm₂,
    show Int32.ofNat l.length + 1 = Int32.ofNat (l.length + 1) from (Int32.ofNat_add _ 1).symm,
    toUInt32_ofNat]
  exact hclose

/-! ## Main result for `kprint_int` -/

/-- The run hands the console a string: `lead` and the numeral of the value. It writes
nothing but the buffer. -/
def PrintsNumeral (b : Nat) (lead : List UInt8) (x : Kern δ Unit) (k : Kernel δ)
    (valueStr value : UInt32) : Prop :=
  ∃ k' ds, x.run k = .ok () k' ∧ k'.console = k.console ++ [.mem valueStr] ∧
    IsStr (chars k'.mem valueStr) (lead ++ ds.map digitChar) ∧ IsNumeral b ds value.toNat ∧
    SameOff (Span valueStr 16) k.mem k'.mem

theorem toInt32_eq_ofNat (value : UInt32) : value.toInt32 = Int32.ofNat value.toNat := by
  rw [← UInt32.toInt32_ofNat', UInt32.ofNat_toNat]

/-- `kprint_int` prints the lower half of its range. -/
theorem kprintIntStr_iff (hfuel : 16 ≤ fuel) (k : Kernel δ) (valueStr value : UInt32) :
    PrintsNumeral 10 [] (kprintIntStr fuel valueStr value) k valueStr value ↔
      value.toNat < 2 ^ 31 := by
  obtain ⟨k₁, hk₁⟩ : ∃ k₁, k₁ = { k with mem := k.mem.write valueStr 16 fun _ => 0 } := ⟨_, rfl⟩
  have hempty : (emptyStr valueStr).run k = .ok () k₁ := hk₁ ▸ rfl
  constructor
  · rintro ⟨k', ds, hrun, -, hstr, hnum, -⟩
    by_contra hhigh
    have hneg : value.toInt32 < 0 := by
      have hlt := value.toNat_lt
      have hsize : Int32.size = 4294967296 := rfl
      rw [Int32.lt_iff_toInt_lt, toInt32_eq_ofNat, Int32.toInt_ofNat', Int.bmod_def, hsize,
        if_neg (by omega), show (0 : Int32).toInt = 0 from rfl]
      omega
    obtain ⟨l, m, hascii, hstr'⟩ := intToAscii_neg (k := k₁) (p := valueStr) hneg hfuel
    rw [kprintIntStr, Exec.bind_ok hempty, Exec.bind_ok hascii] at hrun
    injection hrun with _ hk'
    subst hk'
    have heq : ([] : List UInt8) ++ ds.map digitChar = 0x2D :: l := hstr.unique hstr'
    exact not_mem_digits (show 10 ≤ 16 by decide) (.inl (by decide)) hnum.digit
      (heq ▸ List.mem_cons_self : (0x2D : UInt8) ∈ [] ++ ds.map digitChar)
  · intro hlow
    obtain ⟨m, hascii, hstr, hoff⟩ := intToAscii_run (k := k₁) (p := valueStr) hlow hfuel
    rw [← toInt32_eq_ofNat] at hascii
    refine ⟨({ k₁ with mem := m } : Kernel δ).print (.mem valueStr), _, ?_, ?_, hstr,
      isNumeral_revDigits (by decide) _, ?_⟩
    · rw [kprintIntStr, Exec.bind_ok hempty, Exec.bind_ok hascii]
      rfl
    · rw [hk₁]
      rfl
    · refine SameOff.trans ?_ hoff
      rw [hk₁]
      exact sameOff_write (f := fun _ => 0)

theorem kprintIntStr_iff_1234 : PrintsNumeral 10 [] (kprintIntStr 16 0x1000 1234)
    (Kernel.zero ()) 0x1000 1234 :=
  (kprintIntStr_iff (by decide) (Kernel.zero ()) 0x1000 1234).mpr (by decide)

/-- `kprint_int(0xFFFFFFFF)` prints `-1`. -/
theorem kprintIntStr_minus : ¬ PrintsNumeral 10 [] (kprintIntStr 16 0x1000 0xFFFFFFFF)
    (Kernel.zero ()) 0x1000 0xFFFFFFFF := by
  rintro ⟨k', ds, hrun, -, hstr, hnum, -⟩
  have hminus : chars k'.mem 0x1000 0 = 0x2D := by
    injection hrun with _ hk'
    subst hk'
    decide
  have hmem := hstr.mem_of_ne_zero (Nat.zero_le _) (by rw [hminus]; decide)
  rw [hminus] at hmem
  exact not_mem_digits (show 10 ≤ 16 by decide) (.inl (by decide)) hnum.digit hmem

/-! ## `hex_to_ascii` -/

/-- The digits of a word are cut out by shifts, also where the `int` is negative. -/
theorem nibble_eq {i : Nat} (value : UInt32) (hi : i < 8) :
    (value.toInt32 >>> Int32.ofNat (4 * i)) &&& 0xF = Int32.ofNat (digitAt 16 value.toNat i) := by
  have hshift : ((Int32.ofNat (4 * i)).toBitVec.smod 32).toNat = 4 * i := by
    interval_cases i <;> rfl
  have hmask : value.toBitVec.sshiftRight (4 * i) &&& 15#32 =
      (value.toBitVec >>> (4 * i)) &&& 15#32 := by
    apply BitVec.eq_of_getLsbD_eq
    intro j hj
    by_cases hlow : j < 4
    · simp only [BitVec.getLsbD_and, BitVec.getLsbD_sshiftRight, BitVec.getLsbD_ushiftRight,
        show 4 * i + j < 32 by omega, show ¬ 32 ≤ j by omega, decide_false, Bool.not_false,
        Bool.true_and, if_true]
    · have hzero : (15#32).getLsbD j = false := by
        obtain ⟨j, rfl⟩ := Nat.exists_eq_add_of_le (show 4 ≤ j by omega)
        have hj28 : j < 28 := by omega
        interval_cases j <;> rfl
      rw [BitVec.getLsbD_and, BitVec.getLsbD_and, hzero, Bool.and_false, Bool.and_false]
  have hdigit : digitAt 16 value.toNat i < 16 := Nat.mod_lt _ (by decide)
  have hpow : (16 : Nat) ^ i = 2 ^ (4 * i) := by rw [Nat.pow_mul]
  rw [← Int32.toBitVec_inj, Int32.toBitVec_and]
  show value.toBitVec.sshiftRight ((Int32.ofNat (4 * i)).toBitVec.smod 32).toNat &&& 15#32 =
    BitVec.ofNat 32 (digitAt 16 value.toNat i)
  rw [hshift, hmask]
  apply BitVec.eq_of_toNat_eq
  rw [BitVec.toNat_and, BitVec.toNat_ushiftRight, BitVec.toNat_ofNat, BitVec.toNat_ofNat,
    show 15 % 2 ^ 32 = 2 ^ 4 - 1 from rfl, Nat.and_two_pow_sub_one_eq_mod,
    Nat.shiftRight_eq_div_pow, Nat.mod_eq_of_lt (a := digitAt 16 value.toNat i) (by omega),
    digitAt, hpow]
  rfl

/-- What the loop makes of a digit. -/
def loopChar (d : Nat) : UInt8 :=
  if 10 < d then UInt8.ofNat (d - 10 + 0x61) else UInt8.ofNat (d + 0x30)

theorem loopChar_eq {d : Nat} (hd : d ≠ 10) : loopChar d = digitChar d := by
  rw [loopChar, digitChar]
  by_cases h : 10 < d
  · rw [if_pos h, if_neg (by omega)]
  · rw [if_neg h, if_pos (by omega)]

theorem loopChar_ne_zero {d : Nat} (hd : d < 16) : loopChar d ≠ 0 := by
  interval_cases d <;> decide

theorem toInt_digit {d : Nat} (hd : d < 16) : (Int32.ofNat d).toInt = d :=
  Int32.toInt_ofNat_of_lt (by omega)

/-- A round that prints its digit. -/
theorem appendDigit_run {d : Nat} (hd : d < 16) (hl : IsStr (chars k.mem p) l)
    (hlen : l.length < 14) (hfuel : 16 ≤ fuel) :
    ∃ m, (if Int32.ofNat d > 0xA then append fuel p (toChar (Int32.ofNat d - 0xA + 0x61))
        else append fuel p (toChar (Int32.ofNat d + 0x30)) : Kern δ Unit).run k =
          .ok () { k with mem := m } ∧
      IsStr (chars m p) (l ++ [loopChar d]) ∧ SameOff (Span p 16) k.mem m := by
  have hchar : (if Int32.ofNat d > 0xA then append fuel p (toChar (Int32.ofNat d - 0xA + 0x61))
      else append fuel p (toChar (Int32.ofNat d + 0x30)) : Kern δ Unit) =
        append fuel p (loopChar d) := by
    interval_cases d <;> rfl
  obtain ⟨m, hrun, hstr, hoff⟩ := append_run hl (show l.length < fuel by omega) (by omega)
    (loopChar_ne_zero hd)
  rw [hchar]
  exact ⟨m, hrun, hstr, hoff.mono fun a ha => ha.mono (by omega)⟩

/-- What is printed of the digits once the zeros in front have been left out. -/
def shown (zeros : Bool) (ds : List Nat) : List Nat :=
  if zeros then ds else ds.dropWhile (· = 0)

theorem hexToAsciiLoop_run {r : Nat} (zeros : Bool) (value : UInt32) (hr : r < 8)
    (hl : IsStr (chars k.mem p) l) (hlen : l.length + r < 14) (hfuel : 16 ≤ fuel) :
    ∃ m, (hexToAsciiLoop fuel value.toInt32 p r zeros).run k = .ok () { k with mem := m } ∧
      IsStr (chars m p) (l ++ (shown zeros (places 16 (value.toNat / 16) r)).map loopChar) ∧
      SameOff (Span p 16) k.mem m := by
  induction r generalizing k l zeros with
  | zero =>
      refine ⟨k.mem, rfl, ?_, SameOff.refl k.mem⟩
      cases zeros with
      | true => simpa [shown, places] using hl
      | false => simpa [shown, places] using hl
  | succ r ih =>
      have hdigit : digitAt 16 value.toNat (r + 1) = digitAt 16 (value.toNat / 16) r := by
        rw [digitAt, digitAt, Nat.div_div_eq_div_mul, Nat.pow_succ, Nat.mul_comm]
      have hd : digitAt 16 (value.toNat / 16) r < 16 := Nat.mod_lt _ (by decide)
      rw [hexToAsciiLoop, nibble_eq value hr, hdigit, places]
      generalize digitAt 16 (value.toNat / 16) r = d at hd ⊢
      have hzero : Int32.ofNat d = 0 ↔ d = 0 := by
        rw [← Int32.toInt_inj, toInt_digit hd, show (0 : Int32).toInt = 0 from rfl]
        omega
      by_cases hskip : d = 0 ∧ zeros = false
      · obtain ⟨rfl, rfl⟩ := hskip
        rw [if_pos ⟨rfl, rfl⟩]
        obtain ⟨m, hrun, hstr, hoff⟩ := ih false (by omega) hl (by omega)
        refine ⟨m, hrun, ?_, hoff⟩
        simpa [shown] using hstr
      · have hshown : shown zeros (d :: places 16 (value.toNat / 16) r) =
            d :: shown true (places 16 (value.toNat / 16) r) := by
          cases zeros with
          | true => rfl
          | false =>
              have hne : d ≠ 0 := fun h => hskip ⟨h, rfl⟩
              simp [shown, hne]
        rw [if_neg (by rw [hzero]; exact hskip), hshown, List.map_cons]
        obtain ⟨m₁, hrun₁, hstr₁, hoff₁⟩ := appendDigit_run hd hl (by omega) hfuel
        obtain ⟨m, hrun, hstr, hoff⟩ := ih (k := { k with mem := m₁ }) true (by omega)
          hstr₁ (by rw [List.length_append, List.length_singleton]; omega)
        refine ⟨m, ?_, ?_, hoff₁.trans hoff⟩
        · by_cases hten : Int32.ofNat d > 0xA
          · rw [if_pos hten] at hrun₁
            simp only [if_pos hten]
            rw [Exec.bind_ok hrun₁, hrun]
          · rw [if_neg hten] at hrun₁
            simp only [if_neg hten]
            rw [Exec.bind_ok hrun₁, hrun]
        · rw [List.append_cons]
          exact hstr

/-- The string `kprint_hex` builds. -/
def hexString (v : Nat) : List UInt8 :=
  [0x30, 0x78] ++ ((places 16 (v / 16) 7).dropWhile (· = 0)).map loopChar ++ [digitChar (v % 16)]

theorem hexToAscii_run (value : UInt32) (hl : IsStr (chars k.mem p) []) (hfuel : 16 ≤ fuel) :
    ∃ m, (hexToAscii fuel value.toInt32 p).run k = .ok () { k with mem := m } ∧
      IsStr (chars m p) (hexString value.toNat) ∧ SameOff (Span p 16) k.mem m := by
  have hlast : value.toInt32 &&& 0xF = Int32.ofNat (value.toNat % 16) := by
    have hnibble := nibble_eq value (show 0 < 8 by decide)
    rw [digitAt, Nat.pow_zero, Nat.div_one] at hnibble
    rw [← hnibble]
    congr 1
    rw [← Int32.toBitVec_inj]
    exact (BitVec.sshiftRight_zero).symm
  have hchar : (if Int32.ofNat (value.toNat % 16) ≥ 0xA then
      append fuel p (toChar (Int32.ofNat (value.toNat % 16) - 0xA + 0x61))
      else append fuel p (toChar (Int32.ofNat (value.toNat % 16) + 0x30)) : Kern δ Unit) =
        append fuel p (digitChar (value.toNat % 16)) := by
    have hd : value.toNat % 16 < 16 := Nat.mod_lt _ (by decide)
    generalize value.toNat % 16 = d at hd ⊢
    interval_cases d <;> rfl
  have hlen := (ofDigits_places 16 (value.toNat / 16) 7).2
  have hdrop := (List.dropWhile_suffix (l := places 16 (value.toNat / 16) 7) (· = 0)).length_le
  have hne : digitChar (value.toNat % 16) ≠ 0 :=
    digitChar_ne (Nat.mod_lt _ (by decide)) (.inl (by decide))
  obtain ⟨m₁, h₁, hstr₁, hoff₁⟩ := append_run (c := 0x30) hl (show 0 < fuel by omega)
    (show 0 + 2 ≤ 2 ^ 31 by decide) (by decide)
  obtain ⟨m₂, h₂, hstr₂, hoff₂⟩ := append_run (k := { k with mem := m₁ }) (c := 0x78) hstr₁
    (show 1 < fuel by omega) (show 1 + 2 ≤ 2 ^ 31 by decide) (by decide)
  obtain ⟨m₃, h₃, hstr₃, hoff₃⟩ := hexToAsciiLoop_run (k := { k with mem := m₂ }) (r := 7)
    false value (by decide) hstr₂ (show 2 + 7 < 14 by decide) hfuel
  have hshort : ([] ++ [0x30] ++ [0x78] ++ (shown false (places 16 (value.toNat / 16) 7)).map
      loopChar : List UInt8).length ≤ 9 := by
    rw [List.length_append, List.length_map]
    show 2 + ((places 16 (value.toNat / 16) 7).dropWhile (· = 0)).length ≤ 9
    omega
  obtain ⟨m, h, hstr, hoff⟩ := append_run (k := { k with mem := m₃ }) hstr₃
    (show _ < fuel by omega) (by omega) hne
  refine ⟨m, ?_, hstr, ?_⟩
  · rw [hexToAscii, Exec.bind_ok h₁, Exec.bind_ok h₂, Exec.bind_ok h₃, hlast]
    simp only [hchar]
    exact h
  · exact (((hoff₁.mono fun a ha => ha.mono (show 0 + 2 ≤ 16 by decide)).trans
      (hoff₂.mono fun a ha => ha.mono (show 1 + 2 ≤ 16 by decide))).trans hoff₃).trans
        (hoff.mono fun a ha => ha.mono (by omega))

/-! ## Main result for `kprint_hex` -/

/-- The digit 10 is in the last place at most. -/
def NoInnerTen (value : UInt32) : Prop :=
  ∀ i < 7, digitAt 16 (value.toNat / 16) i ≠ 10

instance {value : UInt32} : Decidable (NoInnerTen value) :=
  inferInstanceAs (Decidable (∀ i < 7, _))

theorem mem_places {b n d k : Nat} : d ∈ places b n k ↔ ∃ i < k, digitAt b n i = d := by
  induction k with
  | zero => simp [places]
  | succ k ih =>
      rw [places, List.mem_cons, ih]
      constructor
      · rintro (rfl | ⟨i, hi, rfl⟩)
        · exact ⟨k, Nat.lt_succ_self k, rfl⟩
        · exact ⟨i, Nat.lt_succ_of_lt hi, rfl⟩
      · rintro ⟨i, hi, rfl⟩
        rcases Nat.lt_succ_iff_lt_or_eq.mp hi with hlt | rfl
        · exact .inr ⟨i, hlt, rfl⟩
        · exact .inl rfl

theorem mem_dropWhile {d : Nat} {ds : List Nat} (hd : d ∈ ds) (hne : d ≠ 0) :
    d ∈ ds.dropWhile (· = 0) := by
  rw [← List.takeWhile_append_dropWhile (p := (· = 0)) (l := ds)] at hd
  rcases List.mem_append.mp hd with hzero | hrest
  · exact absurd (by simpa using List.mem_takeWhile_imp hzero) hne
  · exact hrest

/-- The digits without the zeros in front, and the last one, are the numeral. -/
theorem isNumeral_places (value : UInt32) :
    IsNumeral 16 ((places 16 (value.toNat / 16) 7).dropWhile (· = 0) ++ [value.toNat % 16])
      value.toNat := by
  have hv := value.toNat_lt
  have hall : ∀ d ∈ places 16 (value.toNat / 16) 7, d < 16 := fun d hd => by
    obtain ⟨i, -, rfl⟩ := mem_places.mp hd
    exact Nat.mod_lt _ (by decide)
  refine ⟨by simp, fun d hd => ?_, fun hlead => ?_, ?_⟩
  · rcases List.mem_append.mp hd with hin | hlast
    · exact hall d ((List.dropWhile_suffix _).subset hin)
    · rw [List.mem_singleton.mp hlast]
      exact Nat.mod_lt _ (by decide)
  · cases hdrop : (places 16 (value.toNat / 16) 7).dropWhile (· = 0) with
    | nil =>
        rw [hdrop] at hlead
        simpa using hlead
    | cons d ds =>
        have hhead := List.head?_dropWhile_not (fun d => decide (d = 0))
          (places 16 (value.toNat / 16) 7)
        rw [hdrop] at hlead hhead
        simp at hlead hhead
        exact absurd hlead hhead
  · rw [List.reverse_append, List.reverse_singleton, List.singleton_append, Nat.ofDigits_cons,
      ofDigits_dropWhile, (ofDigits_places _ _ _).1]
    omega

/-- `kprint_hex` prints the values in which no digit but the last is 10. -/
theorem kprintHexStr_iff (hfuel : 16 ≤ fuel) (k : Kernel δ) (valueStr value : UInt32) :
    PrintsNumeral 16 [0x30, 0x78] (kprintHexStr fuel valueStr value) k valueStr value ↔
      NoInnerTen value := by
  obtain ⟨k₁, hk₁⟩ : ∃ k₁, k₁ = { k with mem := k.mem.write valueStr 16 fun _ => 0 } := ⟨_, rfl⟩
  have hrun₁ : (emptyStr valueStr).run k = .ok () k₁ := hk₁ ▸ rfl
  have hempty : IsStr (chars k₁.mem valueStr) [] := by
    refine ⟨fun i hi => absurd hi (Nat.not_lt_zero i), ?_, List.not_mem_nil⟩
    rw [hk₁]
    show (k.mem.write valueStr 16 fun _ => 0) (valueStr + UInt32.ofNat 0) = 0
    rw [Mem.write_in (span_add (show 0 < 16 by decide) (by decide))]
  obtain ⟨m, hascii, hstr, hoff⟩ := hexToAscii_run value hempty hfuel
  constructor
  · rintro ⟨k', ds, hrun, -, hstr', hnum, -⟩ i hi hten
    rw [kprintHexStr, Exec.bind_ok hrun₁, Exec.bind_ok hascii] at hrun
    injection hrun with _ hk'
    subst hk'
    have hshown : 10 ∈ (places 16 (value.toNat / 16) 7).dropWhile (· = 0) :=
      mem_dropWhile (mem_places.mpr ⟨i, hi, hten⟩) (by decide)
    have hcolon : (0x3A : UInt8) ∈ [0x30, 0x78] ++ ds.map digitChar := by
      rw [hstr'.unique hstr, hexString]
      exact List.mem_append_left _ (List.mem_append_right _ (List.mem_map.mpr ⟨10, hshown, rfl⟩))
    rcases List.mem_append.mp hcolon with hlead | hdigits
    · exact absurd hlead (by decide)
    · exact not_mem_digits (Nat.le_refl 16) (.inr (by decide)) hnum.digit hdigits
  · intro hinner
    refine ⟨({ k₁ with mem := m } : Kernel δ).print (.mem valueStr), _, ?_, ?_, ?_,
      isNumeral_places value, ?_⟩
    · rw [kprintHexStr, Exec.bind_ok hrun₁, Exec.bind_ok hascii]
      rfl
    · rw [hk₁]
      rfl
    · have hchars : ((places 16 (value.toNat / 16) 7).dropWhile (· = 0)).map loopChar =
          ((places 16 (value.toNat / 16) 7).dropWhile (· = 0)).map digitChar := by
        refine List.map_congr_left fun d hd => loopChar_eq fun hten => ?_
        obtain ⟨i, hi, hdigit⟩ := mem_places.mp ((List.dropWhile_suffix _).subset hd)
        exact hinner i hi (hdigit.trans hten)
      rw [hexString, hchars] at hstr
      rw [List.map_append, ← List.append_assoc]
      exact hstr
    · refine SameOff.trans ?_ hoff
      rw [hk₁]
      exact sameOff_write (f := fun _ => 0)

/-- A number whose only digit ten is the lowest. -/
theorem kprintHexStr_iff_c0bea : PrintsNumeral 16 [0x30, 0x78]
    (kprintHexStr 16 0x1000 0xC0BEA) (Kernel.zero ()) 0x1000 0xC0BEA :=
  (kprintHexStr_iff (by decide) (Kernel.zero ()) 0x1000 0xC0BEA).mpr (by decide)

/-- `kprint_hex(0xA0)` prints `0x:0`. -/
theorem kprintHexStr_ten : ¬ PrintsNumeral 16 [0x30, 0x78] (kprintHexStr 16 0x1000 0xA0)
    (Kernel.zero ()) 0x1000 0xA0 := by
  rintro ⟨k', ds, hrun, -, hstr, hnum, -⟩
  have hcolon : chars k'.mem 0x1000 2 = 0x3A := by
    injection hrun with _ hk'
    subst hk'
    decide
  have hmem := hstr.mem_of_ne_zero (show 2 ≤ _ + 1 + 1 by omega) (by rw [hcolon]; decide)
  rw [hcolon] at hmem
  rcases List.mem_append.mp hmem with hlead | hdigits
  · exact absurd hlead (by decide)
  · exact not_mem_digits (Nat.le_refl 16) (.inr (by decide)) hnum.digit hdigits

end Bedrock
