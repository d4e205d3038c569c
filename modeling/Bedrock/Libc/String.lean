import Mathlib.Data.Int.Order.Basic
import Mathlib.Data.List.Lex
import Mathlib.Data.List.TakeWhile
import Bedrock.Kernel.State
import Bedrock.Lib.Bytes

/-!
# `libc/string.c`

The string functions the file system and the keyboard driver use. A `char s[]`
is the function of the index that indexing it computes; the loops run until
they meet the terminating NUL, wherever that is, so each takes a bound on its
rounds.
-/

namespace Bedrock

open Lib

variable {δ : Type}

/-- `s[i]` of a string in memory. -/
def chars (m : Mem) (s : UInt32) (i : Nat) : UInt8 := m (s + UInt32.ofNat i)

/-- `s[i]` of a string literal. -/
def literal (l : List UInt8) (i : Nat) : UInt8 := l[i]?.getD 0

/-- `'/'` -/
def slash : UInt8 := 0x2f

def strlenLoop (s : Nat → UInt8) : (fuel i : Nat) → Option Nat
  | 0, _ => none
  | fuel + 1, i => if s i = 0 then some i else strlenLoop s fuel (i + 1)

def strlen (fuel : Nat) (s : Nat → UInt8) : Kern δ Int32 :=
  match strlenLoop s fuel 0 with
  | some i => pure (Int32.ofNat i)
  | none => throw .fuel

def strcmpLoop (s1 s2 : Nat → UInt8) : (fuel i : Nat) → Option Int32
  | 0, _ => none
  | fuel + 1, i =>
      if s1 i = s2 i then
        if s1 i = 0 then some 0 else strcmpLoop s1 s2 fuel (i + 1)
      else
        -- the characters are signed and are promoted before the subtraction
        some ((s1 i).toInt8.toInt32 - (s2 i).toInt8.toInt32)

def strcmp (fuel : Nat) (s1 s2 : Nat → UInt8) : Kern δ Int32 :=
  match strcmpLoop s1 s2 fuel 0 with
  | some r => pure r
  | none => throw .fuel

/-- The loop of `strsplit` from index `i` on, with `n` delimiters met so far. -/
def strsplitLoop (str : UInt32) (delim : UInt8) :
    (fuel : Nat) → (i : UInt32) → (n : Int32) → Mem → Option (Int32 × Mem)
  | 0, _, _, _ => none
  | fuel + 1, i, n, m =>
      if m (str + i) = 0 then some (n + 1, m)
      else if m (str + i) = delim then
        strsplitLoop str delim fuel (i + 1) (n + 1) (m.write (str + i) 1 fun _ => 0)
      else strsplitLoop str delim fuel (i + 1) n m

def strsplit (fuel : Nat) (str : UInt32) (delim : UInt8) : Kern δ Int32 := do
  let k ← get
  match strsplitLoop str delim fuel 0 0 k.mem with
  | some (n, m) =>
      set { k with mem := m }
      pure n
  | none => throw .fuel

/-- `s[i] = c` -/
def setChar (s i : UInt32) (c : UInt8) : Kern δ Unit :=
  modify fun k => { k with mem := k.mem.write (s + i) 1 fun _ => c }

def append (fuel : Nat) (s : UInt32) (n : UInt8) : Kern δ Unit := do
  let len ← strlen fuel (chars (← get).mem s)
  setChar s len.toUInt32 n
  setChar s (len + 1).toUInt32 0

def backspace (fuel : Nat) (s : UInt32) : Kern δ Unit := do
  let len ← strlen fuel (chars (← get).mem s)
  setChar s (len - 1).toUInt32 0

/-! ## Terminated strings -/

/-- The characters of `l`, none of them NUL, and then the NUL. -/
structure IsStr (s : Nat → UInt8) (l : List UInt8) : Prop where
  char : ∀ i (h : i < l.length), s i = l[i]
  stop : s l.length = 0
  nonzero : 0 ∉ l

theorem isStr_literal {l : List UInt8} (h : 0 ∉ l) : IsStr (literal l) l where
  char i hi := by rw [literal, List.getElem?_eq_getElem hi, Option.getD_some]
  stop := by rw [literal, List.getElem?_eq_none (Nat.le_refl _), Option.getD_none]
  nonzero := h

theorem isStr_of_bytesAt {m : Mem} {p : UInt32} {l : List UInt8} (h0 : 0 ∉ l)
    (h : BytesAt m p (l ++ [0])) : IsStr (chars m p) l where
  char i hi := (bytesAt_append.mp h).1 i hi
  stop := (bytesAt_cons.mp (bytesAt_append.mp h).2).1
  nonzero := h0

/-- The characters of a buffer up to its first NUL. -/
def cString (l : List UInt8) : List UInt8 := l.takeWhile (· ≠ 0)

theorem cString_eq {l : List UInt8} (h : 0 ∉ l) : cString l = l :=
  List.takeWhile_eq_self_iff.mpr fun _ hb => decide_eq_true fun h0 => h (h0 ▸ hb)

theorem exists_cString (l : List UInt8) : ∃ rest, l ++ [0] = (cString l ++ [0]) ++ rest := by
  induction l with
  | nil => exact ⟨[], rfl⟩
  | cons b l ih =>
      by_cases hb : b = 0
      · exact ⟨l ++ [0], by rw [cString, List.takeWhile_cons_of_neg (by simp [hb]), hb]; rfl⟩
      · obtain ⟨rest, hrest⟩ := ih
        refine ⟨rest, ?_⟩
        rw [cString, List.takeWhile_cons_of_pos (by simp [hb]), List.cons_append, hrest]
        rfl

/-- A buffer with a NUL behind it holds the string up to its first NUL. -/
theorem isStr_cString {m : Mem} {p : UInt32} {l : List UInt8}
    (h : BytesAt m p (l ++ [0])) : IsStr (chars m p) (cString l) := by
  obtain ⟨rest, hrest⟩ := exists_cString l
  rw [hrest] at h
  refine isStr_of_bytesAt (fun h0 => ?_) (bytesAt_append.mp h).1
  have hne := List.mem_takeWhile_imp h0
  simp at hne

variable {s t : Nat → UInt8} {l l' : List UInt8} {fuel : Nat}

/-- A character of a string is NUL only at its end. -/
theorem IsStr.eq_zero_iff (h : IsStr s l) {i : Nat} (hi : i ≤ l.length) :
    s i = 0 ↔ i = l.length := by
  constructor
  · intro h0
    by_contra hne
    have hlt : i < l.length := by omega
    rw [h.char i hlt] at h0
    exact h.nonzero (h0 ▸ List.getElem_mem hlt)
  · rintro rfl
    exact h.stop

theorem strlenLoop_eq (h : IsStr s l) {i : Nat} (hi : i ≤ l.length)
    (hfuel : l.length - i < fuel) : strlenLoop s fuel i = some l.length := by
  induction fuel generalizing i with
  | zero => omega
  | succ fuel ih =>
      rw [strlenLoop]
      by_cases h0 : s i = 0
      · rw [if_pos h0, (h.eq_zero_iff hi).mp h0]
      · have hne : i ≠ l.length := mt (h.eq_zero_iff hi).mpr h0
        rw [if_neg h0, ih (by omega) (by omega)]

theorem strlen_run (h : IsStr s l) (hfuel : l.length < fuel) {k : Kernel δ} :
    (strlen fuel s).run k = .ok (Int32.ofNat l.length) k := by
  rw [strlen, strlenLoop_eq h (Nat.zero_le _) (by omega)]
  rfl

/-! ## Comparing strings -/

/-- The value of a character. A `char` is signed. -/
def charValue (b : UInt8) : Int := b.toInt8.toInt

def charValues (l : List UInt8) : List Int := l.map charValue

theorem charValue_inj {b c : UInt8} : charValue b = charValue c ↔ b = c := by
  refine ⟨fun h => ?_, congrArg charValue⟩
  exact congrArg Int8.toUInt8 (Int8.toInt_inj.mp h)

theorem charValues_inj {l l' : List UInt8} : charValues l = charValues l' ↔ l = l' :=
  List.map_inj_right fun _ _ => charValue_inj.mp

/-- The difference of two promoted characters does not overflow. -/
theorem toInt_promoted_sub (b c : UInt8) :
    (b.toInt8.toInt32 - c.toInt8.toInt32).toInt = charValue b - charValue c := by
  have hb := Int8.le_toInt b.toInt8
  have hb' := Int8.toInt_lt b.toInt8
  have hc := Int8.le_toInt c.toInt8
  have hc' := Int8.toInt_lt c.toInt8
  rw [Int32.toInt_sub, Int8.toInt_toInt32, Int8.toInt_toInt32, charValue, charValue]
  exact Int.bmod_eq_of_le (by omega) (by omega)

/-- `r` is negative, zero or positive as `u` is before, equal to or behind `v`. -/
structure SignOf (r : Int32) (u v : List Int) : Prop where
  neg : r < 0 ↔ u < v
  zero : r = 0 ↔ u = v
  pos : 0 < r ↔ v < u

theorem signOf_zero {u : List Int} : SignOf 0 u u :=
  ⟨iff_of_false (by decide) (lt_irrefl u), iff_of_true rfl rfl,
    iff_of_false (by decide) (lt_irrefl u)⟩

theorem SignOf.cons {r : Int32} {u v : List Int} (h : SignOf r u v) (x : Int) :
    SignOf r (x :: u) (x :: v) where
  neg := by rw [h.neg, List.cons_lt_cons_self]
  zero := by rw [h.zero, List.cons_inj_right]
  pos := by rw [h.pos, List.cons_lt_cons_self]

/-- At the first difference the characters decide. -/
theorem signOf_promoted_sub {b c : UInt8} (h : b ≠ c) (u v : List Int) :
    SignOf (b.toInt8.toInt32 - c.toInt8.toInt32) (charValue b :: u) (charValue c :: v) := by
  have hval := toInt_promoted_sub b c
  have hne : charValue b ≠ charValue c := mt charValue_inj.mp h
  constructor
  · rw [Int32.lt_iff_toInt_lt, hval, List.cons_lt_cons_iff, or_iff_left fun h => hne h.1,
      show (0 : Int32).toInt = 0 from rfl]
    omega
  · rw [← Int32.toInt_inj, hval, List.cons.injEq, show (0 : Int32).toInt = 0 from rfl]
    exact iff_of_false (by omega) fun h => hne h.1
  · rw [Int32.lt_iff_toInt_lt, hval, List.cons_lt_cons_iff, or_iff_left fun h => hne h.1.symm,
      show (0 : Int32).toInt = 0 from rfl]
    omega

theorem IsStr.head {i : Nat} {b : UInt8} (h : IsStr (fun j => s (i + j)) (b :: l)) :
    s i = b ∧ b ≠ 0 :=
  ⟨h.char 0 (Nat.succ_pos _), fun h0 => h.nonzero (h0 ▸ List.mem_cons_self)⟩

theorem IsStr.tail {i : Nat} {b : UInt8} (h : IsStr (fun j => s (i + j)) (b :: l)) :
    IsStr (fun j => s (i + 1 + j)) l where
  char j hj := by
    rw [Nat.add_assoc, Nat.add_comm 1]
    exact h.char (j + 1) (Nat.succ_lt_succ hj)
  stop := by
    rw [Nat.add_assoc, Nat.add_comm 1]
    exact h.stop
  nonzero h0 := h.nonzero (List.mem_cons_of_mem b h0)

/-- `strcmp` compares the strings with the NULs behind them. -/
theorem strcmpLoop_sign {i : Nat} (h : IsStr (fun j => s (i + j)) l)
    (h' : IsStr (fun j => t (i + j)) l') (hfuel : l.length < fuel) :
    ∃ r, strcmpLoop s t fuel i = some r ∧
      SignOf r (charValues (l ++ [0])) (charValues (l' ++ [0])) := by
  obtain ⟨fuel, rfl⟩ := Nat.exists_eq_add_one_of_ne_zero
    (Nat.ne_of_gt (Nat.lt_of_le_of_lt (Nat.zero_le _) hfuel))
  rw [strcmpLoop]
  induction l generalizing l' fuel i with
  | nil =>
      have hs : s i = 0 := h.stop
      cases l' with
      | nil =>
          have ht : t i = 0 := h'.stop
          rw [hs, ht, if_pos rfl, if_pos rfl]
          exact ⟨0, rfl, signOf_zero⟩
      | cons c l' =>
          obtain ⟨ht, hc⟩ := h'.head
          rw [hs, ht, if_neg hc.symm]
          exact ⟨_, rfl, signOf_promoted_sub hc.symm _ _⟩
  | cons b l ih =>
      obtain ⟨hs, hb⟩ := h.head
      cases l' with
      | nil =>
          have ht : t i = 0 := h'.stop
          rw [hs, ht, if_neg hb]
          exact ⟨_, rfl, signOf_promoted_sub hb _ _⟩
      | cons c l' =>
          obtain ⟨ht, -⟩ := h'.head
          rw [hs, ht]
          by_cases hbc : b = c
          · subst hbc
            rw [List.length_cons] at hfuel
            obtain ⟨fuel, rfl⟩ := Nat.exists_eq_add_one_of_ne_zero
              (show fuel ≠ 0 by omega)
            obtain ⟨r, hr, hsign⟩ := ih h.tail h'.tail fuel (by omega)
            rw [if_pos rfl, if_neg hb, strcmpLoop]
            exact ⟨r, hr, hsign.cons _⟩
          · rw [if_neg hbc]
            exact ⟨_, rfl, signOf_promoted_sub hbc _ _⟩

theorem strcmp_sign (h : IsStr s l) (h' : IsStr t l') (hfuel : l.length < fuel) :
    ∃ r, strcmpLoop s t fuel 0 = some r ∧
      SignOf r (charValues (l ++ [0])) (charValues (l' ++ [0])) :=
  strcmpLoop_sign (by simpa only [Nat.zero_add] using h)
    (by simpa only [Nat.zero_add] using h') hfuel

theorem strcmp_of_loop {r : Int32} (h : strcmpLoop s t fuel 0 = some r) (k : Kernel δ) :
    (strcmp fuel s t).run k = .ok r k := by
  rw [strcmp, h]
  rfl

/-- `strcmp` answers 0 exactly for equal strings. -/
theorem strcmp_run (h : IsStr s l) (h' : IsStr t l') (hfuel : l.length < fuel)
    (k : Kernel δ) :
    ∃ r, (strcmp fuel s t).run k = .ok r k ∧ (r = 0 ↔ l = l') := by
  obtain ⟨r, hr, hsign⟩ := strcmp_sign h h' hfuel
  exact ⟨r, strcmp_of_loop hr k, by rw [hsign.zero, charValues_inj, List.append_left_inj]⟩

/-! ## Splitting a string -/

/-- One round of `strsplit` on a character that is not NUL. -/
theorem strsplitLoop_round (fuel : Nat) {str i : UInt32} (delim : UInt8)
    {b : UInt8} (n : Int32) {m : Mem} (hb : m (str + i) = b) (h0 : b ≠ 0) :
    ∃ m₁ n₁, strsplitLoop str delim (fuel + 1) i n m =
        strsplitLoop str delim fuel (i + 1) n₁ m₁ ∧
      n₁ = n + Int32.ofNat (if b = delim then 1 else 0) ∧
      m₁ (str + i) = (if b = delim then 0 else b) ∧
      SameOff (Span (str + i) 1) m m₁ := by
  rw [strsplitLoop, hb, if_neg h0]
  by_cases hd : b = delim
  · simp only [if_pos hd]
    exact ⟨_, _, rfl, rfl, Mem.write_in (span_self Nat.zero_lt_one), sameOff_write⟩
  · simp only [if_neg hd]
    exact ⟨m, n, rfl, (Int32.add_zero n).symm, hb, SameOff.refl m⟩

/-- The delimiters of a string become NULs, and one more than their number is
returned. -/
theorem strsplitLoop_eq {str i : UInt32} {delim : UInt8} {n : Int32} {m : Mem}
    (h0 : 0 ∉ l) (h : BytesAt m (str + i) (l ++ [0])) (hfuel : l.length < fuel)
    (hmax : l.length < 2 ^ 32) :
    ∃ m', strsplitLoop str delim fuel i n m =
        some (n + Int32.ofNat (l.count delim) + 1, m') ∧
      BytesAt m' (str + i) (l.map fun b => if b = delim then 0 else b) ∧
      SameOff (Span (str + i) l.length) m m' := by
  induction l generalizing fuel i n m with
  | nil =>
      obtain ⟨fuel, rfl⟩ := Nat.exists_eq_add_one_of_ne_zero (Nat.ne_of_gt hfuel)
      rw [strsplitLoop, if_pos (bytesAt_cons.mp h).1]
      refine ⟨m, ?_, bytesAt_nil, SameOff.refl m⟩
      rw [List.count_nil, show Int32.ofNat 0 = 0 from rfl, Int32.add_zero]
  | cons b l ih =>
      obtain ⟨fuel, rfl⟩ := Nat.exists_eq_add_one_of_ne_zero
        (Nat.ne_of_gt (Nat.lt_of_le_of_lt (Nat.zero_le _) hfuel))
      rw [List.mem_cons, not_or] at h0
      rw [List.length_cons] at hfuel hmax
      rw [List.cons_append] at h
      obtain ⟨hb, hrest⟩ := bytesAt_cons.mp h
      rw [UInt32.add_assoc] at hrest
      obtain ⟨m₁, n₁, hround, hn₁, hbyte, hoff₁⟩ :=
        strsplitLoop_round fuel delim n hb (Ne.symm h0.1)
      have hapart : ∀ a, Span (str + (i + 1)) (l.length + 1) a →
          ¬ Span (str + i) 1 a := by
        intro a ha hone
        rw [← UInt32.add_assoc] at ha
        rw [← UInt32.add_zero (str + i)] at hone
        exact hone.disjoint_parts (i := 0) (j := 1) (by omega) (by omega) ha
      have hinner : ∀ a, Span (str + (i + 1)) l.length a →
          Span (str + i) (l.length + 1) a := by
        intro a ha
        rw [← UInt32.add_assoc] at ha
        exact ha.sub (i := 1) (by omega) (by omega)
      obtain ⟨m', hrun, hbytes, hoff⟩ := ih (n := n₁) h0.2
        (hrest.congr (by simp only [List.length_append, List.length_singleton]; omega)
          fun a ha => hoff₁ a (hapart a (by simpa using ha)))
        (show l.length < fuel by omega) (by omega)
      refine ⟨m', ?_, ?_, ?_⟩
      · have hcount : (b :: l).count delim =
            (if b = delim then 1 else 0) + l.count delim := by
          rw [List.count_cons, Nat.add_comm]
          simp only [beq_iff_eq]
        rw [hround, hrun, hn₁, hcount, Int32.ofNat_add, Int32.add_assoc n]
      · rw [List.map_cons, bytesAt_cons, UInt32.add_assoc]
        refine ⟨?_, hbytes⟩
        rw [← hbyte]
        exact hoff _ fun hin => hapart _ (hin.mono (Nat.le_succ _)) (span_self Nat.zero_lt_one)
      · exact (hoff₁.mono fun a ha => ha.mono (by simp only [List.length_cons]; omega)).trans
          (hoff.mono hinner)

theorem strsplit_run {k : Kernel δ} {str : UInt32} (delim : UInt8) (h0 : 0 ∉ l)
    (h : BytesAt k.mem str (l ++ [0])) (hfuel : l.length < fuel)
    (hmax : l.length < 2 ^ 32) :
    ∃ m', (strsplit fuel str delim).run k =
        .ok (Int32.ofNat (l.count delim) + 1) { k with mem := m' } ∧
      BytesAt m' str ((l.map fun b => if b = delim then 0 else b) ++ [0]) ∧
      SameOff (Span str l.length) k.mem m' := by
  rw [← UInt32.add_zero str] at h
  obtain ⟨m', hrun, hbytes, hoff⟩ := strsplitLoop_eq (n := 0) h0 h hfuel hmax
  rw [UInt32.add_zero] at h hbytes hoff
  rw [Int32.zero_add] at hrun
  refine ⟨m', ?_, bytesAt_append.mpr ⟨hbytes, ?_⟩, hoff⟩
  · rw [strsplit, Exec.bind_ok (EStateM.run_get k), hrun]
    rfl
  · -- the loop stops at the terminating NUL and leaves it
    rw [List.length_map]
    refine (bytesAt_append.mp h).2.congr (by simp) fun a ha => hoff a ?_
    have hlast := span_one.mp ha
    rw [hlast, Span, toNat_sub_add_ofNat hmax]
    exact Nat.lt_irrefl _

/-! ## Strings that change -/

theorem chars_write {m : Mem} {p : UInt32} {i j : Nat} {c : UInt8} (hi : i < 2 ^ 32)
    (hj : j < 2 ^ 32) :
    chars (m.write (p + UInt32.ofNat i) 1 fun _ => c) p j =
      if j = i then c else chars m p j := by
  rw [chars]
  split
  · rename_i heq
    rw [heq, Mem.write_in (span_self Nat.zero_lt_one)]
  · rename_i hne
    rw [Mem.write_off, chars]
    intro hin
    have heq := span_one.mp hin
    have := congrArg (fun a => (a - p).toNat) heq
    simp only [toNat_sub_add_ofNat hi, toNat_sub_add_ofNat hj] at this
    exact hne this

theorem strlen_bind {β : Type} {f : Int32 → Kern δ β} {k : Kernel δ} {p : UInt32}
    (h : IsStr (chars k.mem p) l) (hfuel : l.length < fuel) :
    (do
      let len ← strlen fuel (chars (← get).mem p)
      f len : Kern δ β).run k = (f (Int32.ofNat l.length)).run k := by
  rw [Exec.bind_ok (EStateM.run_get k), Exec.bind_ok (strlen_run h hfuel)]

/-- A character is added behind the string, and the NUL behind it. -/
theorem append_run {k : Kernel δ} {p : UInt32} {c : UInt8} (h : IsStr (chars k.mem p) l)
    (hfuel : l.length < fuel) (hmax : l.length + 2 ≤ 2 ^ 31) (hc : c ≠ 0) :
    ∃ m, (append fuel p c).run k = .ok () { k with mem := m } ∧
      IsStr (chars m p) (l ++ [c]) ∧ SameOff (Span p (l.length + 2)) k.mem m := by
  have hnext : (Int32.ofNat l.length + 1).toUInt32 = UInt32.ofNat (l.length + 1) := by
    rw [Int32.toUInt32_add, Int32.toUInt32_ofNat', UInt32.ofNat_add]
    rfl
  refine ⟨(k.mem.write (p + UInt32.ofNat l.length) 1 fun _ => c).write
    (p + UInt32.ofNat (l.length + 1)) 1 fun _ => 0, ?_, ?_, ?_⟩
  · rw [append, strlen_bind h hfuel, Int32.toUInt32_ofNat', hnext]
    rfl
  · constructor
    · intro i hi
      rw [List.length_append, List.length_singleton] at hi
      rw [chars_write (by omega) (by omega), if_neg (by omega), chars_write (by omega) (by omega)]
      split
      · rename_i heq
        subst heq
        rw [List.getElem_concat_length rfl]
      · rename_i hne
        rw [h.char i (by omega), List.getElem_append_left]
    · rw [List.length_append, List.length_singleton, chars_write (by omega) (by omega), if_pos rfl]
    · simp [h.nonzero, hc.symm]
  · refine (sameOff_write.mono fun a ha => ?_).trans (sameOff_write.mono fun a ha => ?_)
    · exact ha.sub (by omega) (by omega)
    · exact ha.sub (by omega) (by omega)

/-- The last character of a string goes away, if it has one. -/
theorem backspace_run {k : Kernel δ} {p : UInt32} (h : IsStr (chars k.mem p) l)
    (hfuel : l.length < fuel) (hmax : l.length < 2 ^ 31) (hne : l ≠ []) :
    ∃ m, (backspace fuel p).run k = .ok () { k with mem := m } ∧
      IsStr (chars m p) l.dropLast ∧ SameOff (Span p l.length) k.mem m := by
  have hpos := List.length_pos_iff.mpr hne
  have hlast : (Int32.ofNat l.length - 1).toUInt32 = UInt32.ofNat (l.length - 1) := by
    rw [Int32.toUInt32_sub, Int32.toUInt32_ofNat', UInt32.ofNat_sub hpos]
    rfl
  refine ⟨k.mem.write (p + UInt32.ofNat (l.length - 1)) 1 fun _ => 0, ?_, ?_, ?_⟩
  · rw [backspace, strlen_bind h hfuel, hlast]
    rfl
  · constructor
    · intro i hi
      rw [List.length_dropLast] at hi
      rw [chars_write (by omega) (by omega), if_neg (by omega), h.char i (by omega),
        List.getElem_dropLast]
    · rw [List.length_dropLast, chars_write (by omega) (by omega), if_pos rfl]
    · exact fun h0 => h.nonzero (List.dropLast_subset _ h0)
  · exact sameOff_write.mono fun a ha => ha.sub (by omega) (by omega)

end Bedrock
