import Bedrock.Lib.Terminated
import Bedrock.Libc.String

/-!
# The order of strings

`strcmp` stops at the first characters that differ, with the NUL at the end of a string
among them, and returns their difference. So it compares the strings with their NULs, and
that is a linear order (`strcmp_sign`).

Characters are signed: those from 128 on are below the NUL. A string that goes on behind
another one with such a character is taken for the smaller of the two, and nothing else
tells this order from the one in which a proper prefix comes first
(`strcmp_orders_iff`).
-/

namespace Bedrock

open Lib

variable {δ : Type} {s t u : Nat → UInt8} {a b c : List UInt8} {fuel : Nat}

/-! ## What is read -/

/-- A read of `s1[i]` or of `s2[i]`. -/
inductive CharRead where
  | first (i : Nat)
  | second (i : Nat)
deriving DecidableEq

/-- The loop of `strcmp` with a log of what it reads. -/
def strcmpReads (s1 s2 : Nat → UInt8) : (fuel i : Nat) → Option (Int32 × List CharRead)
  | 0, _ => none
  | fuel + 1, i =>
      if s1 i = s2 i then
        if s1 i = 0 then some (0, [.first i, .second i, .first i])
        else (strcmpReads s1 s2 fuel (i + 1)).map fun (r, log) =>
          (r, .first i :: .second i :: .first i :: log)
      else
        some ((s1 i).toInt8.toInt32 - (s2 i).toInt8.toInt32,
          [.first i, .second i, .first i, .second i])

/-- Without the log it is the loop of `strcmp`. -/
theorem strcmpLoop_eq_reads (s t : Nat → UInt8) (fuel i : Nat) :
    strcmpLoop s t fuel i = (strcmpReads s t fuel i).map Prod.fst := by
  induction fuel generalizing i with
  | zero => rfl
  | succ fuel ih =>
      rw [strcmpLoop, strcmpReads]
      split
      · split
        · rfl
        · rw [ih, Option.map_map]
          rfl
      · rfl

/-- No further than the NULs of the two strings. -/
def CharRead.Inside (a b : List UInt8) : CharRead → Prop
  | .first i => i ≤ a.length
  | .second i => i ≤ b.length

theorem strcmpReads_inside (hs : IsStr s a) (ht : IsStr t b) {i : Nat} (hi : i ≤ a.length)
    (hi' : i ≤ b.length) {r : Int32} {log : List CharRead}
    (h : strcmpReads s t fuel i = some (r, log)) : ∀ read ∈ log, read.Inside a b := by
  induction fuel generalizing i r log with
  | zero => cases h
  | succ fuel ih =>
      have hcons : ∀ {log : List CharRead}, (∀ read ∈ log, read.Inside a b) →
          ∀ read ∈ .first i :: .second i :: .first i :: log, read.Inside a b := by
        intro log hlog
        simp only [List.forall_mem_cons]
        exact ⟨hi, hi', hi, hlog⟩
      rw [strcmpReads] at h
      split at h
      · rename_i heq
        split at h
        · obtain ⟨-, rfl⟩ := Prod.mk.inj (Option.some.inj h)
          exact hcons fun _ hread => nomatch hread
        · -- neither string ends here
          rename_i hne
          have hlast : i ≠ a.length := mt (hs.eq_zero_iff hi).mpr hne
          have hlast' : i ≠ b.length := mt (ht.eq_zero_iff hi').mpr (heq ▸ hne)
          obtain ⟨⟨r', rest⟩, hrest, hlog⟩ := Option.map_eq_some_iff.mp h
          obtain ⟨-, rfl⟩ := Prod.mk.inj hlog
          exact hcons (ih (by omega) (by omega) hrest)
      · obtain ⟨-, rfl⟩ := Prod.mk.inj (Option.some.inj h)
        refine hcons fun read hread => ?_
        rw [List.mem_singleton.mp hread]
        exact hi'

/-! ## What is returned -/

section

variable (δ)

/-- Every call returns `r`, and reads nothing behind the two NULs. -/
structure Compares (fuel : Nat) (s t : Nat → UInt8) (a b : List UInt8) (r : Int32) : Prop where
  run : ∀ k : Kernel δ, (strcmp fuel s t).run k = .ok r k
  reads : ∃ log, strcmpReads s t fuel 0 = some (r, log) ∧ ∀ read ∈ log, read.Inside a b

/-- The results of comparing `a` with `b`, `b` with `a`, `b` with `c` and `a` with `c` are
those of an order, and the first is that of the characters' own order, where a proper prefix
comes before its extensions. -/
structure OrderLaws (a b : List UInt8) (ab ba bc ac : Int32) : Prop where
  equal : ab = 0 ↔ a = b
  swap : ab < 0 ↔ 0 < ba
  trans : ab ≤ 0 → bc ≤ 0 → ac ≤ 0
  sign : SignOf ab (charValues a) (charValues b)

/-- `strcmp` orders three strings. -/
def OrdersStrings (fuel : Nat) (s t u : Nat → UInt8) (a b c : List UInt8) : Prop :=
  ∃ ab ba bc ac, Compares δ fuel s t a b ab ∧ Compares δ fuel t s b a ba ∧
    Compares δ fuel t u b c bc ∧ Compares δ fuel s u a c ac ∧ OrderLaws a b ab ba bc ac

end

/-- Where `b` goes on behind `a`, it is with a character below 128. -/
def ExtendsLow (a b : List UInt8) : Prop := ∀ x rest, b = a ++ x :: rest → x.toNat < 128

/-- No character from 128 on, as in plain names. -/
theorem extendsLow_of_ascii (h : ∀ x ∈ b, x.toNat < 128) : ExtendsLow a b := by
  rintro x rest rfl
  exact h x (List.mem_append_right a List.mem_cons_self)

theorem charValue_neg {x : UInt8} : charValue x < 0 ↔ 128 ≤ x.toNat := by
  rw [charValue, ← Int8.toInt_toBitVec, BitVec.toInt_neg_iff]
  show 2 ^ 8 ≤ 2 * x.toNat ↔ _
  omega

theorem dips_charValues : Dips 0 (charValues a) (charValues b) ↔ ¬ ExtendsLow a b := by
  rw [ExtendsLow]
  push Not
  constructor
  · rintro ⟨v, vs, h, hneg⟩
    obtain ⟨a', l, rfl, ha, hl⟩ := List.map_eq_append_iff.mp h
    obtain ⟨x, rest, rfl, rfl, -⟩ := List.map_eq_cons_iff.mp hl
    exact ⟨x, rest, by rw [charValues_inj.mp ha], charValue_neg.mp hneg⟩
  · rintro ⟨x, rest, rfl, hx⟩
    exact ⟨charValue x, charValues rest, by simp only [charValues, List.map_append, List.map_cons],
      charValue_neg.mpr hx⟩

theorem charValues_terminated (l : List UInt8) : charValues (l ++ [0]) = charValues l ++ [0] :=
  List.map_append

theorem zero_not_mem_charValues (h : 0 ∉ a) : 0 ∉ charValues a := by
  intro hin
  obtain ⟨x, hx, hzero⟩ := List.mem_map.mp hin
  have hx0 : x = 0 := charValue_inj.mp (show charValue x = charValue 0 from hzero)
  exact h (hx0 ▸ hx)

theorem strcmp_compares (hs : IsStr s a) (ht : IsStr t b) (hfuel : a.length < fuel) :
    ∃ r, Compares δ fuel s t a b r ∧
      SignOf r (charValues a ++ [0]) (charValues b ++ [0]) := by
  obtain ⟨r, hloop, hsign⟩ := strcmp_sign hs ht hfuel
  rw [charValues_terminated, charValues_terminated] at hsign
  refine ⟨r, ⟨strcmp_of_loop hloop, ?_⟩, hsign⟩
  rw [strcmpLoop_eq_reads] at hloop
  obtain ⟨⟨_, log⟩, hreads, rfl⟩ := Option.map_eq_some_iff.mp hloop
  exact ⟨log, hreads, strcmpReads_inside hs ht (Nat.zero_le _) (Nat.zero_le _) hreads⟩

theorem Compares.unique {r r' : Int32} (h : Compares δ fuel s t a b r)
    (h' : Compares δ fuel s t a b r') : r = r' := by
  obtain ⟨log, hlog, -⟩ := h.reads
  obtain ⟨log', hlog', -⟩ := h'.reads
  exact congrArg Prod.fst (Option.some.inj (hlog.symm.trans hlog'))

theorem SignOf.nonpos {r : Int32} {u v : List Int} (h : SignOf r u v) : r ≤ 0 ↔ u ≤ v := by
  rw [← Int32.not_lt, h.pos, not_lt]

/-- With the NULs the results are those of a linear order, for all strings. -/
theorem orderLaws_iff {ab ba bc ac : Int32} (ha : 0 ∉ a) (hb : 0 ∉ b)
    (hab : SignOf ab (charValues a ++ [0]) (charValues b ++ [0]))
    (hba : SignOf ba (charValues b ++ [0]) (charValues a ++ [0]))
    (hbc : SignOf bc (charValues b ++ [0]) (charValues c ++ [0]))
    (hac : SignOf ac (charValues a ++ [0]) (charValues c ++ [0])) :
    OrderLaws a b ab ba bc ac ↔ ExtendsLow a b ∧ ExtendsLow b a := by
  have hequal : ab = 0 ↔ charValues a = charValues b := by
    rw [hab.zero, List.append_left_inj]
  have hagrees := terminated_agrees_iff (zero_not_mem_charValues ha) (zero_not_mem_charValues hb)
  rw [dips_charValues, dips_charValues, not_not, not_not] at hagrees
  rw [← hagrees]
  constructor
  · rintro ⟨-, -, -, hsign⟩
    exact ⟨hab.neg.symm.trans hsign.neg, hab.pos.symm.trans hsign.pos⟩
  · rintro ⟨hlt, hgt⟩
    refine ⟨hequal.trans charValues_inj, hab.neg.trans hba.pos.symm, fun h h' => ?_,
      hab.neg.trans hlt, hequal, hab.pos.trans hgt⟩
    exact hac.nonpos.mpr ((hab.nonpos.mp h).trans (hbc.nonpos.mp h'))

/-- `strcmp` orders strings as the comment above it says where neither goes on behind the
other with a character from 128 on. -/
theorem strcmp_orders_iff (hs : IsStr s a) (ht : IsStr t b) (hu : IsStr u c)
    (hfuel : a.length < fuel) (hfuel' : b.length < fuel) :
    OrdersStrings δ fuel s t u a b c ↔ ExtendsLow a b ∧ ExtendsLow b a := by
  obtain ⟨ab, hab, hsab⟩ := strcmp_compares (δ := δ) hs ht hfuel
  obtain ⟨ba, hba, hsba⟩ := strcmp_compares (δ := δ) ht hs hfuel'
  obtain ⟨bc, hbc, hsbc⟩ := strcmp_compares (δ := δ) ht hu hfuel'
  obtain ⟨ac, hac, hsac⟩ := strcmp_compares (δ := δ) hs hu hfuel
  rw [← orderLaws_iff hs.nonzero ht.nonzero hsab hsba hsbc hsac]
  constructor
  · rintro ⟨ab', ba', bc', ac', hab', hba', hbc', hac', hlaws⟩
    rw [hab.unique hab', hba.unique hba', hbc.unique hbc', hac.unique hac']
    exact hlaws
  · exact fun hlaws => ⟨ab, ba, bc, ac, hab, hba, hbc, hac, hlaws⟩

/-- `a`, `ab` and `b`. -/
theorem strcmp_orders_iff_ab : OrdersStrings Unit 4 (literal [97]) (literal [97, 98])
    (literal [98]) [97] [97, 98] [98] :=
  (strcmp_orders_iff (isStr_literal (by decide)) (isStr_literal (by decide))
    (isStr_literal (by decide)) (by decide) (by decide)).mpr
      ⟨extendsLow_of_ascii (by simp), extendsLow_of_ascii (by simp)⟩

/-- The empty string is taken to be behind the one whose only character is 128. -/
theorem strcmp_high : ¬ OrdersStrings Unit 2 (literal []) (literal [0x80]) (literal [])
    [] [0x80] [] := by
  rintro ⟨ab, _, _, _, hab, -, -, -, hlaws⟩
  obtain ⟨log, hlog, -⟩ := hab.reads
  have hread : strcmpReads (literal []) (literal [0x80]) 2 0 =
      some (128, [.first 0, .second 0, .first 0, .second 0]) := rfl
  obtain rfl : 128 = ab := congrArg Prod.fst (Option.some.inj (hread.symm.trans hlog))
  exact absurd (hlaws.sign.neg.mpr (List.nil_lt_cons _ _)) (by decide)

end Bedrock
