import Mathlib.Data.Nat.Digits.Lemmas

/-!
# Numerals

The digits of a number in some base, the most significant first and without
leading zeros. Code that prints numbers computes them in one of two orders: by
dividing, the last digit first, or by position in a fixed number of places, with
the zeros in front left out.
-/

namespace Bedrock.Lib

/-- `l` is how `n` is written in base `b`. -/
structure IsNumeral (b : Nat) (l : List Nat) (n : Nat) : Prop where
  nonempty : l ≠ []
  digit : ∀ d ∈ l, d < b
  lead : l.head? = some 0 → l = [0]
  value : Nat.ofDigits b l.reverse = n

variable {b n : Nat}

/-! ## By dividing -/

/-- The digits in the order in which dividing gives them. -/
def revDigits (b n : Nat) : List Nat := if n = 0 then [0] else Nat.digits b n

theorem revDigits_last (hn : n < b) : revDigits b n = [n] := by
  rw [revDigits]
  split
  · rename_i h0
    rw [h0]
  · rename_i h0
    exact Nat.digits_of_lt b n h0 hn

theorem revDigits_cons (hb : 1 < b) (hn : b ≤ n) :
    revDigits b n = n % b :: revDigits b (n / b) := by
  have hpos : 0 < n / b := Nat.div_pos hn (by omega)
  rw [revDigits, revDigits, if_neg (by omega), if_neg (by omega), Nat.digits_def' hb (by omega)]

theorem isNumeral_revDigits (hb : 1 < b) (n : Nat) : IsNumeral b (revDigits b n).reverse n := by
  by_cases h0 : n = 0
  · subst h0
    rw [revDigits, if_pos rfl]
    exact ⟨by simp, by simpa using by omega, fun _ => rfl, by simp⟩
  · have hne : Nat.digits b n ≠ [] := Nat.digits_ne_nil_iff_ne_zero.mpr h0
    rw [revDigits, if_neg h0]
    refine ⟨fun hnil => hne (List.reverse_eq_nil_iff.mp hnil), fun d hd => ?_, fun hlead => ?_, ?_⟩
    · exact Nat.digits_lt_base hb (List.mem_reverse.mp hd)
    · rw [List.head?_reverse, List.getLast?_eq_some_getLast hne, Option.some_inj] at hlead
      exact absurd hlead (Nat.getLast_digit_ne_zero b h0)
    · rw [List.reverse_reverse, Nat.ofDigits_digits]

theorem length_revDigits_le {k : Nat} (hb : 1 < b) (hk : 0 < k) (hn : n < b ^ k) :
    (revDigits b n).length ≤ k := by
  rw [revDigits]
  split
  · exact hk
  · exact (Nat.digits_length_le_iff hb n).mpr hn

/-! ## By position -/

/-- The digit at a place. -/
def digitAt (b n i : Nat) : Nat := n / b ^ i % b

/-- The digits at the places `k - 1, …, 1, 0`. -/
def places (b n : Nat) : Nat → List Nat
  | 0 => []
  | k + 1 => digitAt b n k :: places b n k

theorem ofDigits_places (b n k : Nat) :
    Nat.ofDigits b (places b n k).reverse = n % b ^ k ∧ (places b n k).length = k := by
  induction k with
  | zero => exact ⟨(Nat.mod_one n).symm, rfl⟩
  | succ k ih =>
      rw [places, List.reverse_cons, Nat.ofDigits_append, Nat.ofDigits_singleton,
        List.length_reverse, ih.1, ih.2, digitAt, Nat.mod_pow_succ, List.length_cons, ih.2]
      exact ⟨rfl, rfl⟩

/-- Zeros in front do not count. -/
theorem ofDigits_dropWhile (b : Nat) (l : List Nat) :
    Nat.ofDigits b (l.dropWhile (· = 0)).reverse = Nat.ofDigits b l.reverse := by
  induction l with
  | nil => rfl
  | cons d l ih =>
      by_cases hd : d = 0
      · rw [List.dropWhile_cons_of_pos (by simp [hd]), ih, List.reverse_cons, hd,
          Nat.ofDigits_append_zero]
      · rw [List.dropWhile_cons_of_neg (by simp [hd])]

end Bedrock.Lib
