import Mathlib.Data.Nat.Basic

/-!
# Comparing by what is left of the laps

Numbers counted modulo `N` go round in laps; lap `j` is from `j * N` to `(j + 1) * N`. A
limit `m` that the multiples of `a` come up to is in some lap, and if multiples and limit are
compared modulo `N`, the first multiple found not to be below the limit can be a different
one: in a lap before the limit's a multiple can be closer to the end than the limit is to the
end of its own, and between the limit and the end of its lap there may be no multiple.
Nothing else goes wrong (`agreesToFirst_iff`).
-/

namespace Bedrock.Lib

/-- How far the last multiple of `a` in lap `j` is from the end of the lap. -/
def lapGap (N a j : Nat) : Nat := ((j + 1) * N - 1) % a + 1

/-- Up to the first multiple of `a` that is not below `m`, comparing modulo `N` answers
right. -/
def AgreesToFirst (N a m : Nat) : Prop :=
  ∀ n, (∀ e < n, e * a < m) → (n * a % N < m % N ↔ n * a < m)

section

variable {N a m j n : Nat}

theorem lapGap_le (ha : 0 < a) : lapGap N a j ≤ a := Nat.mod_lt _ ha

theorem exists_last (hN : 0 < N) (a j : Nat) : ∃ e, e * a + lapGap N a j = (j + 1) * N := by
  have hpos : 0 < (j + 1) * N := Nat.mul_pos (Nat.succ_pos j) hN
  refine ⟨((j + 1) * N - 1) / a, ?_⟩
  have hdiv := Nat.div_add_mod' ((j + 1) * N - 1) a
  rw [lapGap]
  omega

/-- No multiple in the lap is nearer to its end. -/
theorem add_lapGap_le (hN : 0 < N) (ha : 0 < a) (h : n * a < (j + 1) * N) :
    n * a + lapGap N a j ≤ (j + 1) * N := by
  obtain ⟨e, he⟩ := exists_last hN a j
  have hgap : lapGap N a j ≤ a := lapGap_le ha
  rcases Nat.lt_or_ge e n with hlt | hle
  · -- there would be one behind the last
    have hnext : (e + 1) * a ≤ n * a := Nat.mul_le_mul_right a hlt
    rw [Nat.succ_mul] at hnext
    omega
  · have hbefore : n * a ≤ e * a := Nat.mul_le_mul_right a hle
    omega

/-- A number of lap `j`, modulo `N`. -/
theorem mod_of_lap {x : Nat} (hle : j * N ≤ x) (hlt : x < (j + 1) * N) :
    x / N = j ∧ x % N + j * N = x := by
  have hdiv : x / N = j := Nat.div_eq_of_lt_le hle hlt
  refine ⟨hdiv, ?_⟩
  rw [← hdiv, Nat.mul_comm]
  exact Nat.mod_add_div x N

/-- Where a number is in its lap. -/
theorem lap_of (hN : 0 < N) (x : Nat) :
    x % N < N ∧ x % N + x / N * N = x ∧ (x / N + 1) * N = x / N * N + N :=
  ⟨Nat.mod_lt x hN, Nat.mod_add_div' x N, Nat.succ_mul _ _⟩

/-! ## The limit's own lap -/

/-- The first multiple behind the limit is in the limit's lap. -/
theorem AgreesToFirst.last (hN : 0 < N) (ha : 0 < a) (haN : a ≤ N) (h : AgreesToFirst N a m) :
    lapGap N a (m / N) ≤ N - m % N := by
  obtain ⟨hmod, hm, hlap⟩ := lap_of hN m
  by_contra hgap
  obtain ⟨e, he⟩ := exists_last hN a (m / N)
  have hbound : lapGap N a (m / N) ≤ a := lapGap_le ha
  have hnext : (e + 1) * a = e * a + a := Nat.succ_mul e a
  have hfirst := h (e + 1) fun e' he' => by
    have hle : e' * a ≤ e * a := Nat.mul_le_mul_right a (Nat.lt_succ_iff.mp he')
    omega
  have hlap' : (m / N + 1 + 1) * N = (m / N + 1) * N + N := Nat.succ_mul _ _
  have hround := mod_of_lap (N := N) (j := m / N + 1) (x := (e + 1) * a) (by omega) (by omega)
  omega

/-- Then a multiple that is below the limit modulo `N` is below it, up to this first one. -/
theorem lt_of_mod_lt (hN : 0 < N) (hlast : lapGap N a (m / N) ≤ N - m % N)
    (hn : ∀ e < n, e * a < m) (hless : n * a % N < m % N) : n * a < m := by
  obtain ⟨hmod, hm, hlap⟩ := lap_of hN m
  by_contra hge
  obtain ⟨e, he⟩ := exists_last hN a (m / N)
  have hle : n ≤ e := by
    by_contra hlt
    have := hn e (by omega)
    omega
  have hupper : n * a ≤ e * a := Nat.mul_le_mul_right a hle
  have hpos : 0 < lapGap N a (m / N) := Nat.succ_pos _
  have hround := mod_of_lap (N := N) (j := m / N) (x := n * a) (by omega) (by omega)
  omega

/-! ## The laps before -/

/-- The last multiple of an earlier lap is not taken for one behind the limit. -/
theorem AgreesToFirst.before (hN : 0 < N) (ha : 0 < a) (haN : a ≤ N) (h : AgreesToFirst N a m)
    (hj : j < m / N) : N - m % N < lapGap N a j := by
  obtain ⟨hmod, hm, -⟩ := lap_of hN m
  obtain ⟨e, he⟩ := exists_last hN a j
  have hbound : lapGap N a j ≤ a := lapGap_le ha
  have hpos : 0 < lapGap N a j := Nat.succ_pos _
  have hlaps : (j + 1) * N ≤ m / N * N := Nat.mul_le_mul_right N hj
  have hj' : (j + 1) * N = j * N + N := Nat.succ_mul j N
  have hround := mod_of_lap (N := N) (j := j) (x := e * a) (by omega) (by omega)
  have hbelow := (h e fun e' he' => by
    have hle : e' * a ≤ e * a := Nat.mul_le_mul_right a (Nat.le_of_lt he')
    omega).mpr (by omega)
  omega

theorem mod_lt_of_lt (hN : 0 < N) (ha : 0 < a) (hbefore : ∀ j < m / N, N - m % N < lapGap N a j)
    (hless : n * a < m) : n * a % N < m % N := by
  obtain ⟨hmod, hm, hlap⟩ := lap_of hN m
  obtain ⟨hnlt, hna, hnlap⟩ := lap_of hN (n * a)
  rcases Nat.lt_or_ge (n * a / N) (m / N) with hearly | hsame
  · have hgap := add_lapGap_le (n := n) (j := n * a / N) hN ha (by omega)
    have := hbefore _ hearly
    omega
  · have hlaps : m / N * N ≤ n * a / N * N := Nat.mul_le_mul_right N hsame
    omega

theorem agreesToFirst_iff (hN : 0 < N) (ha : 0 < a) (haN : a ≤ N) :
    AgreesToFirst N a m ↔
      lapGap N a (m / N) ≤ N - m % N ∧ ∀ j < m / N, N - m % N < lapGap N a j := by
  constructor
  · intro h
    exact ⟨h.last hN ha haN, fun j hj => h.before hN ha haN hj⟩
  · intro ⟨hlast, hbefore⟩ n hn
    exact ⟨lt_of_mod_lt hN hlast hn, mod_lt_of_lt hN ha hbefore⟩

end

end Bedrock.Lib
