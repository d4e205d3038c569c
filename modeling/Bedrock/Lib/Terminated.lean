import Mathlib.Data.List.Lex
import Mathlib.Order.Lattice

/-!
# Terminated sequences

A comparison that stops at the first difference needs an end to stop at: it compares the
sequences with a terminator `z` behind each. As lists these are linearly ordered, and
sequences without `z` in them are equal when their terminated lists are.

The order is the lexicographic one, in which a proper prefix comes first, but for one case:
where a sequence goes on behind the other with an element below the terminator, it comes
first itself (`terminated_lt_iff`).
-/

namespace Bedrock.Lib

variable {α : Type*} [LinearOrder α] {z x y : α} {a b : List α}

/-- `b` goes on behind `a`, with an element below the terminator. -/
def Dips (z : α) (a b : List α) : Prop := ∃ x rest, b = a ++ x :: rest ∧ x < z

theorem not_dips_nil : ¬ Dips z a [] := by
  rintro ⟨x, rest, h, -⟩
  exact absurd h.symm (List.append_ne_nil_of_right_ne_nil a (List.cons_ne_nil x rest))

theorem dips_nil_cons : Dips z [] (y :: b) ↔ y < z := by
  constructor
  · rintro ⟨x, rest, h, hx⟩
    injection h with h
    exact h ▸ hx
  · exact fun hy => ⟨y, b, rfl, hy⟩

theorem dips_cons_cons : Dips z (x :: a) (y :: b) ↔ x = y ∧ Dips z a b := by
  constructor
  · rintro ⟨c, rest, h, hc⟩
    injection h with hhead htail
    exact ⟨hhead.symm, c, rest, htail, hc⟩
  · rintro ⟨rfl, c, rest, rfl, hc⟩
    exact ⟨c, rest, rfl, hc⟩

theorem Dips.lt (h : Dips z a b) : a < b := by
  obtain ⟨x, rest, rfl, -⟩ := h
  induction a with
  | nil => exact List.nil_lt_cons x rest
  | cons y a ih => exact List.cons_lt_cons_iff.mpr (.inr ⟨rfl, ih⟩)

/-- The comparison with terminators, by the one without. -/
theorem terminated_lt_iff (ha : z ∉ a) (hb : z ∉ b) :
    a ++ [z] < b ++ [z] ↔ (a < b ∧ ¬ Dips z a b) ∨ Dips z b a := by
  induction a generalizing b with
  | nil =>
      cases b with
      | nil =>
          refine iff_of_false (lt_irrefl _) ?_
          rintro (⟨h, -⟩ | h)
          · exact lt_irrefl _ h
          · exact not_dips_nil h
      | cons y b =>
          have hne : z ≠ y := fun h => hb (h ▸ List.mem_cons_self)
          rw [List.nil_append, List.cons_append, List.cons_lt_cons_iff, dips_nil_cons,
            or_iff_left (fun h => hne h.1), or_iff_left not_dips_nil,
            and_iff_right (List.nil_lt_cons y b), not_lt]
          exact ⟨le_of_lt, fun h => lt_of_le_of_ne h hne⟩
  | cons x a ih =>
      rw [List.mem_cons, not_or] at ha
      cases b with
      | nil =>
          rw [List.nil_append, List.cons_append, List.cons_lt_cons_iff, dips_nil_cons,
            or_iff_left (fun h => ha.1 h.1.symm), or_iff_right fun h => List.not_lt_nil _ h.1]
      | cons y b =>
          rw [List.mem_cons, not_or] at hb
          rw [List.cons_append, List.cons_append, List.cons_lt_cons_iff, List.cons_lt_cons_iff,
            dips_cons_cons, dips_cons_cons]
          rcases lt_trichotomy x y with hlt | rfl | hgt
          · exact iff_of_true (.inl hlt) (.inl ⟨.inl hlt, fun h => hlt.ne h.1⟩)
          · simp only [lt_irrefl, false_or, true_and]
            exact ih ha.2 hb.2
          · refine iff_of_false ?_ ?_
            · rintro (h | h)
              · exact lt_asymm h hgt
              · exact hgt.ne' h.1
            · rintro (⟨h | h, -⟩ | h)
              · exact lt_asymm h hgt
              · exact hgt.ne' h.1
              · exact hgt.ne h.1

/-- The two comparisons agree just where neither sequence goes on below the terminator. -/
theorem terminated_agrees_iff (ha : z ∉ a) (hb : z ∉ b) :
    ((a ++ [z] < b ++ [z] ↔ a < b) ∧ (b ++ [z] < a ++ [z] ↔ b < a)) ↔
      ¬ Dips z a b ∧ ¬ Dips z b a := by
  rw [terminated_lt_iff ha hb, terminated_lt_iff hb ha]
  constructor
  · rintro ⟨hab, hba⟩
    refine ⟨fun h => ?_, fun h => ?_⟩
    · rcases hab.mpr h.lt with ⟨-, hnot⟩ | hswap
      · exact hnot h
      · exact lt_asymm h.lt hswap.lt
    · rcases hba.mpr h.lt with ⟨-, hnot⟩ | hswap
      · exact hnot h
      · exact lt_asymm h.lt hswap.lt
  · rintro ⟨hab, hba⟩
    rw [or_iff_left hba, or_iff_left hab, and_iff_left hab, and_iff_left hba]
    exact ⟨Iff.rfl, Iff.rfl⟩

end Bedrock.Lib
