import Bedrock.Lib.Mem

/-!
# A stack that grows down

The words between the stack pointer and the place the stack started at, the
last one pushed first. A push stores below them, so it disturbs none of them,
and a pop reads the first.
-/

namespace Bedrock.Lib

variable {m m' : Mem} {top p w : UInt32} {ws : List UInt32}

/-- From `p` up to `top` lie the words `ws`. -/
def Stacked (m : Mem) (top : UInt32) : UInt32 → List UInt32 → Prop
  | p, [] => p = top
  | p, w :: ws => m.load32 p = w ∧ Stacked m top (p + 4) ws

theorem Stacked.nil : Stacked m top top [] := rfl

theorem Stacked.head (h : Stacked m top p (w :: ws)) : m.load32 p = w := h.1

theorem Stacked.tail (h : Stacked m top p (w :: ws)) : Stacked m top (p + 4) ws := h.2

theorem Stacked.place (h : Stacked m top p ws) : top - p = UInt32.ofNat (4 * ws.length) := by
  induction ws generalizing p with
  | nil =>
      obtain rfl : p = top := h
      rw [UInt32.sub_self]
      rfl
  | cons w ws ih =>
      have hrest := ih h.tail
      rw [List.length_cons, Nat.mul_add, UInt32.ofNat_add, ← hrest]
      change top - p = top - (p + 4) + 4
      grind

theorem Stacked.congr (hlen : 4 * ws.length ≤ 2 ^ 32)
    (h : Stacked m top p ws) (heq : ∀ a, Span p (4 * ws.length) a → m' a = m a) :
    Stacked m' top p ws := by
  induction ws generalizing p with
  | nil => exact h
  | cons w ws ih =>
      rw [List.length_cons] at hlen heq
      refine ⟨(Mem.load32_congr fun a ha => heq a (ha.mono (by omega))).trans h.head, ?_⟩
      refine ih (by omega) h.tail fun a ha => heq a ?_
      exact Span.sub (i := 4) ha (by omega) hlen

theorem Stacked.push (hlen : 4 * (ws.length + 1) ≤ 2 ^ 32) (h : Stacked m top p ws) :
    Stacked (m.store32 (p - 4) w) top (p - 4) (w :: ws) := by
  refine ⟨Mem.load32_store32, ?_⟩
  rw [UInt32.sub_add_cancel]
  refine h.congr (by omega) fun a ha => Mem.write_off fun hbelow => ?_
  -- the new word ends where the old ones begin
  have hparts : Span (p - 4 + UInt32.ofNat 0) 4 a := by simpa using hbelow
  refine hparts.disjoint_parts (j := 4) (k := 4 * ws.length) (by omega) (by omega) ?_
  have hp : p - 4 + UInt32.ofNat 4 = p := UInt32.sub_add_cancel p 4
  rw [hp]
  exact ha

/-- The words by their numbers, as an array that starts at the stack pointer. -/
theorem Stacked.word (h : Stacked m top p ws) {i : Nat} (hi : i < ws.length) :
    m.word p i = ws[i] := by
  induction ws generalizing p i with
  | nil => exact absurd hi (Nat.not_lt_zero i)
  | cons w ws ih =>
      cases i with
      | zero =>
          have hp : p + UInt32.ofNat (4 * 0) = p := UInt32.add_zero p
          rw [Mem.word, hp]
          exact h.head
      | succ i =>
          have hrest := ih h.tail (Nat.lt_of_succ_lt_succ hi)
          rw [Mem.word, UInt32.add_assoc] at hrest
          rw [Mem.word, Nat.mul_add, UInt32.ofNat_add, UInt32.add_comm (UInt32.ofNat (4 * i))]
          exact hrest

end Bedrock.Lib
