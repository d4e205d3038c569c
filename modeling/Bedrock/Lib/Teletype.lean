import Mathlib.Logic.Function.Basic

/-!
# A teletype and its window

A page has rows of `cols` cells without end; a cell is named by its number,
row by row. The teletype has a position on the page and a window of `rows` rows
around it. What it is given goes to the position, which moves on, and the
window follows by one row when the position leaves it at the bottom.

The position never leaves the window (`InWindow`), so no cell below the window
has been written yet.
-/

namespace Bedrock.Lib

variable {α : Type}

/-- The page, the place of the next cell, and the first row of the window. -/
structure Teletype (α : Type) where
  page : Nat → α
  pos : Nat
  top : Nat

namespace Teletype

/-- The window follows the position. -/
def settle (cols rows : Nat) (t : Teletype α) : Teletype α :=
  if t.pos < cols * (t.top + rows) then t else { t with top := t.top + 1 }

def put (cols rows : Nat) (t : Teletype α) (a : α) : Teletype α :=
  settle cols rows { t with page := Function.update t.page t.pos a, pos := t.pos + 1 }

/-- To the first column of the next row. -/
def newline (cols rows : Nat) (t : Teletype α) : Teletype α :=
  settle cols rows { t with pos := cols * (t.pos / cols + 1) }

/-- One cell back, but not out of the window at the top; the cell is blanked. -/
def back (cols : Nat) (blank : α) (t : Teletype α) : Teletype α :=
  let pos := if cols * t.top < t.pos then t.pos - 1 else t.pos
  { t with page := Function.update t.page pos blank, pos := pos }

/-- The position is in the window, and nothing has been written below. -/
structure InWindow (cols rows : Nat) (fresh : α) (t : Teletype α) : Prop where
  above : cols * t.top ≤ t.pos
  below : t.pos < cols * (t.top + rows)
  unwritten : ∀ n, cols * (t.top + rows) ≤ n → t.page n = fresh

variable {cols rows : Nat} {fresh a : α} {t : Teletype α}

/-- The position may be on the first row below the window. -/
theorem inWindow_settle (hcols : 0 < cols) (hrows : 0 < rows) (habove : cols * t.top ≤ t.pos)
    (hbelow : t.pos ≤ cols * (t.top + rows))
    (hpage : ∀ n, cols * (t.top + rows) ≤ n → t.page n = fresh) :
    InWindow cols rows fresh (settle cols rows t) := by
  rw [settle]
  split
  · rename_i hin
    exact ⟨habove, hin, hpage⟩
  · rename_i hout
    have hpos : t.pos = cols * (t.top + rows) := by omega
    have hnext : cols * (t.top + 1 + rows) = cols * (t.top + rows) + cols := by
      rw [Nat.add_right_comm, Nat.mul_add_one]
    refine ⟨?_, ?_, fun n hn => ?_⟩
    · change cols * (t.top + 1) ≤ t.pos
      rw [hpos]
      exact Nat.mul_le_mul_left cols (by omega)
    · change t.pos < cols * (t.top + 1 + rows)
      omega
    · change cols * (t.top + 1 + rows) ≤ n at hn
      exact hpage n (by omega)

theorem InWindow.put (hrows : 0 < rows) (h : InWindow cols rows fresh t) :
    InWindow cols rows fresh (t.put cols rows a) := by
  have hbelow := h.below
  have habove := h.above
  have hcols : 0 < cols := Nat.pos_of_mul_pos_right (Nat.zero_lt_of_lt hbelow)
  refine inWindow_settle hcols hrows (Nat.le_succ_of_le habove) hbelow fun n hn => ?_
  have hne : n ≠ t.pos := by
    change cols * (t.top + rows) ≤ n at hn
    omega
  exact (Function.update_of_ne hne _ _).trans (h.unwritten n hn)

theorem newline_pos (hcols : 0 < cols) : t.pos < cols * (t.pos / cols + 1) := by
  rw [Nat.mul_add_one]
  have := Nat.div_add_mod t.pos cols
  have := Nat.mod_lt t.pos hcols
  omega

theorem InWindow.newline (hrows : 0 < rows) (h : InWindow cols rows fresh t) :
    InWindow cols rows fresh (t.newline cols rows) := by
  have hcols : 0 < cols := Nat.pos_of_mul_pos_right (Nat.zero_lt_of_lt h.below)
  have hrow : t.pos / cols < t.top + rows := Nat.div_lt_of_lt_mul h.below
  exact inWindow_settle hcols hrows (Nat.le_of_lt (Nat.lt_of_le_of_lt h.above (newline_pos hcols)))
    (Nat.mul_le_mul_left cols hrow) h.unwritten

theorem InWindow.back {blank : α} (h : InWindow cols rows fresh t) :
    InWindow cols rows fresh (t.back cols blank) := by
  have habove := h.above
  have hbelow := h.below
  have hpos : cols * t.top ≤ (t.back cols blank).pos ∧ (t.back cols blank).pos ≤ t.pos := by
    change cols * t.top ≤ (if cols * t.top < t.pos then t.pos - 1 else t.pos) ∧
      (if cols * t.top < t.pos then t.pos - 1 else t.pos) ≤ t.pos
    split
    · omega
    · omega
  refine ⟨hpos.1, Nat.lt_of_le_of_lt hpos.2 hbelow, fun n hn => ?_⟩
  have hne : n ≠ (t.back cols blank).pos := by
    change cols * (t.top + rows) ≤ n at hn
    omega
  exact (Function.update_of_ne hne _ _).trans (h.unwritten n hn)

end Teletype

end Bedrock.Lib
