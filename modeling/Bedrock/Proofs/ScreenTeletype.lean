import Bedrock.Drivers.Screen
import Bedrock.Lib.Teletype

/-!
# The screen is the window of a teletype

`Shows` relates the video memory and the cursor registers to a teletype: the
cells are those of its window, and the cursor is its position there. Every
character keeps the relation (`printChar_shows`), whether it goes to the middle
of a row, over its end, or to the first row below the screen, and so do whole
messages and runs of calls.

Positions are counted in cells here: the offset `2 * p` of the code is the cell
`p`, and `getOffset`, `getOffsetRow` and `getOffsetCol` lead there and back.
-/

namespace Bedrock.Screen

open Lib

/-! ## Bytes and cells -/

/-- Byte `n` of the video memory. -/
def byteAt (m : Mem) (n : Nat) : UInt8 := m (videoAddress + UInt32.ofNat n)

theorem ofInt_natCast (n : Nat) : UInt32.ofInt n = UInt32.ofNat n := by
  apply UInt32.toNat_inj.mp
  rw [UInt32.ofInt, UInt32.toNat_ofNat', UInt32.toNat_ofNat']
  omega

theorem video_distance {i n : Nat} (hi : i ≤ n) (hn : n < 4000) :
    (videoAddress + UInt32.ofNat n - (videoAddress + UInt32.ofNat i)).toNat = n - i := by
  have hv : videoAddress.toNat = 0xC00B8000 := rfl
  rw [UInt32.toNat_sub, UInt32.toNat_add, UInt32.toNat_add, UInt32.toNat_ofNat',
    UInt32.toNat_ofNat', hv]
  omega

theorem span_video {i len n : Nat} (hi : i + len ≤ 4000) (hn : n < 4000) :
    Span (videoAddress + UInt32.ofNat i) len (videoAddress + UInt32.ofNat n) ↔
      i ≤ n ∧ n < i + len := by
  have hv : videoAddress.toNat = 0xC00B8000 := rfl
  rw [Span, UInt32.toNat_sub, UInt32.toNat_add, UInt32.toNat_add, UInt32.toNat_ofNat',
    UInt32.toNat_ofNat', hv]
  omega

theorem byteAt_write {m : Mem} {i len n : Nat} {f : Nat → UInt8} (hi : i + len ≤ 4000)
    (hn : n < 4000) :
    byteAt (m.write (videoAddress + UInt32.ofNat i) len f) n = patch (byteAt m) i len f n := by
  by_cases hin : i ≤ n ∧ n < i + len
  · rw [patch_in hin.1 hin.2, byteAt, Mem.write_in ((span_video hi hn).mpr hin),
      video_distance hin.1 hn]
  · rw [patch_off (by omega), byteAt, Mem.write_off (mt (span_video hi hn).mp hin)]
    rfl

theorem byteAt_setByte {m : Mem} {i n : Nat} {v : UInt8} (hi : i < 4000) (hn : n < 4000) :
    byteAt (setByte m i v) n = if n = i then v else byteAt m n := by
  rw [setByte, ofInt_natCast, byteAt_write (by omega) hn]
  split
  · exact patch_in (by omega) (by omega)
  · exact patch_off (by omega)

/-- A character and its attribute. -/
abbrev Cell := UInt8 × UInt8

def cellAt (m : Mem) (n : Nat) : Cell := (byteAt m (2 * n), byteAt m (2 * n + 1))

theorem cellAt_setBytes {m : Mem} {i n : Nat} {c attr : UInt8} (hi : i < 2000) (hn : n < 2000) :
    cellAt (setByte (setByte m (2 * i : Nat) c) (2 * i + 1 : Nat) attr) n =
      if n = i then (c, attr) else cellAt m n := by
  rw [cellAt, byteAt_setByte (by omega) (by omega), byteAt_setByte (by omega) (by omega),
    byteAt_setByte (by omega) (by omega), byteAt_setByte (by omega) (by omega),
    if_neg (by omega), if_neg (by omega : 2 * n + 1 ≠ 2 * i)]
  by_cases heq : n = i
  · rw [if_pos heq, if_pos (by omega), if_pos (by omega)]
  · rw [if_neg heq, if_neg (by omega), if_neg (by omega)]
    rfl

theorem cellAt_clearLoop {m : Mem} {k n : Nat} (hk : k ≤ 2000) (hn : n < k) :
    cellAt (clearLoop k m) n = (0x20, whiteOnBlack) := by
  induction k with
  | zero => exact absurd hn (Nat.not_lt_zero n)
  | succ k ih =>
      have hplace : ((k : Int) * 2) = (2 * k : Nat) ∧ ((k : Int) * 2 + 1) = (2 * k + 1 : Nat) := by
        omega
      rw [clearLoop, hplace.2, hplace.1, cellAt_setBytes (by omega) (by omega)]
      split
      · rfl
      · exact ih (by omega) (by omega)

/-! ## The scroll -/

/-- On a screen nothing wraps. -/
theorem getOffset_eq {col row : Int} (hcol : 0 ≤ col ∧ col < 80) (hrow : 0 ≤ row ∧ row ≤ 25) :
    getOffset col row = 2 * (row * 80 + col) :=
  Int.bmod_eq_of_le (by omega) (by omega)

theorem getOffset_row {i : Nat} (hi : i ≤ 25) : getOffset 0 i = (160 * i : Nat) := by
  rw [getOffset_eq (by omega) (by omega)]
  omega

/-- The rows up to `k` are those that were one row further down. -/
theorem byteAt_moveRows {m : Mem} {k n : Nat} (hk : k ≤ 24) (hn : n < 4000) :
    byteAt (moveRows k m) n = if n < 160 * k then byteAt m (n + 160) else byteAt m n := by
  induction k generalizing n with
  | zero => rfl
  | succ k ih =>
      have hsource : getOffset 0 (k + 1) = (160 * (k + 1) : Nat) :=
        getOffset_row (i := k + 1) (by omega)
      have hapart : ∀ a, Span (videoAddress + UInt32.ofNat (160 * (k + 1))) 160 a →
          ¬ Span (videoAddress + UInt32.ofNat (160 * k)) 160 a := fun a hs hd =>
        hd.disjoint_parts (by omega) (by omega) hs
      rw [moveRows, hsource, getOffset_row (i := k) (by omega), ofInt_natCast, ofInt_natCast,
        memoryCopyLoop_eq (by omega) hapart, byteAt_write (by omega) hn]
      clear hsource
      by_cases hrow : 160 * k ≤ n ∧ n < 160 * k + 160
      · rw [patch_in hrow.1 hrow.2, if_pos (by omega)]
        have hnext : videoAddress + UInt32.ofNat (160 * (k + 1)) + UInt32.ofNat (n - 160 * k) =
            videoAddress + UInt32.ofNat (n + 160) := by
          rw [UInt32.add_assoc, ← UInt32.ofNat_add]
          congr 2
          omega
        rw [hnext]
        exact (ih (by omega) (by omega)).trans (if_neg (by omega))
      · rw [patch_off (by omega), ih (by omega) hn]
        by_cases hlt : n < 160 * k
        · rw [if_pos hlt, if_pos (by omega)]
        · rw [if_neg hlt, if_neg (by omega)]

theorem byteAt_blankLastLine {m : Mem} {k n : Nat} (hk : k ≤ 160) (hn : n < 4000) :
    byteAt (blankLastLine k m) n =
      if 3840 ≤ n ∧ n < 3840 + k then 0 else byteAt m n := by
  induction k with
  | zero => exact (if_neg (by omega)).symm
  | succ k ih =>
      have hplace : getOffset 0 (25 - 1) + (k : Int) = (3840 + k : Nat) := by
        rw [getOffset_eq (by omega) (by omega)]
        omega
      rw [blankLastLine, hplace, byteAt_setByte (by omega) hn, ih (by omega)]
      by_cases heq : n = 3840 + k
      · rw [if_pos heq, if_pos (by omega)]
      · rw [if_neg heq]
        by_cases hin : 3840 ≤ n ∧ n < 3840 + k
        · rw [if_pos hin, if_pos (by omega)]
        · rw [if_neg hin, if_neg (by omega)]

theorem cellAt_scroll {m : Mem} {n : Nat} (hn : n < 2000) :
    cellAt (blankLastLine (80 * 2) (moveRows (25 - 1) m)) n =
      if n < 1920 then cellAt m (n + 80) else (0, 0) := by
  rw [cellAt, byteAt_blankLastLine (by omega) (by omega),
    byteAt_blankLastLine (by omega) (by omega), byteAt_moveRows (by omega) (by omega),
    byteAt_moveRows (by omega) (by omega)]
  by_cases hrow : n < 1920
  · rw [if_pos hrow, if_neg (by omega), if_pos (by omega), if_neg (by omega), if_pos (by omega)]
    rfl
  · rw [if_neg hrow, if_pos (by omega), if_pos (by omega)]

/-! ## The relation -/

/-- The position of the hardware cursor. -/
def cursor (s : Vga) : Nat := (s.crtc 14).toNat * 256 + (s.crtc 15).toNat

/-- The cells are those of the window. -/
def Paints (m : Mem) (t : Teletype Cell) : Prop :=
  ∀ n < 2000, cellAt m n = t.page (80 * t.top + n)

/-- The screen is the window of the teletype, with its position. -/
structure Shows (s : Vga) (t : Teletype Cell) : Prop where
  cells : Paints s.mem t
  cursor : 80 * t.top + cursor s = t.pos

/-- A position in the window, behind blank rows below it. -/
abbrev OnScreen (t : Teletype Cell) : Prop := t.InWindow 80 25 (0, 0)

theorem getCursorOffset_run (s : Vga) :
    getCursorOffset.run s = (((2 * cursor s : Nat) : Int), { s with index := 15 }) := by
  have hoffset : getCursorOffset.run s =
      ((((s.crtc 14).toNat : Int) * 2 ^ 8 + (s.crtc 15).toNat) * 2, { s with index := 15 }) := rfl
  rw [hoffset, cursor]
  congr 1
  omega

theorem setCursorOffset_run (s : Vga) {p : Nat} (hp : p < 2000) :
    ∃ s', (setCursorOffset (2 * p : Nat)).run s = ((), s') ∧ s'.mem = s.mem ∧ cursor s' = p := by
  refine ⟨_, rfl, rfl, ?_⟩
  have hdiv : ((2 * p : Nat) : Int).tdiv 2 = p := by
    rw [Int.tdiv_eq_ediv_of_nonneg (by omega)]
    omega
  have hhigh : (UInt8.ofInt (((2 * p : Nat) : Int).tdiv 2 / 2 ^ 8)).toNat = p / 256 := by
    rw [hdiv, UInt8.ofInt, UInt8.toNat_ofNat']
    omega
  have hlow : (UInt8.ofInt (((2 * p : Nat) : Int).tdiv 2 % 2 ^ 8)).toNat = p % 256 := by
    rw [hdiv, UInt8.ofInt, UInt8.toNat_ofNat']
    omega
  change (UInt8.ofInt (((2 * p : Nat) : Int).tdiv 2 / 2 ^ 8)).toNat * 256 +
    (UInt8.ofInt (((2 * p : Nat) : Int).tdiv 2 % 2 ^ 8)).toNat = p
  rw [hhigh, hlow]
  omega

/-- A place on the screen, for `print_char`. -/
def InRange (col row : Int) : Prop := 0 ≤ col ∧ col < 80 ∧ 0 ≤ row ∧ row < 25

theorem offset_row (p : Nat) : getOffsetRow (2 * p : Nat) = (p / 80 : Nat) := by
  rw [getOffsetRow, Int.tdiv_eq_ediv_of_nonneg (by omega)]
  omega

theorem offset_col (p : Nat) : getOffsetCol (2 * p : Nat) = (p % 80 : Nat) := by
  rw [getOffsetCol, offset_row, Int.tdiv_eq_ediv_of_nonneg (by omega)]
  omega

/-- From a cell to its column and row, and back. -/
theorem offset_place {p : Nat} (hp : p < 2000) :
    InRange (getOffsetCol (2 * p : Nat)) (getOffsetRow (2 * p : Nat)) ∧
      getOffset (getOffsetCol (2 * p : Nat)) (getOffsetRow (2 * p : Nat)) = (2 * p : Nat) := by
  have hrange : InRange (p % 80 : Nat) (p / 80 : Nat) := by
    rw [InRange]
    omega
  rw [offset_row, offset_col, getOffset_eq ⟨hrange.1, hrange.2.1⟩ (by have := hrange.2; omega)]
  refine ⟨hrange, ?_⟩
  omega

/-! ## One character -/

section

variable {s : Vga} {t : Teletype Cell}

theorem advance_stays {offset : Int} (h : ¬ 25 * 80 * 2 ≤ offset) :
    (advance offset).run s = (offset, ((setCursorOffset offset).run s).2) := by
  rw [advance, if_neg h]
  rfl

/-- The screen one row further down. -/
def Vga.scrolled (s : Vga) : Vga :=
  { s with
    mem := blankLastLine (80 * 2) (moveRows (25 - 1) s.mem)
    writes := s.writes ++ scrollOffsets }

theorem advance_scrolls {offset : Int} (h : 25 * 80 * 2 ≤ offset) :
    (advance offset).run s =
      (offset - 2 * 80, ((setCursorOffset (offset - 2 * 80)).run s.scrolled).2) := by
  rw [advance, if_pos h]
  rfl

/-- A cell of the screen stored. -/
def Vga.stored (s : Vga) (offset : Int) (c attr : UInt8) : Vga :=
  { s with
    mem := setByte (setByte s.mem offset c) (offset + 1) attr
    writes := s.writes ++ [offset] ++ [offset + 1] }

/-- A screen that shows the page up to the new position, before it scrolls. -/
theorem advance_shows (hcells : Paints s.mem t) (habove : 80 * t.top ≤ t.pos)
    (hbelow : t.pos ≤ 80 * (t.top + 25))
    (hpage : ∀ n, 80 * (t.top + 25) ≤ n → t.page n = (0, 0)) :
    ∃ s', (advance (2 * (t.pos - 80 * t.top) : Nat)).run s =
        (((2 * ((t.settle 80 25).pos - 80 * (t.settle 80 25).top) : Nat) : Int), s') ∧
      Shows s' (t.settle 80 25) := by
  by_cases hin : t.pos < 80 * (t.top + 25)
  · rw [Teletype.settle, if_pos hin]
    obtain ⟨s', hrun, hmem, hcursor⟩ := setCursorOffset_run s
      (show t.pos - 80 * t.top < 2000 by omega)
    refine ⟨s', ?_, fun n hn => ?_, ?_⟩
    · rw [advance_stays (by omega), hrun]
    · rw [hmem]
      exact hcells n hn
    · rw [hcursor]
      omega
  · rw [Teletype.settle, if_neg hin]
    have hoffset : ((2 * (t.pos - 80 * t.top) : Nat) : Int) - 2 * 80 =
        (2 * (t.pos - 80 * (t.top + 1)) : Nat) := by omega
    obtain ⟨s', hrun, hmem, hcursor⟩ := setCursorOffset_run s.scrolled
      (show t.pos - 80 * (t.top + 1) < 2000 by omega)
    refine ⟨s', ?_, fun n hn => ?_, ?_⟩
    · rw [advance_scrolls (by omega), hoffset, hrun]
    · rw [hmem, Vga.scrolled, cellAt_scroll hn]
      change _ = t.page (80 * (t.top + 1) + n)
      split
      · rw [hcells _ (by omega)]
        congr 1
        omega
      · exact (hpage _ (by omega)).symm
    · change 80 * (t.top + 1) + cursor s' = t.pos
      rw [hcursor]
      omega

theorem printChar_newline {col row : Int} (h : InRange col row) :
    (printChar 0x0A col row whiteOnBlack).run s =
      (advance (getOffset 0 (getOffsetRow (getOffset col row) + 1))).run s := by
  rw [printChar, if_neg (by have := h.2; omega), if_pos ⟨h.1, h.2.2.1⟩]
  rfl

theorem printChar_glyph {c : UInt8} {col row : Int} (hnew : c ≠ 0x0A) (hback : c ≠ 0x08)
    (h : InRange col row) :
    (printChar c col row whiteOnBlack).run s = (advance (getOffset col row + 2)).run
      (s.stored (getOffset col row) c whiteOnBlack) := by
  rw [printChar, if_neg (by have := h.2; omega), if_pos ⟨h.1, h.2.2.1⟩]
  simp only [pure_bind, if_neg hnew, if_neg hback]
  rfl

/-- What a character of a message does to a teletype. -/
def typed (t : Teletype Cell) (c : UInt8) : Teletype Cell :=
  if c = 0x0A then t.newline 80 25 else t.put 80 25 (c, whiteOnBlack)

/-- Writing a cell at the position. -/
theorem paints_setBytes {p : Nat} (c attr : UInt8) (hcells : Paints s.mem t) (hp : p < 2000) :
    Paints (setByte (setByte s.mem (2 * p : Nat) c) (2 * p + 1 : Nat) attr)
      { t with page := Function.update t.page (80 * t.top + p) (c, attr) } := by
  intro n hn
  rw [cellAt_setBytes hp hn]
  change _ = Function.update t.page (80 * t.top + p) (c, attr) (80 * t.top + n)
  by_cases heq : n = p
  · rw [if_pos heq, heq, Function.update_self]
  · rw [if_neg heq, Function.update_of_ne (by omega)]
    exact hcells n hn

theorem printChar_shows {c : UInt8} (hback : c ≠ 0x08) (h : Shows s t) (ht : OnScreen t) :
    ∃ s', (printChar c (getOffsetCol (2 * (t.pos - 80 * t.top) : Nat))
        (getOffsetRow (2 * (t.pos - 80 * t.top) : Nat)) whiteOnBlack).run s =
        (((2 * ((typed t c).pos - 80 * (typed t c).top) : Nat) : Int), s') ∧
      Shows s' (typed t c) := by
  have habove := ht.above
  have hbelow := ht.below
  obtain ⟨p, hp⟩ : ∃ p, p = t.pos - 80 * t.top := ⟨_, rfl⟩
  obtain ⟨hrange, hplace⟩ := offset_place (show p < 2000 by omega)
  rw [← hp]
  by_cases hnew : c = 0x0A
  · rw [hnew, printChar_newline hrange, hplace, typed, if_pos rfl]
    have hoffset : getOffset 0 (getOffsetRow (2 * p : Nat) + 1) =
        (2 * (80 * (t.pos / 80 + 1) - 80 * t.top) : Nat) := by
      rw [offset_row, getOffset_eq (by omega) (by omega)]
      omega
    rw [hoffset]
    exact advance_shows (t := { t with pos := 80 * (t.pos / 80 + 1) }) h.cells
      (show 80 * t.top ≤ 80 * (t.pos / 80 + 1) by omega)
      (show 80 * (t.pos / 80 + 1) ≤ 80 * (t.top + 25) by omega) ht.unwritten
  · rw [printChar_glyph hnew hback hrange, hplace, typed, if_neg hnew]
    have hpos : 80 * t.top + p = t.pos := by omega
    have hpaints := paints_setBytes c whiteOnBlack h.cells
      (show p < 2000 by omega)
    rw [hpos] at hpaints
    have hoffset : ((2 * p : Nat) : Int) + 2 = (2 * (t.pos + 1 - 80 * t.top) : Nat) := by omega
    have hfresh : ∀ n, 80 * (t.top + 25) ≤ n →
        Function.update t.page t.pos (c, whiteOnBlack) n = (0, 0) := fun n hn =>
      (Function.update_of_ne (by omega) _ _).trans (ht.unwritten n hn)
    rw [hoffset]
    exact advance_shows
      (t := { t with page := Function.update t.page t.pos (c, whiteOnBlack), pos := t.pos + 1 })
      hpaints (show 80 * t.top ≤ t.pos + 1 by omega)
      (show t.pos + 1 ≤ 80 * (t.top + 25) by omega) hfresh

theorem onScreen_typed {c : UInt8} (ht : OnScreen t) : OnScreen (typed t c) := by
  rw [typed]
  split
  · exact ht.newline (by decide)
  · exact ht.put (by decide)

/-! ## Messages -/

theorem printLoop_shows {message : List UInt8} (hzero : 0 ∉ message) (hback : 0x08 ∉ message)
    (h : Shows s t) (ht : OnScreen t) :
    ∃ s', (printLoop message (getOffsetCol (2 * (t.pos - 80 * t.top) : Nat))
        (getOffsetRow (2 * (t.pos - 80 * t.top) : Nat))).run s = ((), s') ∧
      Shows s' (message.foldl typed t) ∧ OnScreen (message.foldl typed t) := by
  induction message generalizing s t with
  | nil => exact ⟨s, rfl, h, ht⟩
  | cons c rest ih =>
      rw [List.mem_cons, not_or] at hzero hback
      obtain ⟨s₁, hrun, h₁⟩ := printChar_shows (Ne.symm hback.1) h ht
      obtain ⟨s₂, hrest, h₂⟩ := ih hzero.2 hback.2 h₁ (onScreen_typed ht)
      refine ⟨s₂, ?_, h₂⟩
      rw [printLoop, if_neg (Ne.symm hzero.1), StateT.run_bind, hrun]
      exact hrest

theorem kprint_shows {message : List UInt8} (hzero : 0 ∉ message) (hback : 0x08 ∉ message)
    (h : Shows s t) (ht : OnScreen t) :
    ∃ s', (kprint message).run s = ((), s') ∧ Shows s' (message.foldl typed t) ∧
      OnScreen (message.foldl typed t) := by
  have hcursor : cursor s = t.pos - 80 * t.top := by
    have := h.cursor
    omega
  have hindex : Shows { s with index := 15 } t := ⟨h.cells, h.cursor⟩
  obtain ⟨s', hrun, hshows⟩ := printLoop_shows hzero hback hindex ht
  refine ⟨s', ?_, hshows⟩
  rw [kprint, kprintAt, if_neg (by decide), StateT.run_bind, getCursorOffset_run, hcursor]
  exact hrun

theorem printChar_blank {col row : Int} (h : InRange col row) :
    (printChar 0x08 col row whiteOnBlack).run s = (advance (getOffset col row)).run
      (s.stored (getOffset col row) 0x20 whiteOnBlack) := by
  rw [printChar, if_neg (by have := h.2; omega), if_pos ⟨h.1, h.2.2.1⟩]
  rfl

/-- At the first cell the code arrives at column -1, and takes the cursor. -/
theorem printChar_first (hfirst : cursor s = 0) :
    (printChar 0x08 (getOffsetCol (-2)) (getOffsetRow (-2)) whiteOnBlack).run s =
      (advance 0).run (Vga.stored { s with index := 15 } 0 0x20 whiteOnBlack) := by
  have hoffset : getCursorOffset.run s = ((0 : Int), { s with index := 15 }) := by
    rw [getCursorOffset_run, hfirst]
    rfl
  rw [printChar, if_neg (by decide), if_neg (by decide), StateT.run_bind, hoffset]
  rfl

/-- A blank at a position of the window, and the cursor there. -/
theorem blank_shows {i : UInt8} {q : Nat} (hcells : Paints s.mem t) (ht : OnScreen t)
    (habove : 80 * t.top ≤ q) (hbelow : q ≤ t.pos) :
    ∃ s', (advance (2 * (q - 80 * t.top) : Nat)).run
        (Vga.stored { s with index := i } (2 * (q - 80 * t.top) : Nat) 0x20 whiteOnBlack) =
        (((2 * (q - 80 * t.top) : Nat) : Int), s') ∧
      Shows s' { t with page := Function.update t.page q (0x20, whiteOnBlack), pos := q } := by
  have hlast := ht.below
  have hpaints := paints_setBytes 0x20 whiteOnBlack hcells
    (show q - 80 * t.top < 2000 by omega)
  have hplace : 80 * t.top + (q - 80 * t.top) = q := by omega
  rw [hplace] at hpaints
  have hfresh : ∀ n, 80 * (t.top + 25) ≤ n →
      Function.update t.page q (0x20, whiteOnBlack) n = (0, 0) := fun n hn =>
    (Function.update_of_ne (by omega) _ _).trans (ht.unwritten n hn)
  have hadvance := advance_shows
    (t := { t with page := Function.update t.page q (0x20, whiteOnBlack), pos := q })
    (s := Vga.stored { s with index := i } (2 * (q - 80 * t.top) : Nat) 0x20 whiteOnBlack)
    hpaints habove (show q ≤ 80 * (t.top + 25) by omega) hfresh
  rw [Teletype.settle, if_pos (show q < 80 * (t.top + 25) by omega)] at hadvance
  exact hadvance

theorem kprintBackspace_run {offset : Int} (hoffset : (2 * cursor s : Nat) - 2 = offset) :
    kprintBackspace.run s = ((), ((printChar 0x08 (getOffsetCol offset) (getOffsetRow offset)
      whiteOnBlack).run { s with index := 15 }).2) := by
  rw [kprintBackspace, StateT.run_bind, getCursorOffset_run, ← hoffset]
  rfl

theorem kprintBackspace_shows (h : Shows s t) (ht : OnScreen t) :
    ∃ s', kprintBackspace.run s = ((), s') ∧ Shows s' (t.back 80 (0x20, whiteOnBlack)) := by
  have habove := ht.above
  have hcursor := h.cursor
  by_cases hfirst : 80 * t.top < t.pos
  · have hoffset : ((2 * cursor s : Nat) : Int) - 2 = (2 * (t.pos - 1 - 80 * t.top) : Nat) := by
      omega
    have hback : t.back 80 (0x20, whiteOnBlack) =
        { t with
          page := Function.update t.page (t.pos - 1) (0x20, whiteOnBlack), pos := t.pos - 1 } := by
      rw [Teletype.back, if_pos hfirst]
    obtain ⟨hrange, hplace⟩ := offset_place
      (show t.pos - 1 - 80 * t.top < 2000 by have := ht.below; omega)
    obtain ⟨s', hrun, hshows⟩ := blank_shows (i := 15) h.cells ht
      (show 80 * t.top ≤ t.pos - 1 by omega) (Nat.sub_le _ 1)
    refine ⟨s', ?_, hback ▸ hshows⟩
    rw [kprintBackspace_run hoffset, printChar_blank hrange, hplace, hrun]
  · have hpos : t.pos = 80 * t.top := by omega
    have hzero : cursor s = 0 := by omega
    have hback : t.back 80 (0x20, whiteOnBlack) =
        { t with page := Function.update t.page (80 * t.top) (0x20, whiteOnBlack),
                 pos := 80 * t.top } := by
      rw [Teletype.back, if_neg hfirst, hpos]
    obtain ⟨s', hrun, hshows⟩ := blank_shows (i := 15) h.cells ht (Nat.le_refl _) habove
    rw [Nat.sub_self] at hrun
    refine ⟨s', ?_, hback ▸ hshows⟩
    have hoffset : ((2 * cursor s : Nat) : Int) - 2 = -2 := by omega
    have hindex : cursor { s with index := 15 } = 0 := hzero
    rw [kprintBackspace_run hoffset, printChar_first hindex]
    exact congrArg (fun r => ((), r.2)) hrun

/-- The page under a cleared screen. -/
def cleared : Teletype Cell where
  page := fun n => if n < 2000 then (0x20, whiteOnBlack) else (0, 0)
  pos := 0
  top := 0

theorem clearScreen_shows (s : Vga) :
    ∃ s', clearScreen.run s = ((), s') ∧ Shows s' cleared := by
  obtain ⟨s', hrun, hmem, hcursor⟩ := setCursorOffset_run
    { s with mem := clearLoop (80 * 25) s.mem, writes := s.writes ++ clearOffsets }
    (show 0 < 2000 by decide)
  refine ⟨s', hrun, fun n hn => ?_, ?_⟩
  · rw [hmem, cellAt_clearLoop (by omega) hn]
    exact (if_pos (show 80 * 0 + n < 2000 by omega)).symm
  · rw [hcursor]
    rfl

theorem onScreen_cleared : OnScreen cleared :=
  ⟨Nat.le_refl 0, by decide, fun n hn => if_neg (Nat.not_lt.mpr hn)⟩

end

/-! ## Runs of calls -/

inductive ConsoleCall where
  | kprint (message : List UInt8)
  | backspace

namespace ConsoleCall

def run : ConsoleCall → ScreenM Unit
  | .kprint message => Screen.kprint message
  | .backspace => kprintBackspace

/-- What the call types. -/
def type (t : Teletype Cell) : ConsoleCall → Teletype Cell
  | .kprint message => message.foldl typed t
  | .backspace => t.back 80 (0x20, whiteOnBlack)

/-- The characters of a message, which is a C string, without a backspace. -/
def Plain : ConsoleCall → Prop
  | .kprint message => 0 ∉ message ∧ 0x08 ∉ message
  | .backspace => True

instance (call : ConsoleCall) : Decidable call.Plain := by
  cases call with
  | kprint message => exact inferInstanceAs (Decidable (_ ∧ _))
  | backspace => exact isTrue trivial

end ConsoleCall

/-- The screen after `clear_screen` and the calls. -/
def console (s : Vga) (calls : List ConsoleCall) : Vga :=
  calls.foldl (fun s call => (call.run.run s).2) (clearScreen.run s).2

/-- The teletype after the calls. -/
def teletype (calls : List ConsoleCall) : Teletype Cell := calls.foldl ConsoleCall.type cleared

theorem call_shows {s : Vga} {t : Teletype Cell} {call : ConsoleCall} (hplain : call.Plain)
    (h : Shows s t) (ht : OnScreen t) :
    Shows (call.run.run s).2 (call.type t) ∧ OnScreen (call.type t) := by
  cases call with
  | kprint message =>
      obtain ⟨s', hrun, hshows⟩ := kprint_shows hplain.1 hplain.2 h ht
      rw [ConsoleCall.run, hrun]
      exact hshows
  | backspace =>
      obtain ⟨s', hrun, hshows⟩ := kprintBackspace_shows h ht
      rw [ConsoleCall.run, hrun]
      exact ⟨hshows, ht.back⟩

theorem calls_show {s : Vga} {t : Teletype Cell} {calls : List ConsoleCall}
    (hplain : ∀ call ∈ calls, call.Plain) (h : Shows s t) (ht : OnScreen t) :
    Shows (calls.foldl (fun s call => (call.run.run s).2) s) (calls.foldl ConsoleCall.type t) ∧
      OnScreen (calls.foldl ConsoleCall.type t) := by
  induction calls generalizing s t with
  | nil => exact ⟨h, ht⟩
  | cons call rest ih =>
      obtain ⟨h', ht'⟩ := call_shows (hplain call List.mem_cons_self) h ht
      exact ih (fun c hc => hplain c (List.mem_cons_of_mem call hc)) h' ht'

/-- The visible screen: the cells and the cursor. -/
def Alike (s s' : Vga) : Prop :=
  (∀ n < 2000, cellAt s.mem n = cellAt s'.mem n) ∧ cursor s = cursor s'

theorem alike_of_shows {s s' : Vga} {t : Teletype Cell} (h : Shows s t) (h' : Shows s' t) :
    Alike s s' := by
  refine ⟨fun n hn => (h.cells n hn).trans (h'.cells n hn).symm, ?_⟩
  have hcursor := h.cursor
  have hcursor' := h'.cursor
  omega

/-- After every run of calls the screen is the window of the teletype that has
been given the same, whose position is in the window and below whose window
nothing is written; and a message in two pieces gives the screen and the cursor
of the whole. -/
theorem console_shows (s : Vga) (calls : List ConsoleCall) (first second : List UInt8)
    (hplain : ∀ call ∈ calls, call.Plain) (hfirst : (ConsoleCall.kprint first).Plain)
    (hsecond : (ConsoleCall.kprint second).Plain) :
    Shows (console s calls) (teletype calls) ∧ OnScreen (teletype calls) ∧
      Alike (console s (calls ++ [.kprint first, .kprint second]))
        (console s (calls ++ [.kprint (first ++ second)])) := by
  obtain ⟨s₀, hclear, h₀⟩ := clearScreen_shows s
  have hshows : ∀ calls : List ConsoleCall, (∀ call ∈ calls, call.Plain) →
      Shows (console s calls) (teletype calls) ∧ OnScreen (teletype calls) := by
    intro calls hplain
    rw [console, hclear]
    exact calls_show hplain h₀ onScreen_cleared
  refine ⟨(hshows calls hplain).1, (hshows calls hplain).2, ?_⟩
  have hwhole : (ConsoleCall.kprint (first ++ second)).Plain := by
    refine ⟨fun hmem => ?_, fun hmem => ?_⟩
    · exact (List.mem_append.mp hmem).elim hfirst.1 hsecond.1
    · exact (List.mem_append.mp hmem).elim hfirst.2 hsecond.2
  have hpieces := (hshows (calls ++ [.kprint first, .kprint second]) (List.forall_mem_append.mpr
    ⟨hplain, List.forall_mem_cons.mpr ⟨hfirst, List.forall_mem_singleton.mpr hsecond⟩⟩)).1
  have honce := (hshows (calls ++ [.kprint (first ++ second)]) (List.forall_mem_append.mpr
    ⟨hplain, List.forall_mem_singleton.mpr hwhole⟩)).1
  have hsame : teletype (calls ++ [.kprint first, .kprint second]) =
      teletype (calls ++ [.kprint (first ++ second)]) := by
    rw [teletype, teletype, List.foldl_append, List.foldl_append]
    change second.foldl typed (first.foldl typed _) = (first ++ second).foldl typed _
    exact List.foldl_append.symm
  exact alike_of_shows (hsame ▸ hpieces) honce

/-- A prompt, a backspace, and a message that goes on to the next row. -/
theorem console_shows_prompt :
    Shows (console ⟨fun _ => 0, 0, fun _ => 0, []⟩ [.kprint [0x3E, 0x3E], .backspace])
        (teletype [.kprint [0x3E, 0x3E], .backspace]) ∧
      OnScreen (teletype [.kprint [0x3E, 0x3E], .backspace]) ∧
      Alike (console ⟨fun _ => 0, 0, fun _ => 0, []⟩
          [.kprint [0x3E, 0x3E], .backspace, .kprint [0x6C, 0x73], .kprint [0x0A, 0x2E]])
        (console ⟨fun _ => 0, 0, fun _ => 0, []⟩
          [.kprint [0x3E, 0x3E], .backspace, .kprint [0x6C, 0x73, 0x0A, 0x2E]]) :=
  console_shows _ [.kprint [0x3E, 0x3E], .backspace] [0x6C, 0x73] [0x0A, 0x2E] (by decide)
    (by decide) (by decide)

end Bedrock.Screen
