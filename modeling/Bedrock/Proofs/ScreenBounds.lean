import Bedrock.Proofs.ScreenTeletype

/-!
# Stores stay on the screen

`print_char` checks its column and row against the far edges of the screen only, and
`kprint_at` hands on what its caller gives it. Still nothing is stored outside the 4000
bytes of video memory, and the cursor stays on the screen: a place beyond an edge gets the
error mark, a place before one gets the cursor, and only a place on the screen is used as
it is (`printChar_on`). So the bounds hold of one character at any column and row
(`printChar_bounded`), and the loop needs to know nothing about the places it computes.
-/

namespace Bedrock.Screen

open Lib

/-- Whatever was stored, was stored on the screen; the rest of the memory is `m₀`. -/
structure Stores (m₀ : Mem) (s : Vga) : Prop where
  writes : ∀ w ∈ s.writes, 0 ≤ w ∧ w < 4000
  mem : SameOff (Span videoAddress 4000) m₀ s.mem

/-- The cursor is on the screen, too. -/
structure Bounded (m₀ : Mem) (s : Vga) : Prop extends Stores m₀ s where
  cursor : cursor s < 2000

variable {m₀ m : Mem} {s : Vga}

/-! ## The loops over the video memory -/

theorem sameOff_setByte {n : Nat} (v : UInt8) (hn : n < 4000) :
    SameOff (Span videoAddress 4000) m (setByte m n v) := by
  rw [setByte, ofInt_natCast]
  exact sameOff_write.mono fun a ha => ha.sub (by omega) (by omega)

theorem sameOff_moveRows {k : Nat} (hk : k ≤ 24) :
    SameOff (Span videoAddress 4000) m (moveRows k m) := by
  induction k with
  | zero => exact .refl m
  | succ k ih =>
      have hcopy : SameOff (Span (videoAddress + UInt32.ofNat (160 * k)) (80 * 2)) (moveRows k m)
          (memoryCopyLoop (videoAddress + UInt32.ofInt (getOffset 0 (k + 1)))
            (videoAddress + UInt32.ofNat (160 * k)) (80 * 2) (moveRows k m)) :=
        memoryCopyLoop_sameOff (by omega)
      rw [moveRows, getOffset_row (i := k) (by omega), ofInt_natCast]
      exact (ih (by omega)).trans (hcopy.mono fun a ha => ha.sub (by omega) (by omega))

theorem sameOff_blankLastLine {k : Nat} (hk : k ≤ 160) :
    SameOff (Span videoAddress 4000) m (blankLastLine k m) := by
  induction k with
  | zero => exact .refl m
  | succ k ih =>
      have hplace : getOffset 0 (25 - 1) + (k : Int) = (3840 + k : Nat) := by
        rw [getOffset_eq (by omega) (by omega)]
        omega
      rw [blankLastLine, hplace]
      exact (ih (by omega)).trans (sameOff_setByte 0 (by omega))

theorem sameOff_clearLoop {k : Nat} (hk : k ≤ 2000) :
    SameOff (Span videoAddress 4000) m (clearLoop k m) := by
  induction k with
  | zero => exact .refl m
  | succ k ih =>
      have hplace : ((k : Int) * 2) = (k * 2 : Nat) ∧ ((k : Int) * 2 + 1) = (k * 2 + 1 : Nat) := by
        omega
      rw [clearLoop, hplace.2, hplace.1]
      exact (ih (by omega)).trans
        ((sameOff_setByte 0x20 (by omega)).trans (sameOff_setByte whiteOnBlack (by omega)))

theorem rowOffsets_bound {i : Nat} (hi : i < 25) {w : Int} (hw : w ∈ rowOffsets i) :
    0 ≤ w ∧ w < 4000 := by
  obtain ⟨j, hj, rfl⟩ := List.mem_map.mp hw
  rw [List.mem_range] at hj
  rw [getOffset_row (by omega)]
  omega

theorem scrollOffsets_bound {w : Int} (hw : w ∈ scrollOffsets) : 0 ≤ w ∧ w < 4000 := by
  rcases List.mem_append.mp hw with hcopy | hlast
  · obtain ⟨i, hi, hin⟩ := List.mem_flatMap.mp hcopy
    rw [List.mem_range] at hi
    exact rowOffsets_bound (by omega) hin
  · exact rowOffsets_bound (by omega) hlast

theorem clearOffsets_bound {w : Int} (hw : w ∈ clearOffsets) : 0 ≤ w ∧ w < 4000 := by
  obtain ⟨i, hi, hin⟩ := List.mem_flatMap.mp hw
  rw [List.mem_range] at hi
  rcases List.mem_cons.mp hin with rfl | hodd
  · omega
  · obtain rfl := List.mem_singleton.mp hodd
    omega

/-! ## One character -/

theorem Stores.stored {p : Nat} {c attr : UInt8} (h : Stores m₀ s) (hp : p < 2000) :
    Stores m₀ (s.stored (2 * p : Nat) c attr) := by
  constructor
  · intro w hw
    simp only [Vga.stored, List.mem_append, List.mem_singleton] at hw
    rcases hw with (hold | rfl) | rfl
    · exact h.writes w hold
    · omega
    · omega
  · exact h.mem.trans ((sameOff_setByte c (by omega)).trans
      (sameOff_setByte (n := 2 * p + 1) attr (by omega)))

theorem Stores.scrolled (h : Stores m₀ s) : Stores m₀ s.scrolled := by
  constructor
  · intro w hw
    exact (List.mem_append.mp hw).elim (h.writes w) scrollOffsets_bound
  · exact h.mem.trans ((sameOff_moveRows (by omega)).trans (sameOff_blankLastLine (by omega)))

theorem setCursorOffset_bounded {p : Nat} (h : Stores m₀ s) (hp : p < 2000) :
    Bounded m₀ ((setCursorOffset (2 * p : Nat)).run s).2 := by
  obtain ⟨s', hrun, -, hcursor⟩ := setCursorOffset_run s hp
  refine ⟨⟨h.writes, h.mem⟩, ?_⟩
  rw [hrun, hcursor]
  exact hp

/-- The position behind the last cell is the one case that scrolls. -/
theorem advance_bounded {p : Nat} (h : Stores m₀ s) (hp : p ≤ 2000) :
    Bounded m₀ ((advance (2 * p : Nat)).run s).2 := by
  by_cases hlast : p < 2000
  · rw [advance_stays (by omega)]
    exact setCursorOffset_bounded h hlast
  · obtain rfl : p = 2000 := by omega
    rw [advance_scrolls (by omega)]
    exact setCursorOffset_bounded (p := 1920) h.scrolled (by omega)

/-- What `print_char` does at an offset on the screen. -/
def typeAt (c attr : UInt8) (offset : Int) : ScreenM Int :=
  if c = 0x0A then advance (getOffset 0 (getOffsetRow offset + 1))
  else if c = 0x08 then do
    poke offset 0x20
    poke (offset + 1) attr
    advance offset
  else do
    poke offset c
    poke (offset + 1) attr
    advance (offset + 2)

theorem typeAt_bounded {c attr : UInt8} {p : Nat} (h : Stores m₀ s) (hp : p < 2000) :
    Bounded m₀ ((typeAt c attr (2 * p : Nat)).run s).2 := by
  rw [typeAt]
  by_cases hnew : c = 0x0A
  · have hrow : getOffset 0 (getOffsetRow (2 * p : Nat) + 1) = (2 * (80 * (p / 80 + 1)) : Nat) := by
      rw [offset_row, getOffset_eq (by omega) (by omega)]
      omega
    rw [if_pos hnew, hrow]
    exact advance_bounded h (by omega)
  · rw [if_neg hnew]
    by_cases hback : c = 0x08
    · rw [if_pos hback]
      exact advance_bounded (h.stored hp) (Nat.le_of_lt hp)
    · rw [if_neg hback]
      exact advance_bounded (p := p + 1) (h.stored hp) hp

/-- Short of the far edges the place is on the screen or taken from the cursor. -/
theorem printChar_on (c attr : UInt8) {col row : Int} (hon : ¬ (80 ≤ col ∨ 25 ≤ row))
    (hcursor : cursor s < 2000) :
    ∃ p < 2000, ∃ i, (printChar c col row attr).run s =
      (typeAt c (if attr = 0 then whiteOnBlack else attr) (2 * p : Nat)).run
        { s with index := i } := by
  by_cases hplace : 0 ≤ col ∧ 0 ≤ row
  · have hoffset : getOffset col row = (2 * (row * 80 + col).toNat : Nat) := by
      rw [getOffset_eq (by omega) (by omega)]
      omega
    refine ⟨(row * 80 + col).toNat, by omega, s.index, ?_⟩
    rw [printChar, if_neg hon, if_pos hplace, ← hoffset, typeAt]
    simp only [pure_bind]
  · refine ⟨cursor s, hcursor, 15, ?_⟩
    rw [printChar, if_neg hon, if_neg hplace, StateT.run_bind, getCursorOffset_run, typeAt]
    simp only [pure_bind]
    split
    · rfl
    · split
      · rfl
      · rfl

/-- One character, at any column and row at all. -/
theorem printChar_bounded {c attr : UInt8} {col row : Int} (h : Bounded m₀ s) :
    Bounded m₀ ((printChar c col row attr).run s).2 := by
  by_cases hedge : 80 ≤ col ∨ 25 ≤ row
  · rw [printChar, if_pos hedge]
    exact ⟨Stores.stored (p := 1999) h.toStores (by omega), h.cursor⟩
  · obtain ⟨p, hp, i, hrun⟩ := printChar_on c attr hedge h.cursor
    rw [hrun]
    exact typeAt_bounded (s := { s with index := i }) ⟨h.writes, h.mem⟩ hp

/-! ## Messages and calls -/

theorem printLoop_bounded {message : List UInt8} {col row : Int} (h : Bounded m₀ s) :
    Bounded m₀ ((printLoop message col row).run s).2 := by
  induction message generalizing s col row with
  | nil => exact h
  | cons c rest ih =>
      rw [printLoop]
      split
      · exact h
      · exact ih (printChar_bounded h)

theorem kprintAt_bounded {message : List UInt8} {col row : Int} (h : Bounded m₀ s) :
    Bounded m₀ ((kprintAt message col row).run s).2 := by
  rw [kprintAt]
  split
  · exact printLoop_bounded h
  · exact printLoop_bounded (s := { s with index := 15 }) ⟨⟨h.writes, h.mem⟩, h.cursor⟩

theorem kprintBackspace_bounded (h : Bounded m₀ s) :
    Bounded m₀ (kprintBackspace.run s).2 :=
  printChar_bounded (s := { s with index := 15 }) ⟨⟨h.writes, h.mem⟩, h.cursor⟩

theorem kprintAtCol_run {message : List UInt8} {col offset : Int}
    (hoffset : getOffset col (getOffsetRow (2 * cursor s : Nat)) = offset) :
    (kprintAtCol message col).run s =
      (kprint message).run ((setCursorOffset offset).run { s with index := 15 }).2 := by
  rw [kprintAtCol, StateT.run_bind, getCursorOffset_run]
  change (do
    setCursorOffset (getOffset col (getOffsetRow (2 * cursor s : Nat)))
    kprint message).run { s with index := 15 } = _
  rw [hoffset, StateT.run_bind]
  rfl

theorem kprintAtCol_bounded {message : List UInt8} {col : Int} (hcol : 0 ≤ col ∧ col < 80)
    (h : Bounded m₀ s) : Bounded m₀ ((kprintAtCol message col).run s).2 := by
  have hcursor := h.cursor
  have hplace : getOffset col (getOffsetRow (2 * cursor s : Nat)) =
      (2 * (80 * (cursor s / 80) + col.toNat) : Nat) := by
    rw [offset_row, getOffset_eq hcol (by omega)]
    omega
  have hset : Bounded m₀ ((setCursorOffset (2 * (80 * (cursor s / 80) + col.toNat) : Nat)).run
      { s with index := 15 }).2 :=
    setCursorOffset_bounded (s := { s with index := 15 }) ⟨h.writes, h.mem⟩ (by omega)
  rw [kprintAtCol_run hplace]
  exact kprintAt_bounded hset

theorem clearScreen_bounded (h : Stores m₀ s) : Bounded m₀ (clearScreen.run s).2 := by
  have hclear : Stores m₀
      { s with mem := clearLoop (80 * 25) s.mem, writes := s.writes ++ clearOffsets } := by
    refine ⟨?_, h.mem.trans (sameOff_clearLoop (by omega))⟩
    intro w hw
    exact (List.mem_append.mp hw).elim (h.writes w) clearOffsets_bound
  have hrun : clearScreen.run s = (setCursorOffset (2 * 0 : Nat)).run
      { s with mem := clearLoop (80 * 25) s.mem, writes := s.writes ++ clearOffsets } := rfl
  rw [hrun]
  exact setCursorOffset_bounded hclear (by omega)

/-- A call from outside, with any column and row; `kprint_at_col` is called with a column
of the screen. -/
inductive ScreenCall where
  | kprint (message : List UInt8)
  | kprintAt (message : List UInt8) (col row : Int32)
  | kprintAtCol (message : List UInt8) (col : Fin 80)
  | backspace
  | clearScreen

def ScreenCall.run : ScreenCall → ScreenM Unit
  | .kprint message => Screen.kprint message
  | .kprintAt message col row => Screen.kprintAt message col.toInt row.toInt
  | .kprintAtCol message col => Screen.kprintAtCol message col.val
  | .backspace => kprintBackspace
  | .clearScreen => Screen.clearScreen

theorem call_bounded (call : ScreenCall) (h : Bounded m₀ s) :
    Bounded m₀ (call.run.run s).2 := by
  cases call with
  | kprint message => exact kprintAt_bounded h
  | kprintAt message col row => exact kprintAt_bounded h
  | kprintAtCol message col => exact kprintAtCol_bounded (by have := col.isLt; omega) h
  | backspace => exact kprintBackspace_bounded h
  | clearScreen => exact clearScreen_bounded h.toStores

/-- The screen after `clear_screen` and the calls, with the stores of these. -/
def screen (s : Vga) (calls : List ScreenCall) : Vga :=
  calls.foldl (fun s call => (call.run.run s).2) (clearScreen.run { s with writes := [] }).2

theorem calls_bounded {calls : List ScreenCall} (h : Bounded m₀ s) :
    Bounded m₀ (calls.foldl (fun s call => (call.run.run s).2) s) := by
  induction calls generalizing s with
  | nil => exact h
  | cons call rest ih => exact ih (call_bounded call h)

/-- After any calls all stores were to the 4000 bytes of video memory, nothing else has
changed, and the offset read back from the cursor is that of a cell. -/
theorem screen_bounded (s : Vga) (calls : List ScreenCall) :
    (∀ w ∈ (screen s calls).writes, 0 ≤ w ∧ w < 4000) ∧
      SameOff (Span videoAddress 4000) s.mem (screen s calls).mem ∧
      0 ≤ (getCursorOffset.run (screen s calls)).1 ∧
      (getCursorOffset.run (screen s calls)).1 ≤ 3998 ∧
      (getCursorOffset.run (screen s calls)).1 % 2 = 0 := by
  have hclear : Bounded s.mem (clearScreen.run { s with writes := [] }).2 :=
    clearScreen_bounded ⟨fun w hw => (List.not_mem_nil hw).elim, .refl _⟩
  have hcalls : Bounded s.mem (screen s calls) := calls_bounded hclear
  have hcursor := hcalls.cursor
  refine ⟨hcalls.writes, hcalls.mem, ?_⟩
  rw [getCursorOffset_run]
  change 0 ≤ ((2 * cursor (screen s calls) : Nat) : Int) ∧ _ ≤ (3998 : Int) ∧
    ((2 * cursor (screen s calls) : Nat) : Int) % 2 = 0
  omega

end Bedrock.Screen
