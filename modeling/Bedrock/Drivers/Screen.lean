import Mathlib.Algebra.Group.Int.Defs
import Bedrock.Kernel.State

/-!
# The text screen: `screen.c`

Video memory holds the cells of 25 rows of 80 columns, each a character and its
attribute, and the position of the cursor is in two registers of the video
controller. An `int` of this file is an `Int`. Only `get_offset`, which is handed
the columns and rows of callers, can leave the range of an `int`; there the
result wraps. All other numbers come from the 16 bits of the cursor or are
quotients of an offset.

A message is the list of its characters. Beside the memory the state keeps the
offsets that have been stored to, which the code does not have.
-/

namespace Bedrock.Screen

open Lib

/-- Memory, the registers of the controller with the number of the selected
one, and the offsets of all stores to video memory, the last one last. -/
structure Vga where
  mem : Mem
  index : UInt8
  crtc : UInt8 → UInt8
  writes : List Int

abbrev ScreenM := StateM Vga

/-- `VIDEO_ADDRESS` -/
def videoAddress : UInt32 := 0xC0000000 + 0xb8000

def whiteOnBlack : UInt8 := 0x0f

def redOnWhite : UInt8 := 0xf4

def regScreenCtrl : UInt16 := 0x3d4

def regScreenData : UInt16 := 0x3d5

def portByteOut (port : UInt16) (data : UInt8) : ScreenM Unit :=
  modify fun s =>
    if port = regScreenCtrl then { s with index := data }
    else if port = regScreenData then { s with crtc := Function.update s.crtc s.index data }
    else s

def portByteIn (port : UInt16) : ScreenM UInt8 := do
  let s ← get
  return if port = regScreenData then s.crtc s.index else 0xFF

/-- `vidmem[offset] = value`, in a memory. -/
def setByte (m : Mem) (offset : Int) (value : UInt8) : Mem :=
  m.write (videoAddress + UInt32.ofInt offset) 1 fun _ => value

def poke (offset : Int) (value : UInt8) : ScreenM Unit :=
  modify fun s => { s with mem := setByte s.mem offset value, writes := s.writes ++ [offset] }

def getOffset (col row : Int) : Int := (2 * (row * 80 + col)).bmod (2 ^ 32)

def getOffsetRow (offset : Int) : Int := offset.tdiv (2 * 80)

def getOffsetCol (offset : Int) : Int := (offset - getOffsetRow offset * 2 * 80).tdiv 2

def getCursorOffset : ScreenM Int := do
  portByteOut regScreenCtrl 14
  let high ← portByteIn regScreenData
  portByteOut regScreenCtrl 15
  let low ← portByteIn regScreenData
  return ((high.toNat : Int) * 2 ^ 8 + low.toNat) * 2

def setCursorOffset (offset : Int) : ScreenM Unit := do
  let offset := offset.tdiv 2
  portByteOut regScreenCtrl 14
  portByteOut regScreenData (UInt8.ofInt (offset / 2 ^ 8))
  portByteOut regScreenCtrl 15
  portByteOut regScreenData (UInt8.ofInt (offset % 2 ^ 8))

/-- The rounds of the loop that moves the rows up by one. -/
def moveRows : Nat → Mem → Mem
  | 0, m => m
  | i + 1, m =>
      memoryCopyLoop (videoAddress + UInt32.ofInt (getOffset 0 (i + 1)))
        (videoAddress + UInt32.ofInt (getOffset 0 i)) (80 * 2) (moveRows i m)

/-- The rounds of the loop over `last_line`. -/
def blankLastLine : Nat → Mem → Mem
  | 0, m => m
  | i + 1, m => setByte (blankLastLine i m) (getOffset 0 (25 - 1) + i) 0

/-- The offsets of row `i`. -/
def rowOffsets (i : Nat) : List Int := (List.range (80 * 2)).map fun (j : Nat) => getOffset 0 i + j

/-- Rows 0 to 23 are copied to, and then the last line is blanked. -/
def scrollOffsets : List Int :=
  (List.range (25 - 1)).flatMap rowOffsets ++ rowOffsets (25 - 1)

def scroll : ScreenM Unit :=
  modify fun s => { s with
    mem := blankLastLine (80 * 2) (moveRows (25 - 1) s.mem)
    writes := s.writes ++ scrollOffsets }

/-- The end of `print_char`: the screen scrolls, and the cursor is set. -/
def advance (offset : Int) : ScreenM Int := do
  let offset ←
    if 25 * 80 * 2 ≤ offset then do
      scroll
      pure (offset - 2 * 80)
    else pure offset
  setCursorOffset offset
  return offset

def printChar (c : UInt8) (col row : Int) (attr : UInt8) : ScreenM Int := do
  let attr := if attr = 0 then whiteOnBlack else attr
  if 80 ≤ col ∨ 25 ≤ row then
    poke (2 * 80 * 25 - 2) 0x45
    poke (2 * 80 * 25 - 1) redOnWhite
    return getOffset col row
  let offset ← if 0 ≤ col ∧ 0 ≤ row then pure (getOffset col row) else getCursorOffset
  let offset ←
    if c = 0x0A then
      pure (getOffset 0 (getOffsetRow offset + 1))
    else if c = 0x08 then do
      poke offset 0x20
      poke (offset + 1) attr
      pure offset
    else do
      poke offset c
      poke (offset + 1) attr
      pure (offset + 2)
  advance offset

/-- The loop of `kprint_at`, from the place of the next character. -/
def printLoop : List UInt8 → Int → Int → ScreenM Unit
  | [], _, _ => return ()
  | c :: rest, col, row =>
      -- the terminating zero
      if c = 0 then return ()
      else do
        let offset ← printChar c col row whiteOnBlack
        printLoop rest (getOffsetCol offset) (getOffsetRow offset)

def kprintAt (message : List UInt8) (col row : Int) : ScreenM Unit := do
  if 0 ≤ col ∧ 0 ≤ row then
    printLoop message col row
  else
    let offset ← getCursorOffset
    printLoop message (getOffsetCol offset) (getOffsetRow offset)

def kprint (message : List UInt8) : ScreenM Unit := kprintAt message (-1) (-1)

def kprintBackspace : ScreenM Unit := do
  let offset := (← getCursorOffset) - 2
  let row := getOffsetRow offset
  let col := getOffsetCol offset
  let _ ← printChar 0x08 col row whiteOnBlack

def kprintAtCol (message : List UInt8) (col : Int) : ScreenM Unit := do
  let offset ← getCursorOffset
  let row := getOffsetRow offset
  let offset := getOffset col row
  setCursorOffset offset
  kprint message

/-- The rounds of `clear_screen`. -/
def clearLoop : Nat → Mem → Mem
  | 0, m => m
  | i + 1, m => setByte (setByte (clearLoop i m) (i * 2) 0x20) (i * 2 + 1) whiteOnBlack

/-- What they store to. -/
def clearOffsets : List Int :=
  (List.range (80 * 25)).flatMap fun (i : Nat) => [i * 2, i * 2 + 1]

def clearScreen : ScreenM Unit := do
  modify fun s => { s with
    mem := clearLoop (80 * 25) s.mem
    writes := s.writes ++ clearOffsets }
  setCursorOffset (getOffset 0 0)

end Bedrock.Screen
