import Bedrock.Lib.Numeral
import Bedrock.Libc.String

/-!
# Numbers as strings

The rest of `libc/string.c`: the functions that write a number to a buffer, in
decimal and in hexadecimal.
-/

namespace Bedrock

open Lib

variable {δ : Type}

/-! ## Decimal -/

/-- The loop of `reverse`. -/
def reverseLoop (s : UInt32) : (fuel : Nat) → (i j : Int32) → Kern δ Unit
  | 0, _, _ => throw .fuel
  | fuel + 1, i, j => do
      if i < j then
        let m := (← get).mem
        let c := m (s + i.toUInt32)
        setChar s i.toUInt32 (m (s + j.toUInt32))
        setChar s j.toUInt32 c
        reverseLoop s fuel (i + 1) (j - 1)

def reverse (fuel : Nat) (s : UInt32) : Kern δ Unit := do
  let len ← strlen fuel (chars (← get).mem s)
  reverseLoop s fuel 0 (len - 1)

/-- `(char)x` -/
def toChar (x : Int32) : UInt8 := x.toUInt32.toUInt8

/-- The `do` loop of `int_to_ascii`: the index behind the last digit. -/
def intToAsciiLoop (str : UInt32) : (fuel : Nat) → (i n : Int32) → Kern δ Int32
  | 0, _, _ => throw .fuel
  | fuel + 1, i, n => do
      setChar str i.toUInt32 (toChar (n % 10 + 0x30))
      if 0 < n / 10 then
        intToAsciiLoop str fuel (i + 1) (n / 10)
      else
        return i + 1

def intToAscii (fuel : Nat) (n : Int32) (str : UInt32) : Kern δ Unit := do
  let sign := n
  let n := if sign < 0 then -n else n
  let i ← intToAsciiLoop str fuel 0 n
  if sign < 0 then
    setChar str i.toUInt32 0x2D
    setChar str (i + 1).toUInt32 0
  else
    setChar str i.toUInt32 0
  reverse fuel str

/-! ## Hexadecimal -/

/-- The rounds of the loop of `hex_to_ascii` with `i` from `4 * r` down. -/
def hexToAsciiLoop (fuel : Nat) (n : Int32) (str : UInt32) :
    (r : Nat) → (zeros : Bool) → Kern δ Unit
  | 0, _ => return ()
  | r + 1, zeros => do
      let tmp := (n >>> Int32.ofNat (4 * (r + 1))) &&& 0xF
      if tmp = 0 ∧ zeros = false then
        hexToAsciiLoop fuel n str r zeros
      else
        if tmp > 0xA then
          append fuel str (toChar (tmp - 0xA + 0x61))
        else
          append fuel str (toChar (tmp + 0x30))
        hexToAsciiLoop fuel n str r true

def hexToAscii (fuel : Nat) (n : Int32) (str : UInt32) : Kern δ Unit := do
  append fuel str 0x30
  append fuel str 0x78
  hexToAsciiLoop fuel n str 7 false
  let tmp := n &&& 0xF
  if tmp ≥ 0xA then
    append fuel str (toChar (tmp - 0xA + 0x61))
  else
    append fuel str (toChar (tmp + 0x30))

/-! ## `kprint_int` and `kprint_hex` -/

/-- `char value_str[16] = "";` -/
def emptyStr (valueStr : UInt32) : Kern δ Unit :=
  modify fun k => { k with mem := k.mem.write valueStr 16 fun _ => 0 }

/-- `kprint_int`, with `value_str` at this address. -/
def kprintIntStr (fuel : Nat) (valueStr value : UInt32) : Kern δ Unit := do
  emptyStr valueStr
  intToAscii fuel value.toInt32 valueStr
  kprintMsg (.mem valueStr)

/-- `kprint_hex`, with `value_str` at this address. -/
def kprintHexStr (fuel : Nat) (valueStr value : UInt32) : Kern δ Unit := do
  emptyStr valueStr
  hexToAscii fuel value.toInt32 valueStr
  kprintMsg (.mem valueStr)

end Bedrock
