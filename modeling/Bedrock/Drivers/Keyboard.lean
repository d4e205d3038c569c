import Bedrock.Libc.String

/-!
# `drivers/keyboard.c`

The handler of the keyboard interrupt. It reads one scancode and edits the
string in `key_buffer`, an array of 256 bytes that starts as zeros. The string
functions it calls take no length: what keeps them inside the array is the
string that is in it.

`user_input` of the kernel is empty. The calls of it are kept, each with the
string its argument pointed to.
-/

namespace Bedrock

open Lib

def BACKSPACE : UInt8 := 0x0E

def ENTER : UInt8 := 0x1C

/-- `SC_MAX` -/
def scMax : UInt8 := 57

/-- `sc_ascii` -/
def scAscii : List UInt8 :=
  "??1234567890-=??qwertyuiop[]??asdfghjkl;'`?\\zxcvbnm,./??? ".toList.map
    fun c => UInt8.ofNat c.toNat

theorem scAscii_length : scAscii.length = 58 := by decide

/-- No key types a NUL. -/
theorem scAscii_ne_zero : 0 ∉ scAscii := by decide

/-- The characters a call of `user_input` was handed, for each call. -/
abbrev Inputs : Type := List (Nat → UInt8)

def userInput (input : UInt32) : Kern Inputs Unit :=
  modify fun k => { k with dev := k.dev ++ [chars k.mem input] }

/-- `keyboard_callback`, when port 0x60 gives `scancode`. -/
def keyboardCallback (fuel : Nat) (keyBuffer : UInt32) (scancode : UInt8) :
    Kern Inputs Unit := do
  if scMax < scancode then
    return
  if scancode = BACKSPACE then
    backspace fuel keyBuffer
    kprintMsg .backspace
  else if scancode = ENTER then
    kprint "\n"
    userInput keyBuffer
    setChar keyBuffer 0 0
  else
    let letter := scAscii.getD scancode.toNat 0
    append fuel keyBuffer letter
    kprintMsg (.bytes [letter])

end Bedrock
