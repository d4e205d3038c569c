import Bedrock.Drivers.Keyboard
import Bedrock.Lib.Run
import Mathlib.Data.List.Forall2

/-!
# The keyboard driver as a line editor

What `key_buffer` is for: a line that letters are added to, Backspace takes
letters from, and Enter hands over. `keyboard_callback` does that editing in the
array as long as the line has a letter when Backspace is pressed and has fewer
than 255 when another is typed (`KeyFits`). Otherwise it writes in front of the
array or behind it.
-/

namespace Bedrock

open Lib

/-! ## The line editor -/

/-- The line that is being typed, and those that were entered. -/
structure Editor where
  line : List UInt8
  entered : List (List UInt8)

def Editor.empty : Editor := ⟨[], []⟩

/-- The scancode of a key with a letter. -/
def Types (scancode : UInt8) : Prop :=
  scancode ≤ scMax ∧ scancode ≠ BACKSPACE ∧ scancode ≠ ENTER

def Editor.key (e : Editor) (scancode : UInt8) : Editor :=
  if scMax < scancode then e
  else if scancode = BACKSPACE then { e with line := e.line.dropLast }
  else if scancode = ENTER then ⟨[], e.entered ++ [e.line]⟩
  else { e with line := e.line ++ [scAscii.getD scancode.toNat 0] }

/-- What was typed, from the start. -/
def edited (scancodes : List UInt8) : Editor := scancodes.foldl Editor.key Editor.empty

theorem edited_append (scancodes : List UInt8) (scancode : UInt8) :
    edited (scancodes ++ [scancode]) = (edited scancodes).key scancode := by
  rw [edited, List.foldl_append]
  rfl

/-- A key's letter is not NUL. -/
theorem letter_ne_zero {scancode : UInt8} (h : ¬ scMax < scancode) :
    scAscii.getD scancode.toNat 0 ≠ 0 := by
  have hlt : scancode.toNat < scAscii.length := by
    rw [scAscii_length]
    rw [UInt8.lt_iff_toNat_lt, show scMax.toNat = 57 from rfl] at h
    omega
  rw [List.getD_eq_getElem?_getD, List.getElem?_eq_getElem hlt, Option.getD_some]
  exact fun h0 => scAscii_ne_zero (h0 ▸ List.getElem_mem hlt)

/-! ## The driver -/

section

variable {fuel : Nat} {keyBuffer : UInt32} {k k' : Kernel Inputs} {scancode : UInt8}

/-- A keyboard interrupt with this scancode. -/
def KeyStep (fuel : Nat) (keyBuffer : UInt32) (k : Kernel Inputs) (scancode : UInt8)
    (k' : Kernel Inputs) : Prop :=
  (keyboardCallback fuel keyBuffer scancode).run k = .ok () k'

/-- The buffer has a letter to take away, or room for one more. -/
structure KeyFits (keyBuffer : UInt32) (k : Kernel Inputs) (scancode : UInt8) : Prop where
  backspace : scancode = BACKSPACE → chars k.mem keyBuffer 0 ≠ 0
  letter : Types scancode → ∃ i < 255, chars k.mem keyBuffer i = 0

/-- The buffer holds the editor's line, the calls of `user_input` were handed the
lines entered, and memory outside the buffer is as in `m`. -/
structure Edits (keyBuffer : UInt32) (m : Mem) (e : Editor) (k : Kernel Inputs) : Prop where
  outside : SameOff (Span keyBuffer 256) m k.mem
  line : IsStr (chars k.mem keyBuffer) e.line
  length : e.line.length ≤ 255
  entered : List.Forall₂ IsStr k.dev e.entered

variable {m : Mem} {e : Editor}

/-- The buffer after a line was handed over. -/
theorem isStr_emptied (m : Mem) (p : UInt32) :
    IsStr (chars (m.write (p + 0) 1 fun _ => 0) p) [] where
  char i hi := absurd hi (Nat.not_lt_zero i)
  stop := (chars_write (i := 0) (j := 0) (by decide) (by decide)).trans (if_pos rfl)
  nonzero := List.not_mem_nil

/-- One key: the handler returns, and the buffer is edited. -/
theorem edits_key (hfuel : 256 ≤ fuel) (he : Edits keyBuffer m e k)
    (hfit : KeyFits keyBuffer k scancode) :
    ∃ k', KeyStep fuel keyBuffer k scancode k' ∧ Edits keyBuffer m (e.key scancode) k' := by
  have hlen := he.length
  have hline : e.line.length < fuel := by omega
  rw [Editor.key]
  simp only [KeyStep, keyboardCallback]
  split
  · exact ⟨k, rfl, he⟩
  · rename_i hmax
    split
    · rename_i hback
      have hne : e.line ≠ [] := by
        intro h0
        have hstop := he.line.stop
        rw [h0] at hstop
        exact hfit.backspace hback hstop
      obtain ⟨m₁, hrun, hstr, hoff⟩ := backspace_run he.line hline (by omega) hne
      refine ⟨({ k with mem := m₁ } : Kernel Inputs).print .backspace, Exec.bind_ok hrun,
        ?_, hstr, ?_, he.entered⟩
      · exact he.outside.trans (hoff.mono fun a ha => ha.mono (by omega))
      · rw [List.length_dropLast]
        omega
    · rename_i hback
      split
      · -- the line is handed over as it is, and then emptied
        refine ⟨{ k with
            mem := k.mem.write (keyBuffer + 0) 1 fun _ => 0
            console := k.console ++ [.str "\n"]
            dev := k.dev ++ [chars k.mem keyBuffer] }, rfl, ?_, isStr_emptied _ _, ?_, ?_⟩
        · have hwrite : SameOff (Span keyBuffer 256) k.mem
              (k.mem.write (keyBuffer + 0) 1 fun _ => 0) := by
            rw [UInt32.add_zero]
            exact sameOff_write.mono fun a ha => ha.mono (by omega)
          exact he.outside.trans hwrite
        · exact Nat.zero_le _
        · exact List.rel_append he.entered (.cons he.line .nil)
      · rename_i henter
        obtain ⟨i, hi, h0⟩ := hfit.letter
          ⟨by rwa [UInt8.not_lt] at hmax, hback, henter⟩
        have hroom : e.line.length < 255 := by
          by_contra hfull
          have := (he.line.eq_zero_iff (show i ≤ e.line.length by omega)).mp h0
          omega
        obtain ⟨m₁, hrun, hstr, hoff⟩ := append_run (c := scAscii.getD scancode.toNat 0)
          he.line hline (by omega) (letter_ne_zero hmax)
        refine ⟨({ k with mem := m₁ } : Kernel Inputs).print
          (.bytes [scAscii.getD scancode.toNat 0]), Exec.bind_ok hrun, ?_, hstr, ?_, he.entered⟩
        · exact he.outside.trans (hoff.mono fun a ha => ha.mono (by omega))
        · rw [List.length_append, List.length_singleton]
          omega

/-- In every run that starts with a zeroed buffer and whose keys all fit, no byte
outside the buffer has been written, the buffer holds the line of the keys since
the last Enter, ended by a NUL, and `user_input` was handed the lines entered.
The next key is handled too, if it fits. -/
theorem keyboard_run {k₀ : Kernel Inputs} {tr : List UInt8} (hfuel : 256 ≤ fuel)
    (hzero : ∀ a, Span keyBuffer 256 a → k₀.mem a = 0) (hnone : k₀.dev = [])
    (hrun : Run (Guarded (KeyStep fuel keyBuffer) (KeyFits keyBuffer)) k₀ tr k) :
    Edits keyBuffer k₀.mem (edited tr) k ∧
      ∀ scancode, KeyFits keyBuffer k scancode →
        ∃ k', KeyStep fuel keyBuffer k scancode k' := by
  have hstart : Edits keyBuffer k₀.mem (edited []) k₀ := by
    refine ⟨SameOff.refl _, ⟨fun i hi => absurd hi (Nat.not_lt_zero i), ?_, List.not_mem_nil⟩,
      Nat.zero_le _, by rw [hnone]; exact .nil⟩
    refine hzero _ ?_
    exact span_add (i := 0) (by decide) (by decide)
  have hedits : Edits keyBuffer k₀.mem (edited tr) k := by
    refine hrun.trace_invariant (I := fun tr k => Edits keyBuffer k₀.mem (edited tr) k) hstart
      fun tr s scancode s' hs ⟨hfit, hstep⟩ => ?_
    obtain ⟨s₁, hstep₁, hs₁⟩ := edits_key hfuel hs hfit
    obtain ⟨-, rfl⟩ := EStateM.Result.ok.inj (hstep.symm.trans hstep₁)
    rw [edited_append]
    exact hs₁
  refine ⟨hedits, fun scancode hfit => ?_⟩
  obtain ⟨k', hstep, -⟩ := edits_key hfuel hedits hfit
  exact ⟨k', hstep⟩

end

/-- The keys `a` and Backspace in a new kernel. -/
theorem keyboard_run_two_keys : ∃ k,
    Run (Guarded (KeyStep 256 0xC0109000) (KeyFits 0xC0109000)) (Kernel.zero [])
        [0x1E, 0x0E] k ∧
      Edits 0xC0109000 (fun _ => 0) (edited [0x1E, 0x0E]) k := by
  have hstart : Edits 0xC0109000 (fun _ => 0) (edited []) (Kernel.zero []) :=
    ⟨SameOff.refl _, ⟨fun i hi => absurd hi (Nat.not_lt_zero i), rfl, List.not_mem_nil⟩,
      Nat.zero_le _, .nil⟩
  have hroom : KeyFits 0xC0109000 (Kernel.zero []) 0x1E :=
    ⟨fun h => absurd h (by decide), fun _ => ⟨0, by decide, rfl⟩⟩
  obtain ⟨k₁, hstep₁, hedits⟩ := edits_key (show 256 ≤ 256 from Nat.le_refl _) hstart hroom
  have hletter : KeyFits 0xC0109000 k₁ 0x0E := by
    refine ⟨fun _ => ?_, fun h => absurd rfl h.2.1⟩
    rw [hedits.line.char 0 (by decide)]
    decide
  obtain ⟨k₂, hstep₂, -⟩ := edits_key (show 256 ≤ 256 from Nat.le_refl _) hedits hletter
  have hrun : Run (Guarded (KeyStep 256 0xC0109000) (KeyFits 0xC0109000)) (Kernel.zero [])
      [0x1E, 0x0E] k₂ := .snoc (.snoc .nil ⟨hroom, hstep₁⟩) ⟨hletter, hstep₂⟩
  exact ⟨k₂, hrun, (keyboard_run (Nat.le_refl _) (fun _ _ => rfl) rfl hrun).1⟩

/-- Backspace as the first key writes a NUL in front of the buffer. -/
theorem keyboard_backspace_first : ∃ k₀ k : Kernel Inputs,
    (∀ a, Span 0xC0109000 256 a → k₀.mem a = 0) ∧
      KeyStep 256 0xC0109000 k₀ BACKSPACE k ∧
      ¬ SameOff (Span 0xC0109000 256) k₀.mem k.mem := by
  refine ⟨{ Kernel.zero [] with
      mem := Mem.write (fun _ => 1) 0xC0109000 256 fun _ => 0 }, _,
    fun a ha => Mem.write_in (m := fun _ => 1) (f := fun _ => 0) ha,
    rfl, fun h => ?_⟩
  exact absurd (h 0xC0108FFF (by decide)) (by decide)

end Bedrock
