import Bedrock.Cpu.Interrupt

/-!
# The frame of an interrupt

The CPU, a stub and a common stub push one frame together, and the C struct
`registers_t` names its words. Everything here is about the words on the stack
(`Cpu.Holds`): each push puts one in front, each pop takes one away, and the
memory itself does not appear.

For vector 17 the stub pushes an error code although the CPU has pushed one,
so the frame is a word too long: the fields from `eip` on are wrong, and `iret`
takes the error code for the address to go on at.
-/

namespace Bedrock

open Lib

variable {k : StubEnv} {c d : Cpu} {top w : UInt32} {ws : List UInt32}

/-- The words on the stack, from the stack pointer up to `top`. -/
abbrev Cpu.Holds (c : Cpu) (top : UInt32) (ws : List UInt32) : Prop :=
  Stacked c.mem top (c.gpr .esp) ws

/-! ## Pushes -/

theorem Cpu.Holds.push (h : c.Holds top ws) (hlen : 4 * (ws.length + 1) ≤ 2 ^ 32) :
    (c.push w).Holds top (w :: ws) := Stacked.push hlen h

theorem Cpu.Holds.pushes {α : Type} {f : α → UInt32} {xs : List α} (h : c.Holds top ws)
    (hlen : 4 * (xs.length + ws.length) ≤ 2 ^ 32) :
    (xs.foldl (fun d x => d.push (f x)) c).Holds top ((xs.map f).reverse ++ ws) := by
  induction xs generalizing c ws with
  | nil => exact h
  | cons x xs ih =>
      rw [List.length_cons] at hlen
      have hrest := ih (h.push (w := f x) (by omega)) (by rw [List.length_cons]; omega)
      rw [List.map_cons, List.reverse_cons, List.append_assoc]
      exact hrest

/-- `d` has the general registers and data segments of `c`, but for the stack
pointer. -/
structure Cpu.SameRegs (c d : Cpu) : Prop where
  gpr : ∀ r, r ≠ .esp → d.gpr r = c.gpr r
  seg : d.seg = c.seg

theorem Cpu.SameRegs.refl : c.SameRegs c := ⟨fun _ _ => rfl, rfl⟩

theorem Cpu.SameRegs.set (h : c.SameRegs d) : c.SameRegs (d.set .esp w) :=
  ⟨fun r hr => (Function.update_of_ne hr _ _).trans (h.gpr r hr), h.seg⟩

theorem Cpu.SameRegs.push (h : c.SameRegs d) : c.SameRegs (d.push w) :=
  ⟨fun r hr => (Function.update_of_ne hr _ _).trans (h.gpr r hr), h.seg⟩

theorem Cpu.SameRegs.pushes {α : Type} {f : α → UInt32} {xs : List α} (h : c.SameRegs d) :
    c.SameRegs (xs.foldl (fun d x => d.push (f x)) d) := by
  induction xs generalizing d with
  | nil => exact h
  | cons x xs ih => exact ih h.push

theorem pushes_levels {α : Type} {f : α → UInt32} {xs : List α} :
    (xs.foldl (fun d x => d.push (f x)) c).cs = c.cs ∧
      (xs.foldl (fun d x => d.push (f x)) c).ss = c.ss := by
  induction xs generalizing c with
  | nil => exact ⟨rfl, rfl⟩
  | cons x xs ih => exact ih (c := c.push (f x))

/-! ## The stubs -/

theorem takeWhile_stub (v : Fin 48) : ((stub v).takeWhile fun i => !i.isCall) =
    (pushesOf v).map .pushByte ++ enterStub := by
  revert v
  decide

/-- The word that `push byte n` pushes. -/
def byteWord (n : Int8) : UInt32 := n.toInt32.toUInt32

/-- The number of the interrupt and an error code, from the CPU or from the
stub. -/
theorem pushed_words {v : Fin 48} (hv : v ≠ 17) (info : UInt32) :
    ∃ e, ((pushesOf v).map byteWord).reverse ++ (errorCode v info).toList =
      [UInt32.ofNat v.val, e] := by
  have hcases : ∀ v : Fin 48, v ≠ 17 →
      ((v = 8 ∨ 10 ≤ v ∧ v ≤ 14) ∧
        ((pushesOf v).map byteWord).reverse = [UInt32.ofNat v.val]) ∨
      (¬ (v = 8 ∨ v = 17) ∧ ¬ (10 ≤ v ∧ v ≤ 14) ∧ ∃ x ∈ (pushesOf v).map byteWord,
        ((pushesOf v).map byteWord).reverse = [UInt32.ofNat v.val, x]) := by
    decide
  rcases hcases v hv with ⟨hcode, hwords⟩ | ⟨hzero, hcode, x, -, hwords⟩
  · rw [hwords, errorCode]
    split
    · exact ⟨0, rfl⟩
    · rename_i h8
      rw [if_pos (hcode.resolve_left fun h => h8 (.inl h))]
      exact ⟨info, rfl⟩
  · rw [hwords, errorCode, if_neg hzero, if_neg hcode]
    exact ⟨x, rfl⟩

theorem execAll_append {xs ys : List Instr} :
    execAll k (xs ++ ys) c = execAll k ys (execAll k xs c) := List.foldl_append

theorem execAll_call {f : CFunction} {xs : List Instr} :
    execAll k (.call f :: xs) c = execAll k xs (k.handler f (c.push k.returnTo)) := rfl

theorem execAll_iret : execAll k [.iret] c = c.iret := rfl

theorem execAll_pushes {xs : List Int8} :
    execAll k (xs.map .pushByte) c = xs.foldl (fun d n => d.push (byteWord n)) c :=
  List.foldl_map

/-! ## On the way to the handler -/

/-- The words that the common stub adds: `ds`, and the general registers. -/
def savedWords (c : Cpu) : List UInt32 :=
  [c.gpr .eax &&& 0xFFFF0000 ||| (c.seg .ds).toUInt32, c.gpr .edi, c.gpr .esi, c.gpr .ebp,
    c.gpr .esp, c.gpr .ebx, c.gpr .edx, c.gpr .ecx, c.gpr .eax]

theorem enterStub_holds (h : c.Holds top ws) (hlen : 4 * (ws.length + 10) ≤ 2 ^ 32) :
    ∃ r, r = (execAll k enterStub c).gpr .esp + 4 ∧
      (execAll k enterStub c).Holds top (r :: (savedWords c ++ ws)) ∧
      (execAll k enterStub c).cs = c.cs ∧ (execAll k enterStub c).ss = c.ss := by
  have hpusha : (Instr.pusha.exec k c).Holds top ((savedWords c).tail ++ ws) :=
    Cpu.Holds.pushes (f := c.gpr) h (show 4 * (8 + ws.length) ≤ 2 ^ 32 by omega)
  have hframe : ((Instr.pusha.exec k c).push (c.gpr .eax &&& 0xFFFF0000 |||
      (c.seg .ds).toUInt32)).Holds top (savedWords c ++ ws) :=
    hpusha.push (by rw [List.length_append]; change 4 * (8 + _ + 1) ≤ _; omega)
  refine ⟨_, rfl, ?_, rfl, rfl⟩
  have hargument := hframe.push (w := (execAll k enterStub c).gpr .esp + 4)
    (by rw [List.length_append]; change 4 * (9 + _ + 1) ≤ _; omega)
  have hplace : (execAll k enterStub c).gpr .esp + 4 = ((Instr.pusha.exec k c).push
      (c.gpr .eax &&& 0xFFFF0000 ||| (c.seg .ds).toUInt32)).gpr .esp :=
    UInt32.sub_add_cancel _ 4
  rw [hplace] at hargument ⊢
  exact hargument

/-- The stack that the CPU pushes the context on, where it begins. -/
def kernelTop (k : StubEnv) (c : Cpu) : UInt32 :=
  if rpl c.cs = 0 then c.gpr .esp else k.tss.esp0

/-- The words that the CPU pushes for every vector. -/
def context (c : Cpu) : List UInt32 :=
  c.eip :: c.cs.toUInt32 :: c.eflags ::
    if rpl c.cs = 0 then [] else [c.gpr .esp, c.ss.toUInt32]

theorem context_length : 3 ≤ (context c).length ∧ (context c).length ≤ 5 := by
  rw [context]
  split
  · exact ⟨Nat.le_refl 3, (by decide : 3 ≤ 5)⟩
  · exact ⟨(by decide : 3 ≤ 5), Nat.le_refl 5⟩

theorem errorCode_length (v : Fin 48) (info : UInt32) :
    (errorCode v info).toList.length ≤ 1 := by
  cases errorCode v info with
  | none => exact Nat.zero_le 1
  | some e => exact Nat.le_refl 1

/-- On either stack the context comes first, and then the error code, if there is one. -/
theorem Cpu.Holds.coded {d : Cpu} {code : Option UInt32}
    (hd : d.Holds (kernelTop k c) (context c)) :
    (match code with
      | some code => d.push code
      | none => d).Holds (kernelTop k c) (code.toList ++ context c) := by
  cases code with
  | none => exact hd
  | some e => exact hd.push (by have := context_length (c := c); omega)

theorem deliver_holds {v : Fin 48} {info : UInt32} :
    (deliver k v info c).Holds (kernelTop k c) ((errorCode v info).toList ++ context c) := by
  refine Cpu.Holds.coded (d := Cpu.push (Cpu.push (Cpu.push _ _) _) _) ?_
  by_cases hlevel : rpl c.cs = 0
  · rw [if_pos hlevel, kernelTop, if_pos hlevel, context, if_pos hlevel]
    have hstart : c.Holds (c.gpr .esp) [] := Stacked.nil
    exact ((hstart.push (by simp)).push (by simp)).push (by simp)
  · rw [if_neg hlevel, kernelTop, if_neg hlevel, context, if_neg hlevel]
    have hstart : ({ c with ss := k.tss.ss0.toUInt16 }.set .esp k.tss.esp0).Holds k.tss.esp0 [] :=
      Stacked.nil
    exact ((((hstart.push (by simp)).push (by simp)).push (by simp)).push (by simp)).push
      (by simp)

theorem deliver_sameRegs {v : Fin 48} {info : UInt32} : c.SameRegs (deliver k v info c) := by
  have hinner : c.SameRegs (if rpl c.cs = 0 then c
      else (({ c with ss := k.tss.ss0.toUInt16 }.set .esp k.tss.esp0).push c.ss.toUInt32).push
        (c.gpr .esp)) := by
    split
    · exact .refl
    · have hstart : c.SameRegs { c with ss := k.tss.ss0.toUInt16 } := ⟨fun _ _ => rfl, rfl⟩
      exact hstart.set.push.push
  have hframed := hinner.push (w := c.eflags) |>.push (w := c.cs.toUInt32) |>.push (w := c.eip)
  rw [deliver]
  cases errorCode v info with
  | none => exact ⟨hframed.gpr, hframed.seg⟩
  | some e => exact ⟨(hframed.push (w := e)).gpr, (hframed.push (w := e)).seg⟩

/-- The stack segment that the stub runs on. -/
def kernelSs (k : StubEnv) (c : Cpu) : UInt16 :=
  if rpl c.cs = 0 then c.ss else k.tss.ss0.toUInt16

theorem deliver_levels {v : Fin 48} {info : UInt32} :
    (deliver k v info c).cs = kernelCs ∧ (deliver k v info c).ss = kernelSs k c := by
  refine ⟨rfl, ?_⟩
  by_cases hlevel : rpl c.cs = 0
  · rw [deliver, kernelSs, if_pos hlevel, if_pos hlevel]
    cases errorCode v info with
    | none => rfl
    | some e => rfl
  · rw [deliver, kernelSs, if_neg hlevel, if_neg hlevel]
    cases errorCode v info with
    | none => rfl
    | some e => rfl

/-- The words of the frame above those of the common stub: the number and the
error code, and the context. -/
def frameTail (v : Fin 48) (info : UInt32) (c : Cpu) : List UInt32 :=
  ((pushesOf v).map byteWord).reverse ++ ((errorCode v info).toList ++ context c)

theorem frameTail_length (v : Fin 48) (info : UInt32) (c : Cpu) :
    (frameTail v info c).length ≤ 8 := by
  have hpushes : (pushesOf v).length ≤ 2 := by
    revert v
    decide
  have hcode := errorCode_length v info
  have hcontext := context_length (c := c)
  simp only [frameTail, List.length_append, List.length_reverse, List.length_map]
  omega

/-- The words of the common stub, for the context and a stack pointer. -/
def savedFrame (c : Cpu) (esp : UInt32) : List UInt32 :=
  [c.gpr .eax &&& 0xFFFF0000 ||| (c.seg .ds).toUInt32, c.gpr .edi, c.gpr .esi, c.gpr .ebp, esp,
    c.gpr .ebx, c.gpr .edx, c.gpr .ecx, c.gpr .eax]

theorem Cpu.SameRegs.savedWords (h : c.SameRegs d) :
    savedWords d = savedFrame c (d.gpr .esp) := by
  rw [Bedrock.savedWords, savedFrame, h.seg, h.gpr .eax (by decide), h.gpr .edi (by decide),
    h.gpr .esi (by decide), h.gpr .ebp (by decide), h.gpr .ebx (by decide),
    h.gpr .edx (by decide), h.gpr .ecx (by decide)]

/-- At the first instruction of the handler: the return address, the argument,
and the frame that it points to. -/
theorem handed_holds (k : StubEnv) (v : Fin 48) (info : UInt32) (c : Cpu) :
    ∃ esp, (handed k v info c).Holds (kernelTop k c) (k.returnTo :: (handed k v info c).argument ::
        (savedFrame c esp ++ frameTail v info c)) ∧
      (handed k v info c).argument = (handed k v info c).gpr .esp + 8 ∧
      (handed k v info c).cs = kernelCs ∧ (handed k v info c).ss = kernelSs k c := by
  obtain ⟨d, hstub⟩ : ∃ d, d =
      (pushesOf v).foldl (fun d n => d.push (byteWord n)) (deliver k v info c) := ⟨_, rfl⟩
  have htail := frameTail_length v info c
  have hd : d.Holds (kernelTop k c) (frameTail v info c) := by
    rw [hstub]
    refine deliver_holds.pushes ?_
    rw [frameTail, List.length_append, List.length_reverse, List.length_map] at htail
    omega
  have hregs : c.SameRegs d := by
    rw [hstub]
    exact deliver_sameRegs.pushes
  have hlevels : d.cs = kernelCs ∧ d.ss = kernelSs k c := by
    have hdeliver : (deliver k v info c).cs = kernelCs ∧ (deliver k v info c).ss = kernelSs k c :=
      deliver_levels
    rw [hstub, pushes_levels.1, pushes_levels.2]
    exact hdeliver
  obtain ⟨r, hr, hholds, hcs, hss⟩ := enterStub_holds (k := k) hd (by omega)
  have hhanded : handed k v info c = (execAll k enterStub d).push k.returnTo := by
    rw [handed, takeWhile_stub, execAll_append, execAll_pushes, hstub]
  rw [hregs.savedWords] at hholds
  have hreturn := hholds.push (w := k.returnTo) (by
    rw [List.length_cons, List.length_append]
    change 4 * (9 + _ + 1 + 1) ≤ _
    omega)
  have hargument : ((execAll k enterStub d).push k.returnTo).argument = r := hreturn.tail.head
  refine ⟨d.gpr .esp, ?_, ?_, ?_, ?_⟩
  · rw [hhanded, hargument]
    exact hreturn
  · rw [hhanded, hargument, hr, Cpu.push_esp]
    grind
  · rw [hhanded, Cpu.push_cs, hcs]
    exact hlevels.1
  · rw [hhanded, Cpu.push_ss, hss]
    exact hlevels.2

/-! ## On the way back -/

/-- The calling convention, for a handler that leaves the `n` bytes at its
argument as they are: `s` is the state at its first instruction, and `t` that
behind its `ret`. -/
structure Obeys (n : Nat) (s t : Cpu) : Prop where
  returns : t.gpr .esp = s.gpr .esp + 4
  saved : ∀ r, r = .ebx ∨ r = .ebp ∨ r = .esi ∨ r = .edi → t.gpr r = s.gpr r
  seg : t.seg = s.seg
  cs : t.cs = s.cs
  ss : t.ss = s.ss
  frame : ∀ a, Span s.argument n a → t.mem a = s.mem a

/-- The general registers are back, the data segments have the value of `ds`,
and the number and the error code are gone. -/
theorem leaveStub_holds {q : Reg} {t : Cpu} {esp n e : UInt32}
    (hq : q = .eax ∨ q = .ebx)
    (h : Stacked t.mem top (t.gpr .esp + 4) (savedFrame c esp ++ (n :: e :: ws))) :
    (execAll k (leaveStub q) t).Holds top ws ∧
      (∀ r, r ≠ .esp → (execAll k (leaveStub q) t).gpr r = c.gpr r) ∧
      (∀ s, (execAll k (leaveStub q) t).seg s = c.seg .ds) ∧
      (execAll k (leaveStub q) t).cs = t.cs ∧ (execAll k (leaveStub q) t).ss = t.ss := by
  have hds := h.head
  have hedi := h.tail.head
  have hesi := h.tail.tail.head
  have hebp := h.tail.tail.tail.head
  have hregs := h.tail.tail.tail.tail.tail
  have hebx := hregs.head
  have hedx := hregs.tail.head
  have hecx := hregs.tail.tail.head
  have heax := hregs.tail.tail.tail.head
  have hrest := hregs.tail.tail.tail.tail.tail.tail
  have hlow : (t.mem.load32 (t.gpr .esp + 4)).toUInt16 = c.seg .ds := by
    rw [hds, UInt32.toUInt16_or, UInt32.toUInt16_and, UInt16.toUInt16_toUInt32]
    change (c.gpr .eax).toUInt16 &&& 0 ||| c.seg .ds = c.seg .ds
    rw [UInt16.and_zero, UInt16.zero_or]
  refine ⟨?_, fun r hr => ?_, fun s => ?_, ?_, ?_⟩
  · have hplace : ∀ x : UInt32, x + 4 + 4 = x + 8 := fun x => UInt32.add_assoc x 4 4
    rw [hplace] at hrest
    rcases hq with rfl | rfl
    · exact hrest
    · exact hrest
  · rcases hq with rfl | rfl
    all_goals cases r with
      | esp => exact absurd rfl hr
      | eax => exact heax
      | ecx => exact hecx
      | edx => exact hedx
      | ebx => exact hebx
      | ebp => exact hebp
      | esi => exact hesi
      | edi => exact hedi
  · rcases hq with rfl | rfl
    all_goals
      cases s
      all_goals exact hlow
  · rcases hq with rfl | rfl
    · rfl
    · rfl
  · rcases hq with rfl | rfl
    · rfl
    · rfl

/-! ## `iret` -/

/-- Within a level three words are popped. -/
theorem iret_same {eip cs eflags : UInt32} (h : c.Holds top (eip :: cs :: eflags :: ws))
    (hlevel : ¬ rpl c.cs < rpl cs.toUInt16) :
    c.iret.eip = eip ∧ c.iret.cs = cs.toUInt16 ∧ c.iret.eflags = eflags ∧ c.iret.ss = c.ss ∧
      c.SameRegs c.iret ∧ c.iret.Holds top ws := by
  obtain rfl : c.drop.top = cs := h.tail.head
  have hiret : c.iret = { c.drop.drop.drop with
      eip := c.top, cs := c.drop.top.toUInt16, eflags := c.drop.drop.top } := if_neg hlevel
  have hregs : c.SameRegs c.drop.drop.drop := Cpu.SameRegs.refl.set.set.set
  rw [hiret]
  exact ⟨h.head, rfl, h.tail.tail.head, rfl, ⟨hregs.gpr, hregs.seg⟩, h.tail.tail.tail⟩

/-- To an outer level the stack is popped as well, and the data segments that
the level may use stay. -/
theorem iret_outer {eip cs eflags esp ss : UInt32}
    (h : c.Holds top (eip :: cs :: eflags :: esp :: ss :: ws))
    (hlevel : rpl c.cs < rpl cs.toUInt16) (hdpl : ∀ s, rpl cs.toUInt16 ≤ dpl (c.seg s)) :
    c.iret.eip = eip ∧ c.iret.cs = cs.toUInt16 ∧ c.iret.eflags = eflags ∧
      c.iret.ss = ss.toUInt16 ∧ c.SameRegs c.iret ∧ c.iret.gpr .esp = esp := by
  obtain rfl : c.drop.top = cs := h.tail.head
  obtain rfl : c.drop.drop.drop.top = esp := h.tail.tail.tail.head
  obtain rfl : c.drop.drop.drop.drop.top = ss := h.tail.tail.tail.tail.head
  have hiret : c.iret = { c.drop.drop.drop.drop.drop.set .esp c.drop.drop.drop.top with
      eip := c.top
      cs := c.drop.top.toUInt16
      eflags := c.drop.drop.top
      ss := c.drop.drop.drop.drop.top.toUInt16
      seg := fun s => if dpl (c.seg s) < rpl c.drop.top.toUInt16 then 0 else c.seg s } :=
    if_pos hlevel
  have hregs : c.SameRegs (c.drop.drop.drop.drop.drop.set .esp c.drop.drop.drop.top) :=
    Cpu.SameRegs.refl.set.set.set.set.set.set
  rw [hiret]
  refine ⟨h.head, rfl, h.tail.tail.head, rfl, ⟨hregs.gpr, ?_⟩, rfl⟩
  funext s
  exact if_neg (UInt16.not_lt.mpr (hdpl s))

/-! ## The whole interrupt -/

/-- The words from `r` on, as `registers_t`, show the vector and the interrupted
code. -/
structure Shows (v : Fin 48) (c : Cpu) (r : Registers) : Prop where
  intNo : r.intNo = UInt32.ofNat v.val
  eip : r.eip = c.eip
  cs : r.cs = c.cs.toUInt32
  eflags : r.eflags = c.eflags
  eax : r.eax = c.gpr .eax
  ecx : r.ecx = c.gpr .ecx
  edx : r.edx = c.gpr .edx
  ebx : r.ebx = c.gpr .ebx
  ebp : r.ebp = c.gpr .ebp
  esi : r.esi = c.gpr .esi
  edi : r.edi = c.gpr .edi

/-- `t` goes on where `c` was, with its registers, segments, flags and stack. -/
structure Continues (c t : Cpu) : Prop where
  eip : t.eip = c.eip
  eflags : t.eflags = c.eflags
  gpr : ∀ r, t.gpr r = c.gpr r
  seg : ∀ s, t.seg s = c.seg s
  cs : t.cs = c.cs
  ss : t.ss = c.ss

/-- The length of the frame in bytes, from the handler's argument up. -/
def frameSize (k : StubEnv) (v : Fin 48) (info : UInt32) (c : Cpu) : Nat :=
  (kernelTop k c - (handed k v info c).argument).toNat

section

variable {v : Fin 48} {info : UInt32}

theorem handed_frame (k : StubEnv) (v : Fin 48) (info : UInt32) (c : Cpu) :
    ∃ esp, Stacked (handed k v info c).mem (kernelTop k c) (handed k v info c).argument
      (savedFrame c esp ++ frameTail v info c) := by
  obtain ⟨esp, hholds, hargument, -, -⟩ := handed_holds k v info c
  have hplace : (handed k v info c).gpr .esp + 4 + 4 = (handed k v info c).argument := by
    rw [hargument]
    exact UInt32.add_assoc _ 4 4
  exact ⟨esp, hplace ▸ hholds.tail.tail⟩

theorem resumed_iret {n e : UInt32}
    (hobeys : ∀ f, .call f ∈ stub v → Obeys (frameSize k v info c) (handed k v info c)
      (k.handler f (handed k v info c)))
    (htail : frameTail v info c = n :: e :: ws) :
    ∃ s : Cpu, resumed k v info c = s.iret ∧ s.Holds (kernelTop k c) ws ∧
      (∀ r, r ≠ .esp → s.gpr r = c.gpr r) ∧ (∀ g, s.seg g = c.seg .ds) ∧
      s.cs = kernelCs ∧ s.ss = kernelSs k c := by
  obtain ⟨esp, hframe⟩ := handed_frame k v info c
  obtain ⟨-, -, hargument, hcs, hss⟩ := handed_holds k v info c
  have hcall : .call (handlerOf v) ∈ stub v := by
    rw [stub_eq]
    simp
  obtain ⟨t, ht⟩ : ∃ t, t = k.handler (handlerOf v) (handed k v info c) := ⟨_, rfl⟩
  have hreturned := hobeys _ hcall
  rw [← ht] at hreturned
  have hresumed : resumed k v info c = (execAll k (leaveStub (scratchOf v)) t).iret := by
    rw [resumed, stub_eq, execAll_append, execAll_append, execAll_call, execAll_append,
      execAll_iret, ht, handed, takeWhile_stub, execAll_append]
  -- the handler has left the frame as it was
  have hlen : 4 * (savedFrame c esp ++ frameTail v info c).length ≤ 4 * 17 := by
    have htail := frameTail_length v info c
    rw [List.length_append]
    change 4 * (9 + _) ≤ _
    omega
  have hsize : 4 * (savedFrame c esp ++ frameTail v info c).length = frameSize k v info c := by
    rw [frameSize, hframe.place, UInt32.toNat_ofNat', Nat.mod_eq_of_lt (by omega)]
  have hkept : Stacked t.mem (kernelTop k c) (handed k v info c).argument
      (savedFrame c esp ++ frameTail v info c) :=
    hframe.congr (by omega) fun a ha => hreturned.frame a (hsize ▸ ha)
  have hplace : t.gpr .esp + 4 = (handed k v info c).argument := by
    rw [hreturned.returns, hargument]
    exact UInt32.add_assoc _ 4 4
  rw [← hplace, htail] at hkept
  have hscratch : scratchOf v = .eax ∨ scratchOf v = .ebx := by
    rw [scratchOf]
    split
    · exact .inl rfl
    · exact .inr rfl
  obtain ⟨hholds, hgpr, hseg, hcs', hss'⟩ := leaveStub_holds (k := k) hscratch hkept
  exact ⟨_, hresumed, hholds, hgpr, hseg, hcs'.trans (hreturned.cs.trans hcs),
    hss'.trans (hreturned.ss.trans hss)⟩

/-- With one error code in the frame, its fields and the return are right. -/
theorem transparent_of_frameTail {e : UInt32}
    (hobeys : ∀ f, .call f ∈ stub v → Obeys (frameSize k v info c) (handed k v info c)
      (k.handler f (handed k v info c)))
    (hseg : ∀ s, c.seg s = c.seg .ds) (hdpl : rpl c.cs ≤ dpl (c.seg .ds))
    (htail : frameTail v info c = UInt32.ofNat v.val :: e :: context c) :
    Shows v c (registersAt (handed k v info c).mem (handed k v info c).argument) ∧
      Continues c (resumed k v info c) := by
  constructor
  · obtain ⟨esp, hframe⟩ := handed_frame k v info c
    rw [htail] at hframe
    have hword : ∀ i, (hi : i < (savedFrame c esp ++ UInt32.ofNat v.val :: e :: context c).length) →
        (handed k v info c).mem.word (handed k v info c).argument i =
          (savedFrame c esp ++ UInt32.ofNat v.val :: e :: context c)[i] :=
      fun i hi => hframe.word hi
    have hlen : 14 ≤ (savedFrame c esp ++ UInt32.ofNat v.val :: e :: context c).length := by
      have hcontext := context_length (c := c)
      rw [List.length_append]
      change 14 ≤ 9 + (_ + 1 + 1)
      omega
    exact ⟨hword 9 (by omega), hword 11 (by omega), hword 12 (by omega), hword 13 (by omega),
      hword 8 (by omega), hword 7 (by omega), hword 6 (by omega), hword 5 (by omega),
      hword 3 (by omega), hword 2 (by omega), hword 1 (by omega)⟩
  · obtain ⟨s, hresumed, hholds, hgpr, hsegs, hcs, hss⟩ := resumed_iret hobeys htail
    rw [hresumed]
    have hselector : c.cs.toUInt32.toUInt16 = c.cs := UInt16.toUInt16_toUInt32 c.cs
    by_cases hlevel : rpl c.cs = 0
    · rw [context, if_pos hlevel] at hholds
      rw [kernelTop, if_pos hlevel] at hholds
      rw [kernelSs, if_pos hlevel] at hss
      have hsame : ¬ rpl s.cs < rpl c.cs.toUInt32.toUInt16 := by
        rw [hselector, hcs, hlevel]
        decide
      obtain ⟨heip, hcs', hflags, hss', hregs, hrest⟩ := iret_same hholds hsame
      refine ⟨heip, hflags, fun r => ?_, fun g => ?_, hcs'.trans hselector, hss'.trans hss⟩
      · by_cases hr : r = .esp
        · rw [hr]
          exact hrest
        · exact (hregs.gpr r hr).trans (hgpr r hr)
      · exact (congrFun hregs.seg g).trans ((hsegs g).trans (hseg g).symm)
    · rw [context, if_neg hlevel] at hholds
      have houter : rpl s.cs < rpl c.cs.toUInt32.toUInt16 := by
        rw [hselector, hcs]
        exact UInt16.pos_iff_ne_zero.mpr hlevel
      have husable : ∀ g, rpl c.cs.toUInt32.toUInt16 ≤ dpl (s.seg g) := by
        intro g
        rw [hselector, hsegs]
        exact hdpl
      obtain ⟨heip, hcs', hflags, hss', hregs, hesp⟩ := iret_outer hholds houter husable
      refine ⟨heip, hflags, fun r => ?_, fun g => ?_, hcs'.trans hselector,
        hss'.trans (UInt16.toUInt16_toUInt32 c.ss)⟩
      · by_cases hr : r = .esp
        · rw [hr]
          exact hesp
        · exact (hregs.gpr r hr).trans (hgpr r hr)
      · exact (congrFun hregs.seg g).trans ((hsegs g).trans (hseg g).symm)

end

/-- For every context, with whatever error code the CPU pushes, and for every
handler that obeys the calling convention and leaves the frame alone: the
handler sees the vector and the context in its `registers_t`, and the
interrupted code goes on with all its registers, for all vectors but 17. -/
theorem interrupt_transparent_iff (v : Fin 48) (info : UInt32)
    (hseg : ∀ s, c.seg s = c.seg .ds) (hdpl : rpl c.cs ≤ dpl (c.seg .ds))
    (hobeys : ∀ f, .call f ∈ stub v → Obeys (frameSize k v info c) (handed k v info c)
      (k.handler f (handed k v info c))) :
    (Shows v c (registersAt (handed k v info c).mem (handed k v info c).argument) ∧
      Continues c (resumed k v info c)) ↔ v ≠ 17 := by
  constructor
  · rintro ⟨hshows, hcontinues⟩ rfl
    have htail : frameTail 17 info c = 17 :: 0 :: 0 :: context c := rfl
    -- the field `eip` has the error code, and the field `cs` has `eip`
    obtain ⟨esp, hframe⟩ := handed_frame k 17 info c
    rw [htail] at hframe
    have hlen : 15 ≤ (savedFrame c esp ++ 17 :: 0 :: 0 :: context c).length := by
      have hcontext := context_length (c := c)
      rw [List.length_append]
      change 15 ≤ 9 + (_ + 1 + 1 + 1)
      omega
    have heip : c.eip = 0 :=
      hshows.eip.symm.trans (hframe.word (i := 11) (by omega))
    have hcs : c.cs.toUInt32 = 0 :=
      hshows.cs.symm.trans ((hframe.word (i := 12) (by omega)).trans heip)
    have hlevel : rpl c.cs = 0 := by
      have hselector := UInt16.toUInt16_toUInt32 c.cs
      rw [hcs] at hselector
      rw [← hselector]
      rfl
    -- and `iret` leaves a word on the stack
    obtain ⟨s, hresumed, hholds, -, -, hscs, -⟩ := resumed_iret hobeys htail
    rw [context, heip] at hholds
    have hsame : ¬ rpl s.cs < rpl (0 : UInt32).toUInt16 := by
      rw [hscs]
      decide
    obtain ⟨-, -, -, -, -, hrest⟩ := iret_same hholds hsame
    rw [if_pos hlevel, kernelTop, if_pos hlevel] at hrest
    have hesp : s.iret.gpr .esp + 4 = c.gpr .esp := hrest.tail
    have hback : s.iret.gpr .esp = c.gpr .esp := hresumed ▸ hcontinues.gpr .esp
    rw [hback] at hesp
    grind
  · intro hv
    obtain ⟨e, hwords⟩ := pushed_words hv info
    refine transparent_of_frameTail hobeys hseg hdpl (e := e) ?_
    rw [frameTail, ← List.append_assoc, hwords]
    rfl

/-- A handler that returns at once. -/
def returningKernel : StubEnv where
  tss := ⟨0xC0057000, 0x10⟩
  entry := fun v => UInt32.ofNat (0xC0010000 + 16 * v.val)
  returnTo := 0xC0010F00
  handler := fun _ s => s.drop

/-- `userland_entry`, on its stack. -/
def userCode : Cpu where
  gpr := fun r => if r = .esp then 0x30000 else 0
  seg := fun _ => 0x23
  cs := 0x1B
  ss := 0x23
  eip := 0xC0020000
  eflags := 0x202
  mem := fun _ => 0

theorem obeys_drop {n : Nat} {s : Cpu} : Obeys n s s.drop := by
  refine ⟨rfl, fun r hr => Function.update_of_ne ?_ _ _, rfl, rfl, rfl, fun _ _ => rfl⟩
  rcases hr with rfl | rfl | rfl | rfl
  all_goals decide

/-- A page fault. -/
theorem interrupt_transparent_iff_page_fault :
    Shows 14 userCode (registersAt (handed returningKernel 14 4 userCode).mem
        (handed returningKernel 14 4 userCode).argument) ∧
      Continues userCode (resumed returningKernel 14 4 userCode) :=
  (interrupt_transparent_iff 14 4 (fun _ => rfl) (by decide) fun _ _ => obeys_drop).mpr (by decide)

/-- An alignment check: `eip` is the error code, in the frame and after the
return. -/
theorem alignment_check_lost :
    (∀ f, Obeys (frameSize returningKernel 17 0 userCode) (handed returningKernel 17 0 userCode)
        (returningKernel.handler f (handed returningKernel 17 0 userCode))) ∧
      ¬ Shows 17 userCode (registersAt (handed returningKernel 17 0 userCode).mem
        (handed returningKernel 17 0 userCode).argument) ∧
      ¬ Continues userCode (resumed returningKernel 17 0 userCode) := by
  have hframe : (registersAt (handed returningKernel 17 0 userCode).mem
      (handed returningKernel 17 0 userCode).argument).eip = 0 := by decide
  have hreturn : (resumed returningKernel 17 0 userCode).eip = 0 := by decide
  refine ⟨fun _ => obeys_drop, fun hshows => ?_, fun hcontinues => ?_⟩
  · have heip := hshows.eip
    rw [hframe] at heip
    exact absurd heip (by decide)
  · have heip := hcontinues.eip
    rw [hreturn] at heip
    exact absurd heip (by decide)

end Bedrock
