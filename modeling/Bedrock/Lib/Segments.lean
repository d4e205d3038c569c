import Bedrock.Lib.Mem

/-!
# Descriptor tables

The tables that a 32-bit x86 processor in protected mode finds its segments,
its task state and the entries of its handlers in, and the way it takes from
them what an interrupt or an access to a port needs.

There is no local table: a selector that refers to one finds nothing. The limit
of a stack segment is not looked at. An interrupt through a task gate or a
16-bit gate, and an interrupt of virtual-8086 code, are not part of the model.
-/

namespace Bedrock.Lib

/-! ## Bit fields -/

/-- Fields one above the other, the first one at bit 0, each with its width. -/
def pack : List (Nat × Nat) → Nat
  | [] => 0
  | (w, v) :: fs => v % 2 ^ w + 2 ^ w * pack fs

/-- The bits that the fields take. -/
def packWidth : List (Nat × Nat) → Nat
  | [] => 0
  | (w, _) :: fs => w + packWidth fs

/-- The `w` bits of `n` from bit `o` on. -/
def bits (n o w : Nat) : Nat := n / 2 ^ o % 2 ^ w

theorem pack_lt (fs : List (Nat × Nat)) : pack fs < 2 ^ packWidth fs := by
  induction fs with
  | nil => exact Nat.zero_lt_one
  | cons f fs ih =>
      obtain ⟨w, v⟩ := f
      have hv : v % 2 ^ w < 2 ^ w := Nat.mod_lt _ (Nat.two_pow_pos w)
      have hrest : 2 ^ w * (pack fs + 1) ≤ 2 ^ w * 2 ^ packWidth fs := Nat.mul_le_mul_left _ ih
      rw [pack, packWidth, Nat.pow_add]
      rw [Nat.mul_add, Nat.mul_one] at hrest
      omega

theorem pack_append (fs gs : List (Nat × Nat)) :
    pack (fs ++ gs) = pack fs + 2 ^ packWidth fs * pack gs := by
  induction fs with
  | nil => simp [pack, packWidth]
  | cons f fs ih =>
      obtain ⟨w, v⟩ := f
      rw [List.cons_append, pack, pack, packWidth, ih, Nat.pow_add, Nat.mul_add, ← Nat.add_assoc,
        Nat.mul_assoc]

/-- Fields that lie together are read together. -/
theorem bits_pack (pre mid post : List (Nat × Nat)) :
    bits (pack (pre ++ (mid ++ post))) (packWidth pre) (packWidth mid) = pack mid := by
  rw [bits, pack_append, pack_append, Nat.add_mul_div_left _ _ (Nat.two_pow_pos _),
    Nat.div_eq_of_lt (pack_lt pre), Nat.zero_add, Nat.add_mul_mod_self_left,
    Nat.mod_eq_of_lt (pack_lt mid)]

/-- A part of a field. -/
theorem bits_bits {n o w o' w' : Nat} (h : o' + w' ≤ w) :
    bits (bits n o w) o' w' = bits n (o + o') w' := by
  have hsplit : 2 ^ w = 2 ^ o' * 2 ^ (w - o') := by
    rw [← Nat.pow_add]
    congr 1
    omega
  have hdvd : 2 ^ w' ∣ 2 ^ (w - o') := Nat.pow_dvd_pow 2 (by omega)
  rw [bits, bits, bits, hsplit, Nat.mod_mul_right_div_self, Nat.mod_mod_of_dvd _ hdvd,
    Nat.div_div_eq_div_mul, Nat.pow_add]

theorem pack_single {w v : Nat} (h : v < 2 ^ w) : pack [(w, v)] = v := by
  rw [pack, pack, Nat.mod_eq_of_lt h, Nat.mul_zero, Nat.add_zero]

/-- One field of a list, by its place. -/
theorem pack_field {fs : List (Nat × Nat)} {i o w v : Nat} (h : fs[i]? = some (w, v))
    (ho : packWidth (fs.take i) = o) (hv : v < 2 ^ w) : bits (pack fs) o w = v := by
  obtain ⟨hi, hf⟩ := List.getElem?_eq_some_iff.mp h
  have hsplit : fs = fs.take i ++ ([(w, v)] ++ fs.drop (i + 1)) := by
    rw [List.singleton_append, ← hf, ← List.drop_eq_getElem_cons hi, List.take_append_drop]
  have hbits := bits_pack (fs.take i) [(w, v)] (fs.drop (i + 1))
  rw [← hsplit, pack_single hv, ho] at hbits
  rw [packWidth, packWidth, Nat.add_zero] at hbits
  exact hbits

theorem bits_add (n o w w' : Nat) : bits n o (w + w') = bits n o w + 2 ^ w * bits n (o + w) w' := by
  rw [bits, bits, bits, Nat.pow_add, Nat.mod_mul, Nat.div_div_eq_div_mul, ← Nat.pow_add]

/-! ## Descriptors -/

/-- A segment, of code or data where `application` is set, of the system
otherwise. `limit` is its last offset. -/
structure Descriptor where
  base : UInt32
  limit : Nat
  application : Bool
  type : Nat
  dpl : Nat
  present : Bool
  big : Bool
deriving DecidableEq, Repr

namespace Descriptor

def ofBits (n : Nat) : Descriptor where
  base := UInt32.ofNat (bits n 16 24 + 2 ^ 24 * bits n 56 8)
  limit :=
    let limit := bits n 0 16 + 2 ^ 16 * bits n 48 4
    if bits n 55 1 = 1 then 4096 * limit + 4095 else limit
  application := bits n 44 1 = 1
  type := bits n 40 4
  dpl := bits n 45 2
  present := bits n 47 1 = 1
  big := bits n 54 1 = 1

def isCode (d : Descriptor) : Bool := d.application && decide (bits d.type 3 1 = 1)

def conforming (d : Descriptor) : Bool := decide (bits d.type 2 1 = 1)

def isWritable (d : Descriptor) : Bool :=
  d.application && decide (bits d.type 3 1 = 0) && decide (bits d.type 1 1 = 1)

end Descriptor

structure Gate where
  offset : UInt32
  selector : UInt16
  application : Bool
  type : Nat
  dpl : Nat
  present : Bool
deriving DecidableEq, Repr

def Gate.ofBits (n : Nat) : Gate where
  offset := UInt32.ofNat (bits n 0 16 + 2 ^ 16 * bits n 48 16)
  selector := UInt16.ofNat (bits n 16 16)
  application := bits n 44 1 = 1
  type := bits n 40 4
  dpl := bits n 45 2
  present := bits n 47 1 = 1

/-- What `lgdt` and `lidt` load. -/
structure TableRegister where
  limit : UInt16
  base : UInt32
deriving DecidableEq, Repr

/-- Whether a table has an entry `i`. -/
def TableRegister.Reaches (t : TableRegister) (i : Nat) : Prop := 8 * i + 7 ≤ t.limit.toNat

instance (t : TableRegister) (i : Nat) : Decidable (t.Reaches i) :=
  inferInstanceAs (Decidable (_ ≤ _))

/-- The number of the entry that a selector names. -/
def selectorIndex (selector : UInt16) : Nat := bits selector.toNat 3 13

/-- The level a selector asks for. -/
def selectorLevel (selector : UInt16) : Nat := bits selector.toNat 0 2

/-- The part of a selector that goes into an error code. -/
def selectorError (selector : UInt16) (ext : Nat) : Nat := 4 * bits selector.toNat 2 14 + ext

/-- The registers that name the tables. The task register keeps its segment
beside the selector. -/
structure Tables where
  gdt : TableRegister
  idt : TableRegister
  taskSelector : UInt16
  task : Descriptor
deriving DecidableEq, Repr

/-- The segment that a selector names, if it names one. -/
def TableRegister.segment (gdt : TableRegister) (m : Mem) (selector : UInt16) :
    Option Descriptor :=
  if selectorIndex selector = 0 ∨ bits selector.toNat 2 1 = 1 ∨
      ¬ gdt.Reaches (selectorIndex selector) then none
  else some (.ofBits (m.quad gdt.base (selectorIndex selector)))

theorem TableRegister.segment_eq {gdt : TableRegister} {m : Mem} {selector : UInt16} {i : Nat}
    (hi : selectorIndex selector = i) (hpos : 0 < i) (hgdt : bits selector.toNat 2 1 = 0)
    (hreach : gdt.Reaches i) : gdt.segment m selector = some (.ofBits (m.quad gdt.base i)) := by
  subst hi
  rw [TableRegister.segment, if_neg]
  rintro (h | h | h)
  · omega
  · omega
  · exact h hreach

/-- `ltr`: the segment must be a 32-bit task that is not in use, and is marked. -/
def loadTask (gdt : TableRegister) (selector : UInt16) (m : Mem) : Option (Descriptor × Mem) :=
  match gdt.segment m selector with
  | none => none
  | some task =>
      if task.application = false ∧ task.type = 9 ∧ task.present then
        some (task, m.setQuad gdt.base (selectorIndex selector)
          (m.quad gdt.base (selectorIndex selector) ||| 2 ^ 41))
      else none

/-! ## Interrupts -/

/-- Where an interrupt goes on, and on which stack if that is another one. -/
structure Entry where
  cs : UInt16
  eip : UInt32
  stack : Option (UInt16 × UInt32)
  masks : Bool
deriving DecidableEq, Repr

inductive InterruptOutcome where
  | entry (e : Entry)
  | fault (vector errorCode : Nat)
  | unmodelled
deriving DecidableEq, Repr

/-- A selector at another level. -/
def withLevel (selector : UInt16) (level : Nat) : UInt16 :=
  UInt16.ofNat (8 * selectorIndex selector + 4 * bits selector.toNat 2 1 + level)

/-- The stack for level `level`, from the task. -/
def Tables.innerStack (t : Tables) (m : Mem) (level ext : Nat) :
    Except (Nat × Nat) (UInt16 × UInt32) :=
  if t.task.limit < 8 * level + 9 then .error (10, selectorError t.taskSelector ext)
  else
    let place := t.task.base + UInt32.ofNat (8 * level + 4)
    let esp := m.load32 place
    let ss := m.load16 (place + 4)
    match t.gdt.segment m ss with
    | none => .error (10, selectorError ss ext)
    | some stack =>
        if selectorLevel ss ≠ level ∨ stack.dpl ≠ level ∨ stack.isWritable = false then
          .error (10, selectorError ss ext)
        else if stack.present = false then .error (12, selectorError ss ext)
        else .ok (ss, esp)

/-- The way through a gate that may be used: the segment it leads to, and the
stack if the level changes. -/
def Tables.through (t : Tables) (m : Mem) (cpl ext : Nat) (gate : Gate) : InterruptOutcome :=
  match t.gdt.segment m gate.selector with
  | none => .fault 13 (selectorError gate.selector ext)
  | some code =>
      if code.isCode = false ∨ cpl < code.dpl then .fault 13 (selectorError gate.selector ext)
      else if code.present = false then .fault 11 (selectorError gate.selector ext)
      else
        let enter (level : Nat) (stack : Option (UInt16 × UInt32)) : InterruptOutcome :=
          if code.limit < gate.offset.toNat then .fault 13 ext
          else
            .entry ⟨withLevel gate.selector level, gate.offset, stack, decide (gate.type = 14)⟩
        if code.conforming ∨ code.dpl = cpl then enter cpl none
        else
          match t.innerStack m code.dpl ext with
          | .error (vector, errorCode) => .fault vector errorCode
          | .ok stack => enter code.dpl (some stack)

/-- An interrupt with vector `v` at level `cpl`, by an instruction if `software`
is set. -/
def Tables.interrupt (t : Tables) (m : Mem) (cpl v : Nat) (software : Bool) : InterruptOutcome :=
  let ext := if software then 0 else 1
  let error := 8 * v + 2 + ext
  if ¬ t.idt.Reaches v then .fault 13 error
  else
    let gate := Gate.ofBits (m.quad t.idt.base v)
    if gate.application ∨ gate.type ∉ [5, 6, 7, 14, 15] then .fault 13 error
    else if software ∧ gate.dpl < cpl then .fault 13 error
    else if gate.present = false then .fault 11 error
    else if gate.type ∈ [5, 6, 7] then .unmodelled
    else t.through m cpl ext gate

/-! ## Ports -/

/-- Whether code of level `cpl` may access the `size` ports from `port` on: by
its I/O privilege level, or by the map in the task, which is read as two bytes. -/
def Tables.MayUse (t : Tables) (m : Mem) (cpl iopl port size : Nat) : Prop :=
  cpl ≤ iopl ∨
    let offset := (m.load16 (t.task.base + 102)).toNat + port / 8
    103 ≤ t.task.limit ∧ offset + 1 ≤ t.task.limit ∧
      bits (m.load16 (t.task.base + UInt32.ofNat offset)).toNat (port % 8) size = 0

instance (t : Tables) (m : Mem) (cpl iopl port size : Nat) :
    Decidable (t.MayUse m cpl iopl port size) :=
  inferInstanceAs (Decidable (_ ∨ _ ∧ _ ∧ _))

end Bedrock.Lib
