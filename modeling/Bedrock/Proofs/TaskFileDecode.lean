import Bedrock.Proofs.AtaRuns
import Mathlib.Data.List.TakeWhile

/-!
# What the drive is told

The drives of a channel are put behind the log: each write to one of the eight
command block ports goes into the task file, everything else passes them by.
Then the port writes of `ide_ata_access` amount to one command, and decoding
that command by the rules of the task file gives back the request.

A run may end anywhere, since the hardware may stop answering. It gives no
command exactly when the drive never stops being busy; from then on the
command stands, and after a write that got through, a flush.
-/

namespace Bedrock

open Lib

/-! ## The drives behind the log -/

/-- What a port access does to the drives whose command block is at `base`. -/
def portStep (base : UInt16) (d : DriveState) : PortEvent → DriveState
  | .outb port data =>
      if (port - base).toNat < 8 then d.write (port - base).toNat data else d
  | _ => d

def observe (base : UInt16) (d : DriveState) (es : List PortEvent) : DriveState :=
  es.foldl (portStep base) d

/-- The control register is not one of the command block registers. -/
def ControlApart (c : IdeChannelRegisters) : Prop :=
  8 ≤ (altStatusPort c - c.base).toNat

instance {c : IdeChannelRegisters} : Decidable (ControlApart c) :=
  inferInstanceAs (Decidable (_ ≤ _))

/-- The channels of `ide_initialize(0x1F0, 0x3F6, 0x170, 0x376, 0x000)`. -/
theorem controlApart_ideChannels (channel : Fin 2) :
    ControlApart (ideChannels 0x1F0 0x3F6 0x170 0x376 0 channel) := by
  revert channel
  decide

/-- From `s` to `t` the drives at `base` were driven from each state `d` to
`f d`. -/
def Observed (base : UInt16) (s t : Machine Ata) (f : DriveState → DriveState) : Prop :=
  ∃ es, t.dev.log = s.dev.log ++ es ∧ ∀ d, observe base d es = f d

/-- The run of `x` from `s` gave the drives at `base` the commands `cs`,
whatever their registers held before. -/
def Gives {α : Type} (base : UInt16) (x : Drv α) (s : Machine Ata)
    (cs : List Command) : Prop :=
  ∃ es, (Exec.final (x.run s)).dev.log = s.dev.log ++ es ∧
    ∀ d, (observe base d es).commands = d.commands ++ cs

section

variable {base : UInt16} {s t u : Machine Ata} {f g : DriveState → DriveState}

theorem Observed.trans (h : Observed base s t f) (h' : Observed base t u g) :
    Observed base s u (g ∘ f) := by
  obtain ⟨es, hes, hf⟩ := h
  obtain ⟨es', hes', hg⟩ := h'
  refine ⟨es ++ es', by rw [hes', hes, List.append_assoc], fun d => ?_⟩
  rw [observe, List.foldl_append, Function.comp_apply, ← hf, ← hg]
  rfl

theorem observe_silent {es : List PortEvent} (h : ∀ e ∈ es, e.Silent) (d : DriveState) :
    observe base d es = d := by
  induction es with
  | nil => rfl
  | cons e es ih =>
      have he : portStep base d e = d := by
        cases e with
        | outb port data => cases h _ List.mem_cons_self
        | inb port data => rfl
        | insw port words => rfl
        | outsw port data => rfl
      rw [observe, List.foldl_cons, he]
      exact ih fun e' he' => h e' (List.mem_cons_of_mem e he')

theorem Logs.observed (h : Logs PortEvent.Silent s t) : Observed base s t id := by
  obtain ⟨es, hes, hp⟩ := h.log
  exact ⟨es, hes, observe_silent hp⟩

theorem observed_loggedAll (s : Machine Ata) (es : List PortEvent) :
    Observed base s (s.loggedAll es) fun d => observe base d es :=
  ⟨es, rfl, fun _ => rfl⟩

theorem Observed.gives {α : Type} {x : Drv α} {cs : List Command}
    (h : Observed base s (Exec.final (x.run s)) f)
    (hf : ∀ d, (f d).commands = d.commands ++ cs) : Gives base x s cs := by
  obtain ⟨es, hes, ho⟩ := h
  exact ⟨es, hes, fun d => by rw [ho, hf]⟩

/-- The commands a run gives are determined by it. -/
theorem Gives.unique {α : Type} {x : Drv α} {cs cs' : List Command}
    (h : Gives base x s cs) (h' : Gives base x s cs') : cs = cs' := by
  obtain ⟨es, hes, hcs⟩ := h
  obtain ⟨es', hes', hcs'⟩ := h'
  have heq : es = es' := List.append_cancel_left (hes.symm.trans hes')
  subst heq
  let d : DriveState := ⟨⟨⟨0, 0⟩, ⟨0, 0⟩, ⟨0, 0⟩, ⟨0, 0⟩, 0⟩, []⟩
  exact List.append_cancel_left ((hcs d).symm.trans (hcs' d))

end

/-! ## Register writes -/

section

variable {c : IdeChannelRegisters} (d : DriveState) (data : UInt8)

theorem portOf_block {reg : UInt8} (h : reg < 0x08) :
    portOf c reg = some (c.base + reg.toUInt16) := by
  rw [portOf, if_pos h]
  exact congrArg some (UInt16.sub_zero _)

/-- The high-order registers share the ports of the low-order ones. -/
theorem portOf_high {reg : UInt8} (h : 0x07 < reg) (h' : reg < 0x0C) :
    portOf c reg = some (c.base + (reg.toUInt16 - 0x06)) := by
  have hlt : ¬ reg < 0x08 := by
    rw [UInt8.lt_iff_toNat_lt] at h ⊢
    exact Nat.not_lt.mpr h
  rw [portOf, if_neg hlt, if_pos h', UInt16.sub_eq_add_neg, UInt16.sub_eq_add_neg,
    UInt16.add_assoc]

theorem portStep_block {k : UInt16} (hk : k.toNat < 8) :
    portStep c.base d (.outb (c.base + k) data) = d.write k.toNat data := by
  have hsub : c.base + k - c.base = k := by
    rw [UInt16.add_comm, UInt16.add_sub_cancel]
  rw [portStep, hsub, if_pos hk]

theorem portStep_control (hc : ControlApart c) :
    portStep c.base d (.outb (altStatusPort c) data) = d := by
  rw [portStep, if_neg (Nat.not_lt.mpr hc)]

theorem observe_control (hc : ControlApart c) :
    observe c.base d (writeEvents c 0x0C data) = d := by
  rw [writeEvents, if_neg (by decide), outEvents, altStatusPort_eq]
  exact portStep_control d data hc

theorem observe_block {reg : UInt8} (h : reg < 0x08) :
    observe c.base d (writeEvents c reg data) = d.write reg.toNat data := by
  have hnot : ¬ (0x07 < reg ∧ reg < 0x0C) := fun h' => by
    have hlt := UInt8.lt_iff_toNat_lt.mp h
    have hgt := UInt8.lt_iff_toNat_lt.mp h'.1
    exact absurd hlt (Nat.not_lt.mpr hgt)
  rw [writeEvents, if_neg hnot, outEvents, portOf_block h]
  refine (portStep_block d data ?_).trans (by rw [UInt8.toNat_toUInt16])
  rw [UInt8.toNat_toUInt16]
  exact UInt8.lt_iff_toNat_lt.mp h

/-- A write to a high-order register pushes into the low-order one; the toggles
of the control register around it are not seen by the task file. -/
theorem observe_high (hc : ControlApart c) {reg : UInt8} (h : 0x07 < reg)
    (h' : reg < 0x0C) :
    observe c.base d (writeEvents c reg data) = d.write (reg.toNat - 6) data := by
  have hlt := UInt8.lt_iff_toNat_lt.mp h
  have hlt' := UInt8.lt_iff_toNat_lt.mp h'
  have hreg : (reg.toUInt16 - 0x06).toNat = reg.toNat - 6 := by
    rw [UInt16.toNat_sub_of_le, UInt8.toNat_toUInt16]
    · rfl
    · rw [UInt16.le_iff_toNat_le, UInt8.toNat_toUInt16]
      exact Nat.le_of_lt (Nat.lt_of_succ_lt hlt)
  have hk : (reg.toUInt16 - 0x06).toNat < 8 := by
    rw [hreg]
    have hC : (0x0C : UInt8).toNat = 12 := rfl
    omega
  rw [writeEvents, if_pos ⟨h, h'⟩, outEvents, outEvents, outEvents, altStatusPort_eq,
    portOf_high h h']
  simp only [observe, List.cons_append, List.nil_append, List.foldl_cons,
    List.foldl_nil, portStep_control _ _ hc]
  rw [portStep_block d data hk, hreg]

end

/-! ## Steps (IV) and (V) -/

/-- The value of `HDDEVSEL`. -/
def deviceByte (slavebit : Fin 2) (io : LbaIo) : UInt8 :=
  let slave := UInt8.ofNat slavebit.val <<< 4
  if io.lbaMode = .chs then 0xA0 ||| slave ||| io.head else 0xE0 ||| slave ||| io.head

/-- The writes to the high-order registers. -/
def highEvents (c : IdeChannelRegisters) (io : LbaIo) : List PortEvent :=
  if io.lbaMode = .lba48 then
    writeEvents c 0x08 0 ++ (writeEvents c 0x09 io.io3 ++
      (writeEvents c 0x0A io.io4 ++ writeEvents c 0x0B io.io5))
  else []

/-- The writes that every form of command makes, the command last. -/
def lowEvents (c : IdeChannelRegisters) (io : LbaIo) (numsects : UInt8)
    (direction : Direction) : List PortEvent :=
  writeEvents c 0x02 numsects ++ (writeEvents c 0x03 io.io0 ++
    (writeEvents c 0x04 io.io1 ++ (writeEvents c 0x05 io.io2 ++
      writeEvents c 0x07 (commandOf direction io.lbaMode))))

/-- The whole log of `sendCommand`. -/
def sendEvents (c : IdeChannelRegisters) (slavebit : Fin 2) (io : LbaIo)
    (numsects : UInt8) (direction : Direction) : List PortEvent :=
  writeEvents c 0x06 (deviceByte slavebit io) ++
    (highEvents c io ++ lowEvents c io numsects direction)

theorem sendCommand_sends {channel : Fin 2} {c : IdeChannelRegisters} (slavebit : Fin 2)
    (io : LbaIo) (numsects : UInt8) (direction : Direction) :
    Sends channel c (sendCommand channel slavebit io numsects direction)
      (sendEvents c slavebit io numsects direction) := by
  rw [sendEvents]
  have hlow : Sends channel c (do
      ideWrite channel 0x02 numsects
      ideWrite channel 0x03 io.io0
      ideWrite channel 0x04 io.io1
      ideWrite channel 0x05 io.io2
      ideWrite channel 0x07 (commandOf direction io.lbaMode))
      (lowEvents c io numsects direction) :=
    (ideWrite_sends _ _).bind ((ideWrite_sends _ _).bind ((ideWrite_sends _ _).bind
      ((ideWrite_sends _ _).bind (ideWrite_sends _ _))))
  cases hm : io.lbaMode with
  | chs =>
      rw [highEvents, hm, if_neg (by decide), List.nil_append]
      simp only [sendCommand, deviceByte, hm, reduceCtorEq, if_true, if_false]
      rw [hm] at hlow
      exact (ideWrite_sends _ _).bind hlow
  | lba28 =>
      rw [highEvents, hm, if_neg (by decide), List.nil_append]
      simp only [sendCommand, deviceByte, hm, reduceCtorEq, if_false]
      rw [hm] at hlow
      exact (ideWrite_sends _ _).bind hlow
  | lba48 =>
      rw [highEvents, hm, if_pos rfl, List.append_assoc, List.append_assoc,
        List.append_assoc]
      simp only [sendCommand, deviceByte, hm, reduceCtorEq, if_true, if_false]
      rw [hm] at hlow
      exact (ideWrite_sends _ _).bind ((ideWrite_sends _ _).bind
        ((ideWrite_sends _ _).bind ((ideWrite_sends _ _).bind
          ((ideWrite_sends _ _).bind hlow))))

/-- The task file when the command is written. Only the 48-bit form sets the
second places itself. -/
def loadedFile (t : TaskFile) (slavebit : Fin 2) (io : LbaIo) (numsects : UInt8) :
    TaskFile :=
  let t := { t with device := deviceByte slavebit io }
  let t :=
    if io.lbaMode = .lba48 then
      { t with
        sectorCount := t.sectorCount.push 0
        lbaLow := t.lbaLow.push io.io3
        lbaMid := t.lbaMid.push io.io4
        lbaHigh := t.lbaHigh.push io.io5 }
    else t
  { t with
    sectorCount := t.sectorCount.push numsects
    lbaLow := t.lbaLow.push io.io0
    lbaMid := t.lbaMid.push io.io1
    lbaHigh := t.lbaHigh.push io.io2 }

/-- The drives after `sendCommand`. -/
def commanded (slavebit : Fin 2) (io : LbaIo) (numsects : UInt8) (direction : Direction)
    (d : DriveState) : DriveState :=
  let t := loadedFile d.file slavebit io numsects
  { file := t
    commands := d.commands ++ [t.decode (commandOf direction io.lbaMode)] }

theorem observe_append (base : UInt16) (d : DriveState) (es es' : List PortEvent) :
    observe base d (es ++ es') = observe base (observe base d es) es' :=
  List.foldl_append

theorem observe_highEvents {c : IdeChannelRegisters} (hc : ControlApart c) (io : LbaIo)
    (hm : io.lbaMode = .lba48) (d : DriveState) :
    observe c.base d (highEvents c io) =
      (((d.write 2 0).write 3 io.io3).write 4 io.io4).write 5 io.io5 := by
  rw [highEvents, if_pos hm]
  simp only [observe_append]
  rw [observe_high _ _ hc (by decide) (by decide),
    observe_high _ _ hc (by decide) (by decide),
    observe_high _ _ hc (by decide) (by decide),
    observe_high _ _ hc (by decide) (by decide)]
  rfl

theorem observe_lowEvents {c : IdeChannelRegisters} (io : LbaIo) (numsects : UInt8)
    (direction : Direction) (d : DriveState) :
    observe c.base d (lowEvents c io numsects direction) =
      ((((d.write 2 numsects).write 3 io.io0).write 4 io.io1).write 5 io.io2).write 7
        (commandOf direction io.lbaMode) := by
  rw [lowEvents]
  simp only [observe_append]
  rw [observe_block _ _ (by decide), observe_block _ _ (by decide),
    observe_block _ _ (by decide), observe_block _ _ (by decide),
    observe_block _ _ (by decide)]
  rfl

theorem observe_sendEvents {c : IdeChannelRegisters} (hc : ControlApart c)
    (slavebit : Fin 2) (io : LbaIo) (numsects : UInt8) (direction : Direction)
    (d : DriveState) :
    observe c.base d (sendEvents c slavebit io numsects direction) =
      commanded slavebit io numsects direction d := by
  rw [sendEvents, observe_append, observe_append, observe_block _ _ (by decide),
    observe_lowEvents, commanded, loadedFile]
  by_cases hm : io.lbaMode = .lba48
  · rw [observe_highEvents hc io hm]
    simp only [if_pos hm]
    rfl
  · rw [highEvents, if_neg hm]
    simp only [if_neg hm]
    rfl

theorem sendEvents_notBlock (c : IdeChannelRegisters) (slavebit : Fin 2) (io : LbaIo)
    (numsects : UInt8) (direction : Direction) :
    ∀ e ∈ sendEvents c slavebit io numsects direction, ¬ e.IsBlock := by
  have hwrite := fun reg data => writeEvents_notBlock c reg data
  have hhigh : ∀ e ∈ highEvents c io, ¬ e.IsBlock := by
    rw [highEvents]
    split
    · simp only [List.forall_mem_append]
      exact ⟨hwrite _ _, hwrite _ _, hwrite _ _, hwrite _ _⟩
    · exact List.forall_mem_nil _
  simp only [sendEvents, lowEvents, List.forall_mem_append]
  exact ⟨hwrite _ _, hhigh, hwrite _ _, hwrite _ _, hwrite _ _, hwrite _ _, hwrite _ _⟩

/-! ## The address -/

/-- Byte `k` of a word, as the driver cuts it out. -/
theorem toNat_byte (lba mask : UInt32) (k : UInt32) (hk : k.toNat < 32)
    (hmask : mask.toNat = (2 ^ 8 - 1) * 2 ^ k.toNat) :
    ((lba &&& mask) >>> k).toUInt8.toNat = lba.toNat / 2 ^ k.toNat % 2 ^ 8 := by
  rw [UInt32.toNat_toUInt8, UInt32.toNat_shiftRight, UInt32.toNat_and,
    Nat.mod_eq_of_lt hk, Nat.shiftRight_and_distrib, hmask, ← Nat.shiftLeft_eq,
    Nat.shiftLeft_shiftRight, Nat.and_two_pow_sub_one_eq_mod, Nat.shiftRight_eq_div_pow,
    Nat.mod_mod]

/-- The top nibble of a 28-bit address. -/
theorem toNat_head (lba : UInt32) :
    ((lba &&& 0xF000000) >>> 24).toUInt8.toNat = lba.toNat / 2 ^ 24 % 2 ^ 4 := by
  have hmask : (0xF000000 : UInt32).toNat = (2 ^ 4 - 1) * 2 ^ 24 := rfl
  have hk : (24 : UInt32).toNat = 24 := rfl
  rw [UInt32.toNat_toUInt8, UInt32.toNat_shiftRight, UInt32.toNat_and, hk,
    Nat.mod_eq_of_lt (by decide : 24 < 32), Nat.shiftRight_and_distrib, hmask,
    ← Nat.shiftLeft_eq, Nat.shiftLeft_shiftRight, Nat.and_two_pow_sub_one_eq_mod,
    Nat.shiftRight_eq_div_pow, Nat.mod_eq_of_lt]
  omega

/-- `HDDEVSEL` as a number: bits 7 and 5, the addressing, the unit, the low
nibble. -/
theorem toNat_deviceByte (slavebit : Fin 2) (io : LbaIo) (hhead : io.head.toNat < 16) :
    (deviceByte slavebit io).toNat =
      0xA0 + (if io.lbaMode = .chs then 0 else 2 ^ 6) + 2 ^ 4 * slavebit.val +
        io.head.toNat := by
  have hall : ∀ (top : Bool) (u : Fin 2) (h : Fin 16),
      ((bif top then 0xE0 else 0xA0) ||| UInt8.ofNat u.val <<< (4 : UInt8) |||
          UInt8.ofNat h.val).toNat =
        0xA0 + (bif top then 2 ^ 6 else 0) + 2 ^ 4 * u.val + h.val := by
    decide
  have hof : UInt8.ofNat io.head.toNat = io.head := UInt8.ofNat_toNat
  rw [deviceByte]
  split
  · have h := hall false slavebit ⟨io.head.toNat, hhead⟩
    rw [hof] at h
    exact h
  · have h := hall true slavebit ⟨io.head.toNat, hhead⟩
    rw [hof] at h
    exact h

/-- The count the drive reads. -/
def announced (lbaMode : LbaMode) (numsects : UInt8) : Nat :=
  if numsects = 0 then (if lbaMode = .lba48 then 65536 else 256) else numsects.toNat

/-- The sectors the form of address can name. -/
def addressSpace : LbaMode → Nat
  | .chs => TaskFile.chsSpace
  | .lba28 => 2 ^ 28
  | .lba48 => 2 ^ 48

/-- The sector that the address bytes name. -/
def LbaIo.start (io : LbaIo) : Nat :=
  match io.lbaMode with
  | .chs =>
      ((io.io1.toNat + 2 ^ 8 * io.io2.toNat) * 16 + io.head.toNat) * 63 + io.io0.toNat - 1
  | .lba28 =>
      io.io0.toNat + 2 ^ 8 * io.io1.toNat + 2 ^ 16 * io.io2.toNat + 2 ^ 24 * io.head.toNat
  | .lba48 =>
      io.io0.toNat + 2 ^ 8 * io.io1.toNat + 2 ^ 16 * io.io2.toNat +
        2 ^ 24 * io.io3.toNat + 2 ^ 32 * io.io4.toNat + 2 ^ 40 * io.io5.toNat

theorem selectLba_head (capabilities : UInt16) (lba : UInt32) :
    (selectLba capabilities lba).head.toNat < 16 := by
  rw [selectLba]
  split
  · exact Nat.zero_lt_succ 15
  · split
    · rw [toNat_head]
      omega
    · have hhead : ((lba + 1 - (lba % 63 + 1).toUInt8.toUInt32) % (16 * 63) / 63).toNat < 16 := by
        rw [UInt32.toNat_div, UInt32.toNat_mod]
        have h63 : (63 : UInt32).toNat = 63 := rfl
        have h1008 : (16 * 63 : UInt32).toNat = 1008 := rfl
        rw [h63, h1008]
        omega
      simp only [UInt32.toNat_toUInt8]
      omega

section

variable (t : TaskFile) (slavebit : Fin 2) {io : LbaIo} (numsects : UInt8)
  (direction : Direction)

theorem loadedFile_device :
    (loadedFile t slavebit io numsects).device = deviceByte slavebit io := by
  rw [loadedFile]
  by_cases hm : io.lbaMode = .lba48
  · simp only [if_pos hm]
  · simp only [if_neg hm]

theorem loadedFile_unit (hhead : io.head.toNat < 16) :
    (loadedFile t slavebit io numsects).unit = slavebit.val := by
  rw [TaskFile.unit, loadedFile_device, toNat_deviceByte slavebit io hhead]
  split <;> omega

theorem decode_lba48 (hm : io.lbaMode = .lba48) (hhead : io.head.toNat < 16) :
    (loadedFile t slavebit io numsects).decode (commandOf direction io.lbaMode) =
      .transfer direction slavebit.val io.start (announced io.lbaMode numsects)
        (addressSpace io.lbaMode) := by
  have hdecode : ∀ t : TaskFile, t.decode (commandOf direction .lba48) =
      t.transfer48 direction := by
    intro t
    cases direction <;> rfl
  have hcount : (loadedFile t slavebit io numsects).count48 = announced .lba48 numsects := by
    rw [TaskFile.count48, announced, loadedFile]
    simp only [if_pos hm, Fifo.push, and_true, if_true]
    rfl
  have hstart : (loadedFile t slavebit io numsects).start48 = io.start := by
    rw [TaskFile.start48, loadedFile, LbaIo.start]
    simp only [hm, Fifo.push, if_true]
  rw [hm, hdecode, TaskFile.transfer48, loadedFile_unit t slavebit numsects hhead,
    hcount, hstart]
  rfl

theorem decode_28 (hm : io.lbaMode ≠ .lba48) (hhead : io.head.toNat < 16) :
    (loadedFile t slavebit io numsects).decode (commandOf direction io.lbaMode) =
      .transfer direction slavebit.val io.start (announced io.lbaMode numsects)
        (addressSpace io.lbaMode) := by
  have hdecode : ∀ t : TaskFile, t.decode (commandOf direction io.lbaMode) =
      t.transfer28 direction := by
    intro t
    cases hio : io.lbaMode with
    | chs => cases direction <;> rfl
    | lba28 => cases direction <;> rfl
    | lba48 => exact absurd hio hm
  have hcount : (loadedFile t slavebit io numsects).count28 =
      announced io.lbaMode numsects := by
    rw [TaskFile.count28, announced, loadedFile, if_neg hm]
    simp only [if_neg hm, Fifo.push]
    rfl
  have hdevice := toNat_deviceByte slavebit io hhead
  have hlow : (deviceByte slavebit io).toNat % 16 = io.head.toNat := by
    rw [hdevice]
    split <;> omega
  have hlba : (loadedFile t slavebit io numsects).lbaMode = decide (io.lbaMode ≠ .chs) := by
    rw [TaskFile.lbaMode, loadedFile_device, hdevice]
    by_cases hchs : io.lbaMode = .chs
    · rw [if_pos hchs]
      simp only [hchs, ne_eq, not_true, decide_false, decide_eq_false_iff_not]
      omega
    · rw [if_neg hchs]
      simp only [hchs, ne_eq, not_false_eq_true, decide_true, decide_eq_true_eq]
      omega
  rw [hdecode, TaskFile.transfer28, loadedFile_unit t slavebit numsects hhead, hcount,
    TaskFile.start28, loadedFile_device, hlow, hlba, LbaIo.start]
  cases hio : io.lbaMode with
  | chs =>
      rw [loadedFile]
      simp only [if_neg hm, Fifo.push]
      rfl
  | lba28 =>
      rw [loadedFile]
      simp only [if_neg hm, Fifo.push]
      rfl
  | lba48 => exact absurd hio hm

/-- Whatever the registers held before, the command names the right unit, the
sector the address bytes name and the programmed count. -/
theorem decode_loadedFile (hhead : io.head.toNat < 16) :
    (loadedFile t slavebit io numsects).decode (commandOf direction io.lbaMode) =
      .transfer direction slavebit.val io.start (announced io.lbaMode numsects)
        (addressSpace io.lbaMode) := by
  by_cases hm : io.lbaMode = .lba48
  · exact decode_lba48 t slavebit numsects direction hm hhead
  · exact decode_28 t slavebit numsects direction hm hhead

end

section

variable {capabilities : UInt16} {lba : UInt32}

theorem selectLba_lba48 (h : lba ≥ 0x10000000) :
    (selectLba capabilities lba).lbaMode = .lba48 ∧
      (selectLba capabilities lba).start = lba.toNat := by
  rw [selectLba, if_pos h]
  refine ⟨rfl, ?_⟩
  rw [LbaIo.start]
  simp only [toNat_byte lba 0x000000FF 0 (by decide) rfl,
    toNat_byte lba 0x0000FF00 8 (by decide) rfl,
    toNat_byte lba 0x00FF0000 16 (by decide) rfl,
    toNat_byte lba 0xFF000000 24 (by decide) rfl]
  have h0 : (0 : UInt32).toNat = 0 := rfl
  have h8 : (8 : UInt32).toNat = 8 := rfl
  have h16 : (16 : UInt32).toNat = 16 := rfl
  have h24 : (24 : UInt32).toNat = 24 := rfl
  have hz : (0 : UInt8).toNat = 0 := rfl
  have hlt := lba.toNat_lt
  rw [h0, h8, h16, h24, hz]
  omega

theorem selectLba_lba28 (h : ¬ lba ≥ 0x10000000) (hcap : capabilities &&& 0x200 ≠ 0) :
    (selectLba capabilities lba).lbaMode = .lba28 ∧
      (selectLba capabilities lba).start = lba.toNat := by
  rw [selectLba, if_neg h, if_pos hcap]
  refine ⟨rfl, ?_⟩
  rw [LbaIo.start]
  simp only [toNat_byte lba 0x00000FF 0 (by decide) rfl,
    toNat_byte lba 0x000FF00 8 (by decide) rfl,
    toNat_byte lba 0x0FF0000 16 (by decide) rfl, toNat_head]
  have h0 : (0 : UInt32).toNat = 0 := rfl
  have h8 : (8 : UInt32).toNat = 8 := rfl
  have h16 : (16 : UInt32).toNat = 16 := rfl
  have hlt : lba.toNat < 2 ^ 28 := UInt32.lt_iff_toNat_lt.mp (UInt32.not_le.mp h)
  rw [h0, h8, h16]
  omega

theorem selectLba_chs (h : ¬ lba ≥ 0x10000000) (hcap : ¬ capabilities &&& 0x200 ≠ 0) :
    (selectLba capabilities lba).lbaMode = .chs ∧
      (lba.toNat < TaskFile.chsSpace →
        (selectLba capabilities lba).start = lba.toNat) := by
  rw [selectLba, if_neg h, if_neg hcap]
  refine ⟨rfl, fun hspace => ?_⟩
  dsimp only [LbaIo.start]
  have hlt : lba.toNat < 65536 * 16 * 63 := hspace
  have hsect : (lba % 63 + 1).toUInt8.toNat = lba.toNat % 63 + 1 := by
    rw [UInt32.toNat_toUInt8, UInt32.toNat_add, UInt32.toNat_mod]
    have h63 : (63 : UInt32).toNat = 63 := rfl
    have h1 : (1 : UInt32).toNat = 1 := rfl
    rw [h63, h1]
    omega
  -- the sectors before the track, a multiple of 63
  have htrack : (lba + 1 - (lba % 63 + 1).toUInt8.toUInt32).toNat =
      63 * (lba.toNat / 63) := by
    have hadd : (lba + 1).toNat = lba.toNat + 1 := by
      rw [UInt32.toNat_add]
      have h1 : (1 : UInt32).toNat = 1 := rfl
      omega
    rw [UInt32.toNat_sub_of_le, hadd, UInt8.toNat_toUInt32, hsect]
    · omega
    · rw [UInt32.le_iff_toNat_le, hadd, UInt8.toNat_toUInt32, hsect]
      omega
  generalize lba + 1 - (lba % 63 + 1).toUInt8.toUInt32 = track at htrack ⊢
  have h1008 : (16 * 63 : UInt32).toNat = 1008 := rfl
  have h63 : (63 : UInt32).toNat = 63 := rfl
  have hcyl : (track / (16 * 63)).toUInt16.toNat = lba.toNat / 63 / 16 := by
    rw [UInt32.toNat_toUInt16, UInt32.toNat_div, htrack, h1008]
    omega
  have hhead : (track % (16 * 63) / 63).toUInt8.toNat = lba.toNat / 63 % 16 := by
    rw [UInt32.toNat_toUInt8, UInt32.toNat_div, UInt32.toNat_mod, htrack, h1008, h63]
    omega
  generalize (track / (16 * 63)).toUInt16 = cyl at hcyl ⊢
  have hio1 : (cyl &&& 0xFF).toUInt8.toNat = cyl.toNat % 256 := by
    rw [UInt16.toNat_toUInt8, UInt16.toNat_and]
    exact (congrArg (· % 256) (Nat.and_two_pow_sub_one_eq_mod _ 8)).trans (Nat.mod_mod _ _)
  have hio2 : ((cyl >>> 8) &&& 0xFF).toUInt8.toNat = cyl.toNat / 256 := by
    have hshift : (cyl >>> 8).toNat = cyl.toNat / 256 := by
      rw [UInt16.toNat_shiftRight]
      exact Nat.shiftRight_eq_div_pow _ 8
    have hlt16 := cyl.toNat_lt
    rw [UInt16.toNat_toUInt8, UInt16.toNat_and, hshift]
    refine (congrArg (· % 256) (Nat.and_two_pow_sub_one_eq_mod _ 8)).trans ?_
    omega
  rw [hsect, hio1, hio2, hhead, hcyl]
  omega

end

/-! ## The whole of `ide_ata_access` -/

/-- Interrupts off, as `ide_ata_access` starts. -/
def Machine.irqsOff (s : Machine Ata) (channel : Fin 2) : Machine Ata :=
  { s with
    dev.ideIrqInvoked := 0
    dev.channels := Function.update s.dev.channels channel
      { s.dev.channels channel with nIEN := 2 } }

/-- What follows the command. -/
def ataTransfer (direction : Direction) (channel : Fin 2) (bus : UInt16)
    (lbaMode : LbaMode) (n : Nat) (edi : UInt32) : Drv UInt8 :=
  match direction with
  | .read => pioRead channel bus n edi
  | .write => do
      pioWrite channel bus n edi
      ideWrite channel 0x07 (flushOf lbaMode)
      let _ ← idePolling channel false
      return 0

section

variable (s : Machine Ata) (direction : Direction) (drive : UInt8) (lba : UInt32)
  (numsects : UInt8) (selector : UInt16) (edi : UInt32)

/-- After the first two statements interrupts are off and the control register
says so. -/
theorem ideAtaAccess_start {channel : Fin 2} {c : IdeChannelRegisters}
    (hchannel : (s.dev.ideDevices drive).channel = channel)
    (hc : s.dev.channels channel = c) :
    let device := s.dev.ideDevices drive
    (ideAtaAccess direction drive lba numsects selector edi).run s =
        (do
          waitWhile channel 0x80
          sendCommand channel device.drive (selectLba device.capabilities lba) numsects
            direction
          ataTransfer direction channel c.base (selectLba device.capabilities lba).lbaMode
            numsects.toNat edi : Drv UInt8).run
          ((s.irqsOff channel).loggedAll (writeEvents { c with nIEN := 2 } 0x0C 2)) ∧
      (s.irqsOff channel).dev.channels channel = { c with nIEN := 2 } := by
  subst hchannel hc
  have hoff : (s.irqsOff (s.dev.ideDevices drive).channel).dev.channels
      (s.dev.ideDevices drive).channel =
      { s.dev.channels (s.dev.ideDevices drive).channel with nIEN := 2 } :=
    Function.update_self ..
  refine ⟨?_, hoff⟩
  rw [ideAtaAccess, Exec.bind_ok (EStateM.run_get s)]
  have hset : (setNIEN (s.dev.ideDevices drive).channel 2).run s =
      .ok () (s.irqsOff (s.dev.ideDevices drive).channel) := rfl
  refine (Exec.bind_ok hset).trans ?_
  refine (Exec.bind_ok (ideWrite_sends 0x0C 2 _ hoff)).trans ?_
  cases direction <;> rfl

/-- The run up to the command: it ends where the drive never stops being busy,
and otherwise the command has been sent, after `waited`, and the transfer
begins. -/
theorem ideAtaAccess_cases {channel : Fin 2} {c : IdeChannelRegisters}
    (hchannel : (s.dev.ideDevices drive).channel = channel)
    (hc : s.dev.channels channel = c) :
    let device := s.dev.ideDevices drive
    let io := selectLba device.capabilities lba
    let off := writeEvents { c with nIEN := 2 } 0x0C 2
    let sent := sendEvents { c with nIEN := 2 } device.drive io numsects direction
    ∃ waited, (∀ e ∈ waited, PortEvent.IsRead e) ∧
      ((s.dev.inbox.dropWhile (masked 0x80) = [] ∧
        ∃ t, (ideAtaAccess direction drive lba numsects selector edi).run s =
            .error .noAnswer t ∧ t.dev.log = s.dev.log ++ (off ++ waited)) ∨
      ∃ b rest t, s.dev.inbox.dropWhile (masked 0x80) = b :: rest ∧
        (ideAtaAccess direction drive lba numsects selector edi).run s =
          (ataTransfer direction channel c.base io.lbaMode numsects.toNat edi).run t ∧
        t.dev.inbox = rest ∧ t.dev.channels channel = { c with nIEN := 2 } ∧
        t.dev.package0 = s.dev.package0 ∧ t.mem = s.mem ∧ t.dev.words = s.dev.words ∧
        t.dev.log = s.dev.log ++ (off ++ (waited ++ sent))) := by
  intro device io off sent
  obtain ⟨hrun, hc₁⟩ := ideAtaAccess_start s direction drive lba numsects selector edi hchannel hc
  generalize hs₁ : (s.irqsOff channel).loggedAll off = s₁ at hrun
  have hinbox : s₁.dev.inbox = s.dev.inbox := by rw [← hs₁]; rfl
  have hlog : s₁.dev.log = s.dev.log ++ off := by rw [← hs₁]; rfl
  replace hc₁ : s₁.dev.channels channel = { c with nIEN := 2 } := by rw [← hs₁]; exact hc₁
  rw [← hinbox]
  cases hbox : s₁.dev.inbox.dropWhile (masked 0x80) with
  | nil =>
      refine ⟨s₁.dev.inbox.map (.inb (statusPort (s₁.dev.channels channel))),
        onlyReads_map _ _, .inl ⟨rfl, _,
        hrun.trans (Exec.bind_error (waitWhile_stuck hbox)), ?_⟩⟩
      rw [heard_log, hlog, List.append_assoc]
  | cons b rest =>
      have hready : (waitWhile channel 0x80).run s₁ = _ := waitWhile_ok hbox
      generalize hbs : (s₁.dev.inbox.takeWhile (masked 0x80) ++ [b]).map
        (PortEvent.inb (statusPort (s₁.dev.channels channel))) = waited at hready
      have hsend := sendCommand_sends device.drive io numsects direction
        (s₁.heard waited rest) hc₁
      refine ⟨waited, hbs ▸ onlyReads_map _ _, .inr ⟨b, rest,
        (s₁.heard waited rest).loggedAll sent, rfl, ?_, rfl, hc₁, by rw [← hs₁]; rfl,
        by rw [← hs₁]; rfl, by rw [← hs₁]; rfl, ?_⟩⟩
      · exact (hrun.trans (Exec.bind_ok hready)).trans (Exec.bind_ok hsend)
      · rw [loggedAll_log, heard_log, hlog, List.append_assoc, List.append_assoc]

/-- Nothing up to the command moves data. -/
theorem sent_notBlock {c : IdeChannelRegisters} {waited : List PortEvent}
    (hwaited : ∀ e ∈ waited, PortEvent.IsRead e) (slavebit : Fin 2) (io : LbaIo)
    (numsects : UInt8) (direction : Direction) :
    ∀ e ∈ writeEvents c 0x0C 2 ++ (waited ++
      sendEvents c slavebit io numsects direction), ¬ e.IsBlock := by
  simp only [List.forall_mem_append]
  exact ⟨writeEvents_notBlock _ _ _, fun e he => (hwaited e he).notBlock,
    sendEvents_notBlock _ _ _ _ _⟩

/-- After the command nothing but a flush is sent. -/
theorem ataTransfer_observed (channel : Fin 2) (t : Machine Ata) (bus : UInt16)
    (lbaMode : LbaMode) (n : Nat) :
    ∃ f, Observed (t.dev.channels channel).base t
        (Exec.final ((ataTransfer direction channel bus lbaMode n edi).run t)) f ∧
      (f = id ∨ direction = .write ∧ f = fun d => d.write 7 (flushOf lbaMode)) := by
  cases direction with
  | read =>
      exact ⟨id, (writesNone_pioRead channel bus n edi t).observed, .inl rfl⟩
  | write =>
      rw [ataTransfer]
      cases hpio : (pioWrite channel bus n edi).run t with
      | error e u =>
          rw [Exec.bind_error hpio]
          exact ⟨id, ((writesNone_pioWrite channel bus n edi).of_error hpio).observed, .inl rfl⟩
      | ok a u =>
          have hu := (writesNone_pioWrite channel bus n edi).of_ok hpio
          have hpoll : WritesNone (do
              let _ ← idePolling channel false
              return (0 : UInt8)) :=
            (onlyReads_idePolling channel false).writesNone.bind fun _ => .pure _
          rw [Exec.bind_ok hpio, Exec.bind_ok (ideWrite_sends _ _ u rfl)]
          refine ⟨_, hu.observed.trans ((observed_loggedAll u _).trans (hpoll _).observed),
            .inr ⟨rfl, funext fun d => ?_⟩⟩
          rw [hu.channels]
          exact observe_block d _ (by decide)

theorem write_flush (d : DriveState) (lbaMode : LbaMode) :
    (d.write 7 (flushOf lbaMode)).commands = d.commands ++ [.flush d.file.unit] := by
  cases lbaMode <;> rfl

/-- What the drives of the channel are given by one run. -/
theorem ideAtaAccess_gives (hctrl : ControlApart
      (s.dev.channels (s.dev.ideDevices drive).channel)) :
    let device := s.dev.ideDevices drive
    let io := selectLba device.capabilities lba
    let base := (s.dev.channels device.channel).base
    let transfer := Command.transfer direction device.drive.val io.start
      (announced io.lbaMode numsects) (addressSpace io.lbaMode)
    let x := ideAtaAccess direction drive lba numsects selector edi
    (s.dev.inbox.dropWhile (masked 0x80) = [] ∧ Gives base x s []) ∨
    (s.dev.inbox.dropWhile (masked 0x80) ≠ [] ∧
      (Gives base x s [transfer] ∨
        direction = .write ∧ Gives base x s [transfer, .flush device.drive.val])) := by
  intro device io base transfer x
  have hcommand : ∀ d : DriveState, (commanded device.drive io numsects direction d).commands =
      d.commands ++ [transfer] := fun d =>
    congrArg (d.commands ++ [·]) (decode_loadedFile d.file device.drive numsects direction
      (selectLba_head device.capabilities lba))
  have hoff : ∀ d, observe base d (writeEvents
      { s.dev.channels device.channel with nIEN := 2 } 0x0C 2) = d := fun d =>
    observe_control (c := { s.dev.channels device.channel with nIEN := 2 }) d 2 hctrl
  obtain ⟨waited, hwaited, ⟨hbusy, t, hrun, hlog⟩ |
      ⟨b, rest, t, hready, hrun, -, hc, -, -, -, hlog⟩⟩ :=
    ideAtaAccess_cases s direction drive lba numsects selector edi rfl rfl
  · refine .inl ⟨hbusy, _, (congrArg (fun r => (Exec.final r).dev.log) hrun).trans hlog,
      fun d => ?_⟩
    rw [observe_append, hoff, observe_silent fun e he => (hwaited e he).silent,
      List.append_nil]
  · refine .inr ⟨hready ▸ List.cons_ne_nil b rest, ?_⟩
    obtain ⟨f, hobs, hf⟩ := ataTransfer_observed direction edi device.channel t base
      io.lbaMode numsects.toNat
    rw [hc, ← hrun] at hobs
    have hsent : Observed base s t (commanded device.drive io numsects direction) := by
      refine ⟨_, hlog, fun d => ?_⟩
      rw [observe_append, observe_append, hoff,
        observe_silent fun e he => (hwaited e he).silent]
      exact observe_sendEvents (c := { s.dev.channels device.channel with nIEN := 2 })
        hctrl _ _ _ _ d
    have hall := hsent.trans hobs
    rcases hf with rfl | ⟨hwrite, rfl⟩
    · exact .inl (hall.gives hcommand)
    · refine .inr ⟨hwrite, hall.gives fun d => ?_⟩
      have hunit : (commanded device.drive io numsects direction d).file.unit =
          device.drive.val :=
        loadedFile_unit d.file device.drive numsects (selectLba_head device.capabilities lba)
      rw [Function.comp_apply, write_flush, hcommand, hunit, List.append_assoc]
      rfl

end

/-! ## Main result -/

/-- The sectors the driver can address on a device: without LBA those with a
16-bit cylinder. -/
def Addressable (device : IdeDevice) (lba : UInt32) : Prop :=
  device.capabilities &&& 0x200 = 0 → lba.toNat < TaskFile.chsSpace

theorem selectLba_start {capabilities : UInt16} {lba : UInt32}
    (h : (selectLba capabilities lba).lbaMode = .chs → lba.toNat < TaskFile.chsSpace) :
    (selectLba capabilities lba).start = lba.toNat := by
  by_cases hext : lba ≥ 0x10000000
  · exact (selectLba_lba48 hext).2
  · by_cases hcap : capabilities &&& 0x200 ≠ 0
    · exact (selectLba_lba28 hext hcap).2
    · have hchs := selectLba_chs hext hcap
      exact hchs.2 (h hchs.1)

theorem Addressable.start {device : IdeDevice} {lba : UInt32} (h : Addressable device lba) :
    (selectLba device.capabilities lba).start = lba.toNat := by
  refine selectLba_start fun hm => h ?_
  by_contra hcap
  by_cases hext : lba ≥ 0x10000000
  · rw [(selectLba_lba48 hext).1] at hm
    cases hm
  · rw [(selectLba_lba28 hext hcap).1] at hm
    cases hm

/-- A run of `ide_ata_access` gives the selected drive the transfer it was asked
for, unless the drive is busy forever, and different sectors are never sent as
the same address. -/
theorem ideAtaAccess_command (s : Machine Ata) (bar0 bar1 bar2 bar3 bar4 : UInt32)
    (nIEN : Fin 2 → UInt8)
    (hchannels : ∀ channel, s.dev.channels channel =
      { ideChannels bar0 bar1 bar2 bar3 bar4 channel with nIEN := nIEN channel })
    (hctrl : ∀ channel, ControlApart (ideChannels bar0 bar1 bar2 bar3 bar4 channel))
    (direction : Direction) (drive numsects : UInt8) (hn : numsects ≠ 0)
    (selector : UInt16) (edi : UInt32) :
    let device := s.dev.ideDevices drive
    let base := (s.dev.channels device.channel).base
    let x := fun lba => ideAtaAccess direction drive lba numsects selector edi
    (∀ lba, Addressable device lba →
      ((∀ b ∈ s.dev.inbox, masked 0x80 b) → Gives base (x lba) s []) ∧
      ((∃ b ∈ s.dev.inbox, ¬ masked 0x80 b) → ∃ space rest,
        Gives base (x lba) s
          (.transfer direction device.drive.val lba.toNat numsects.toNat space :: rest) ∧
        (rest = [] ∨ direction = .write ∧ rest = [.flush device.drive.val]))) ∧
    ∀ lba lba', Addressable device lba → Addressable device lba' →
      (∃ b ∈ s.dev.inbox, ¬ masked 0x80 b) →
      ∀ cs, Gives base (x lba) s cs → Gives base (x lba') s cs → lba = lba' := by
  intro device base x
  have hapart : ControlApart (s.dev.channels device.channel) := by
    rw [hchannels]
    exact hctrl device.channel
  have hcount : ∀ m, announced m numsects = numsects.toNat := fun m => if_neg hn
  have hready : ∀ lba, Addressable device lba →
      (∃ b ∈ s.dev.inbox, ¬ masked 0x80 b) → ∃ space rest,
        Gives base (x lba) s
          (.transfer direction device.drive.val lba.toNat numsects.toNat space :: rest) ∧
        (rest = [] ∨ direction = .write ∧ rest = [.flush device.drive.val]) := by
    intro lba haddr ⟨b, hb, hclear⟩
    rcases ideAtaAccess_gives s direction drive lba numsects selector edi hapart with
      ⟨hbusy, -⟩ | ⟨-, hgives⟩
    · exact absurd (List.dropWhile_eq_nil_iff.mp hbusy b hb) hclear
    · rw [haddr.start, hcount] at hgives
      rcases hgives with hgives | ⟨hwrite, hgives⟩
      · exact ⟨_, [], hgives, .inl rfl⟩
      · exact ⟨_, _, hgives, .inr ⟨hwrite, rfl⟩⟩
  refine ⟨fun lba haddr => ⟨fun hbusy => ?_, hready lba haddr⟩, ?_⟩
  · rcases ideAtaAccess_gives s direction drive lba numsects selector edi hapart with
      ⟨-, hgives⟩ | ⟨hne, -⟩
    · exact hgives
    · exact absurd (List.dropWhile_eq_nil_iff.mpr hbusy) hne
  · intro lba lba' haddr haddr' hclear cs hcs hcs'
    obtain ⟨space, rest, hgives, -⟩ := hready lba haddr hclear
    obtain ⟨space', rest', hgives', -⟩ := hready lba' haddr' hclear
    have hsame := (hgives.unique hcs).trans (hcs'.unique hgives')
    injection hsame with hsame
    injection hsame with _ _ hstart
    exact UInt32.toNat_inj.mp hstart

/-- Sector 1000 of a slave with the LBA capability. -/
theorem ideAtaAccess_command_slave :
    let slave : IdeDevice := ⟨1, 0, 1, .ata, 0x200, 4096, []⟩
    ∃ space rest,
      Gives 0x1F0 (ideAtaAccess .read 0 1000 1 0 0x5000) (ataBoot slave [0xD0, 0x50])
        (.transfer .read 1 1000 1 space :: rest) ∧
      (rest = [] ∨ Direction.read = .write ∧ rest = [.flush 1]) :=
  ((ideAtaAccess_command (ataBoot ⟨1, 0, 1, .ata, 0x200, 4096, []⟩ [0xD0, 0x50])
    0x1F0 0x3F6 0x170 0x376 0 (fun _ => 0) (fun | 0 => rfl | 1 => rfl)
    controlApart_ideChannels .read 0 1 (by decide) 0 0x5000).1 1000
    (fun h => absurd h (by decide))).2 ⟨0x50, by decide, by decide⟩

end Bedrock
