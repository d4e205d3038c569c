import Bedrock.Proofs.DriveRuns
import Bedrock.Proofs.DeviceViews

/-!
# The storage layer over a drive

The storage layer and the file system are given by their effect over a `Disk`.
Here the disk is the medium of a drive, and what answers is the driver: a
`Cable` says which drive of which channel, and the disk that is seen after a log
is what the channel has on its medium when it has replayed the log.

It is seen only as long as the channel can replay the log without a failed
command, no request was refused, and the tape has not ended. All three are
asked at the end of a run only (`Cable.Good`): they were true before if they are
true then.
-/

namespace Bedrock

open Lib Lib.Exec

/-- `ide_read_sectors` and `ide_write_sectors`. -/
def Ata.ide (junk : UInt8) : Ide Ata where
  readSectors := ideReadSectors junk
  writeSectors := ideWriteSectors

theorem Disk.writeSectors_run (drive numsects : UInt8) (lba : UInt32) (es : UInt16)
    (edi : UInt32) {s : Machine Disk} (h : s.dev.answer lba = 0) :
    (Disk.ide.writeSectors drive numsects lba es edi).run s =
      .ok 0 { s with
        dev := s.dev.patch (lba.toNat * s.dev.sectorSize)
          (numsects.toNat * s.dev.sectorSize) fun i => s.mem (edi + UInt32.ofNat i) } := by
  refine (Exec.bind_ok (EStateM.run_get s)).trans ?_
  simp only [h, if_true]
  rfl

/-- One drive of a channel, with the channel and the stream of words as they were
when the log began. -/
structure Cable where
  registers : IdeChannelRegisters
  devices : UInt8 → IdeDevice
  drive : UInt8
  powerOn : Channel
  words : Nat → UInt16

namespace Cable

variable (C : Cable)

def device : IdeDevice := C.devices C.drive

/-- The channel after the log. -/
def replay (a : Ata) : Option Channel :=
  C.powerOn.play (accesses C.registers.base (altStatusPort C.registers) a.log C.words)

/-- The disk after the log. -/
def disk (a : Ata) : Disk where
  sectorSize := 512
  answer lba := if lba.toNat < C.device.size.toNat then 0 else 2
  content := match C.replay a with
    | some ch => ch.content C.device.drive.val
    | none => fun _ => 0

/-- A present ATA drive with LBA, as large as the device table says. -/
structure Usable : Prop where
  present : C.drive ≤ 3 ∧ C.device.reserved ≠ 0
  ata : C.device.type = .ata
  lba : C.device.capabilities &&& 0x200 ≠ 0
  control : ControlApart C.registers
  capacity : C.powerOn.capacity C.device.drive.val = 512 * C.device.size.toNat

/-- The driver is on this cable. -/
structure Attached (a : Ata) : Prop where
  devices : a.ideDevices = C.devices
  base : (a.channels C.device.channel).base = C.registers.base
  ctrl : (a.channels C.device.channel).ctrl = C.registers.ctrl
  words : a.words = skip (received a.log) C.words

/-- Nothing has gone wrong so far. -/
structure Good (a : Ata) : Prop where
  answers : a.inbox ≠ []
  accepted : a.package0 = 0
  replayed : ∃ ch, C.replay a = some ch ∧ ch.failures = C.powerOn.failures

theorem good_iff {a : Ata} : C.Good a ↔
    a.inbox ≠ [] ∧ a.package0 = 0 ∧
      (C.replay a).map Channel.failures = some C.powerOn.failures := by
  rw [Option.map_eq_some_iff]
  exact ⟨fun ⟨hbox, hpackage, hreplay⟩ => ⟨hbox, hpackage, hreplay⟩,
    fun ⟨hbox, hpackage, hreplay⟩ => ⟨hbox, hpackage, hreplay⟩⟩

instance {a : Ata} : Decidable (C.Good a) := decidable_of_iff' _ C.good_iff

/-- The driver, seen as the disk. -/
def view : DeviceView Ata Disk where
  map := C.disk
  inv := C.Attached
  good := C.Good
  stops _ := True

theorem view_admits : Admits C.view := ⟨fun _ _ _ => trivial⟩

variable {C} {s t : Machine Ata}

theorem Attached.alt {a : Ata} (h : C.Attached a) :
    altStatusPort (a.channels C.device.channel) = altStatusPort C.registers := by
  rw [altStatusPort, altStatusPort, h.ctrl]

theorem Attached.device {a : Ata} (h : C.Attached a) : a.ideDevices C.drive = C.device := by
  rw [h.devices]
  rfl

theorem Attached.control {a : Ata} (h : C.Attached a) (hC : C.Usable) :
    ControlApart (a.channels C.device.channel) := by
  rw [ControlApart, h.alt, h.base]
  exact hC.control

theorem Attached.steps (h : C.Attached s.dev) (hst : Steps s t) : C.Attached t.dev := by
  obtain ⟨es, hlog, hwords⟩ := hst.log
  obtain ⟨hbase, hctrl⟩ := hst.ports C.device.channel
  refine ⟨hst.ideDevices.trans h.devices, hbase.trans h.base, hctrl.trans h.ctrl, ?_⟩
  rw [hwords, h.words, skip_skip, hlog, received_append]

/-- A good end has a good beginning, and the channel goes from the one to the
other without a failure. -/
theorem Good.back (hgood : C.Good t.dev) (h : C.Attached s.dev) (hst : Steps s t) :
    C.Good s.dev ∧ ∃ es ch ch', t.dev.log = s.dev.log ++ es ∧
      C.replay s.dev = some ch ∧ C.replay t.dev = some ch' ∧
      (ch'.failures = ch.failures ∧ ch.capacity = C.powerOn.capacity) ∧
      ch.play (accesses C.registers.base (altStatusPort C.registers) es s.dev.words) =
        some ch' := by
  obtain ⟨es, hlog, -⟩ := hst.log
  obtain ⟨taken, htape⟩ := hst.tape
  obtain ⟨ch', hend, hfail⟩ := hgood.replayed
  have hall := hend
  rw [replay, hlog, accesses_append, ← h.words] at hall
  obtain ⟨ch, hstart, hplay⟩ := Channel.play_append_inv hall
  have hfirst := Channel.play_grows hstart
  have h₁ := hfirst.failures
  have h₂ := (Channel.play_grows hplay).failures
  refine ⟨⟨fun hnil => hgood.answers ?_, hst.package0 ▸ hgood.accepted, ch, hstart, ?_⟩,
    es, ch, ch', hlog, hstart, hend, ⟨?_, hfirst.capacity⟩, hplay⟩
  · rw [hnil] at htape
    exact (List.append_eq_nil_iff.mp htape.symm).2
  · omega
  · omega

theorem disk_content {a : Ata} {ch : Channel} (h : C.replay a = some ch) :
    (C.disk a).content = ch.content C.device.drive.val := by
  rw [disk, h]

/-! ## Requests -/

section

variable {junk numsects : UInt8} {lba : UInt32} {es : UInt16} {edi : UInt32}

theorem accepted (hC : C.Usable) (h : C.Attached s.dev)
    (hin : ¬ lba + 1 > C.device.size) : Accepted s.dev C.drive 1 lba := by
  refine ⟨?_, ?_, ?_⟩
  · rw [DriveAbsent, h.device, not_or]
    exact ⟨UInt8.not_lt.mpr hC.present.1, hC.present.2⟩
  · rw [h.device]
    exact hC.ata
  · rw [OutOfRange, h.device]
    exact fun hout => hin hout.1

/-- A request that is not accepted leaves a code behind. -/
theorem refused (direction : Direction) (hC : C.Usable) (h : C.Attached s.dev)
    (hout : lba + 1 > C.device.size) :
    (ideSectors direction junk C.drive 1 lba es edi).run s =
      .ok 2 { s with dev.package0 := 2 } := by
  have hpresent : ¬ DriveAbsent s.dev C.drive := by
    rw [DriveAbsent, h.device, not_or]
    exact ⟨UInt8.not_lt.mpr hC.present.1, hC.present.2⟩
  have hrange : OutOfRange s.dev C.drive lba 1 := by
    rw [OutOfRange, h.device]
    exact ⟨hout, hC.ata⟩
  cases direction with
  | read =>
      rw [ideSectors, ideReadSectors, Exec.bind_ok (EStateM.run_get s)]
      simp only [if_neg hpresent, if_pos hrange]
      rfl
  | write =>
      rw [ideSectors, ideWriteSectors, Exec.bind_ok (EStateM.run_get s)]
      simp only [if_neg hpresent, if_pos hrange]
      rfl

/-- A refused request is not seen. -/
theorem at_refused (junk : UInt8) (direction : Direction) (hC : C.Usable) (h : C.Attached s.dev)
    (hout : lba + 1 > C.device.size) {y : Exec Halt (Machine Disk) Int32} :
    View.At C.view.machine (ideSectors direction junk C.drive 1 lba es edi) y s :=
  at_ok (refused direction hC h hout) ⟨h.devices, h.base, h.ctrl, h.words⟩ fun hgood =>
    absurd hgood.accepted (show (2 : Int32) ≠ 0 by decide)

/-- Nor is a run of the driver that waits forever. -/
theorem at_starved {x : Drv Int32} {y : Exec Halt (Machine Disk) Int32} {e : Halt}
    (h : C.Attached s.dev) (hst : Steps s t) (hempty : t.dev.inbox = [])
    (hrun : x.run s = .error e t) : View.At C.view.machine x y s :=
  at_error hrun (h.steps hst) trivial fun hgood => absurd hempty hgood.answers

/-- The effect of an access, between two states of the channel. -/
theorem Good.related {R : Channel → Channel → Prop} (hgood : C.Good t.dev)
    (h : C.Attached s.dev) (hst : Steps s t)
    (hR : Replayed (s.dev.channels C.device.channel).base
      (altStatusPort (s.dev.channels C.device.channel)) s t R) :
    C.Good s.dev ∧ ∃ ch ch', C.replay s.dev = some ch ∧ C.replay t.dev = some ch' ∧
      (ch'.failures = ch.failures ∧ ch.capacity = C.powerOn.capacity) ∧ R ch ch' := by
  obtain ⟨hs, es, ch, ch', hlog, hstart, hend, hfail, hplay⟩ := hgood.back h hst
  rw [h.base, h.alt] at hR
  exact ⟨hs, ch, ch', hstart, hend, hfail, hR.apply hlog hplay⟩

/-- The disk answers for a sector that lies on the medium. -/
theorem answer_of_room (a : Ata) {ch : Channel} (hC : C.Usable)
    (hcapacity : ch.capacity = C.powerOn.capacity)
    (hroom : 512 * (lba.toNat + (1 : UInt8).toNat) ≤ ch.capacity C.device.drive.val) :
    (C.disk a).answer lba = 0 := by
  rw [hcapacity, hC.capacity] at hroom
  exact if_pos (Nat.le_of_mul_le_mul_left hroom (by decide))

/-- `ide_read_sectors` reads a sector of the disk. -/
theorem at_readSectors (junk : UInt8) (lba : UInt32) (es : UInt16) (edi : UInt32)
    (hC : C.Usable) (h : C.Attached s.dev) :
    View.At C.view.machine (ideReadSectors junk C.drive 1 lba es edi)
      (Disk.ide.readSectors C.drive 1 lba es edi) s := by
  by_cases hin : lba + 1 > C.device.size
  · exact at_refused junk .read hC h hin
  have hrun : (ideReadSectors junk C.drive 1 lba es edi).run s = _ :=
    ideReadSectors_accepted (accepted hC h hin)
  have hsteps := steps_ideAtaAccess .read C.drive lba 1 es edi
  cases haccess : (ideAtaAccess .read C.drive lba 1 es edi).run s with
  | error e t =>
      rw [Exec.bind_error haccess] at hrun
      exact at_starved h (hsteps.of_error haccess) (starves_ideAtaAccess _ _ _ _ _ _ s e t haccess)
        hrun
  | ok err t =>
      have hst := hsteps.of_ok haccess
      rw [Exec.bind_ok haccess] at hrun
      refine at_ok hrun (h.steps hst) fun hgood => ?_
      have haddr : Addressable (s.dev.ideDevices C.drive) lba := by
        rw [h.device]
        exact fun hchs => absurd hchs hC.lba
      have hctrl : ControlApart (s.dev.channels (s.dev.ideDevices C.drive).channel) := by
        rw [h.device]
        exact h.control hC
      have hread := ideAtaAccess_read_replayed rfl hctrl (by decide) haddr haccess
      rw [h.device] at hread
      obtain ⟨hs, ch, ch', hstart, hend, ⟨hfail, hcapacity⟩, hroom, k, hfetched, hmem⟩ :=
        Good.related hgood h hst hread
      have hk : k = 1 := by
        rcases hfetched.outcome with ⟨hk, -⟩ | ⟨-, hcode, -⟩
        · exact hk
        · rcases hcode with h1 | h2
          · exact absurd ((hfetched.clean hfail).symm.trans h1) (by decide)
          · exact absurd ((hfetched.clean hfail).symm.trans h2) (by decide)
      subst hk
      refine ⟨hs, ?_⟩
      rw [Disk.readSectors_run]
      have hans := answer_of_room s.dev hC hcapacity (hroom (hfetched.clean hfail))
      have hdisk : C.disk t.dev = C.disk s.dev := by
        simp only [disk, hend, hstart, hfetched.content]
      have hdelivered : (C.disk s.dev).delivered 1 lba edi s.mem = t.mem := by
        rw [Disk.delivered, if_pos hans, disk_content hstart, hmem]
        simp only [Nat.mul_comm 512]
        rfl
      have hview : ∀ u : Machine Ata,
          C.view.machine.map u = ⟨u.mem, u.console, C.disk u.dev⟩ := fun _ => rfl
      simp only [hview, hans, hdelivered, hdisk, hst.console]
      rw [hgood.accepted]

/-- `ide_write_sectors` replaces a sector of the disk, when no code was left
behind. -/
theorem at_writeSectors (lba : UInt32) (es : UInt16) (edi : UInt32) (hC : C.Usable)
    (h : C.Attached s.dev) (hclean : s.dev.package0 = 0) :
    View.At C.view.machine (ideWriteSectors C.drive 1 lba es edi)
      (Disk.ide.writeSectors C.drive 1 lba es edi) s := by
  by_cases hin : lba + 1 > C.device.size
  · exact at_refused 0 .write hC h hin
  have hrun : (ideWriteSectors C.drive 1 lba es edi).run s = _ :=
    ideWriteSectors_accepted (accepted hC h hin)
  have hsteps := steps_ideAtaAccess .write C.drive lba 1 es edi
  cases haccess : (ideAtaAccess .write C.drive lba 1 es edi).run s with
  | error e t =>
      rw [Exec.bind_error haccess] at hrun
      exact at_starved h (hsteps.of_error haccess) (starves_ideAtaAccess _ _ _ _ _ _ s e t haccess)
        hrun
  | ok err t =>
      have hst := hsteps.of_ok haccess
      have haddr : Addressable (s.dev.ideDevices C.drive) lba := by
        rw [h.device]
        exact fun hchs => absurd hchs hC.lba
      have hctrl : ControlApart (s.dev.channels (s.dev.ideDevices C.drive).channel) := by
        rw [h.device]
        exact h.control hC
      obtain rfl := ideAtaAccess_write_zero haccess
      obtain ⟨hmem, hwrite⟩ := ideAtaAccess_write_replayed rfl hctrl (by decide) haddr haccess
      rw [Exec.bind_ok haccess, idePrintError_zero, pure_bind] at hrun
      have hsame : ({ t with dev.package0 := 0 } : Machine Ata) = t := by
        have hzero : t.dev.package0 = 0 := hst.package0.trans hclean
        rw [← hzero]
      have hend : (do
          setPackage0 (Int32.ofNat (0 : UInt8).toNat)
          getPackage0 : Drv Int32).run t = .ok 0 t :=
        congrArg (EStateM.Result.ok 0) hsame
      rw [hend] at hrun
      refine at_ok hrun (h.steps hst) fun hgood => ?_
      rw [h.device] at hwrite
      obtain ⟨hs, ch, ch', hstart, hend, ⟨hfail, hcapacity⟩, k, -, hall, hcontent⟩ :=
        Good.related hgood h hst hwrite
      obtain ⟨hk, hroom⟩ := hall hfail
      obtain rfl : k = 1 := hk
      refine ⟨hs, ?_⟩
      have hans := answer_of_room s.dev hC hcapacity hroom
      rw [Disk.writeSectors_run _ _ _ _ _ hans]
      have hdisk : (C.disk s.dev).patch (lba.toNat * 512) ((1 : UInt8).toNat * 512)
          (fun i => s.mem (edi + UInt32.ofNat i)) = C.disk t.dev := by
        rw [Disk.patch, disk_content hstart]
        simp only [disk, hend, hcontent, Function.update_self, Nat.mul_comm 512]
        rfl
      have hview : ∀ u : Machine Ata,
          C.view.machine.map u = ⟨u.mem, u.console, C.disk u.dev⟩ := fun _ => rfl
      have hsize : (C.disk s.dev).sectorSize = 512 := rfl
      simp only [hview, hsize, hdisk, hst.console, hmem]

/-- What a read returned is what it left behind. -/
theorem ideReadSectors_package {drive numsects : UInt8} {lba edi : UInt32} {es : UInt16}
    {r : Int32} (h : (ideReadSectors junk drive numsects lba es edi).run s = .ok r t) :
    t.dev.package0 = r := by
  have hlast : ∀ {α : Type} (x : Drv α) (s : Machine Ata),
      (x >>= fun _ => getPackage0).run s = .ok r t → t.dev.package0 = r := by
    intro α x s hrun
    obtain ⟨_, u, -, hget⟩ := Exec.bind_inv hrun
    cases hget
    rfl
  rw [ideReadSectors, Exec.bind_ok (EStateM.run_get s)] at h
  simp only at h
  split at h
  · exact hlast _ _ h
  · split at h
    · exact hlast _ _ h
    · split at h
      · exact hlast _ _ h
      · obtain ⟨_, s₁, -, h⟩ := Exec.bind_inv h
        obtain ⟨_, s₂, -, h⟩ := Exec.bind_inv h
        exact hlast _ _ h

end

/-! ## The storage layer -/

section

variable [Layout] {junk : UInt8} {device : DeviceInfo} {sector : Int32} {buffer : UInt32}

variable (C) in
/-- The storage layer's name for the drive. -/
structure Backs (device : DeviceInfo) : Prop extends Usable C where
  geometry : Geometry device 1
  drive : device.ataId.toUInt32.toUInt8 = C.drive

theorem simulates_readSector (hC : C.Backs device) :
    Simulates C.view.kernel (readSector (Ata.ide junk) device sector buffer)
      (readSector Disk.ide device sector buffer) := by
  refine simulates_readSector_drive C.view_admits hC.geometry (fun edi s hs => ?_) buffer
  rw [hC.drive]
  exact at_readSectors junk _ 0 edi hC.toUsable hs

/-- `write_sector` reads the physical sector first, so that nothing is left
behind when it writes. -/
theorem simulates_writeSector (hC : C.Backs device) :
    Simulates C.view.kernel (writeSector (Ata.ide junk) device sector buffer)
      (writeSector Disk.ide device sector buffer) := by
  refine .bind (simulates_kmalloc C.view_admits 1) fun p => ?_
  refine .bind_value (fun k => locate_run hC.geometry) (fun k => locate_run hC.geometry) ?_
  intro k hk
  rw [hC.drive]
  have hread := at_ofMachine (at_readSectors junk (placeOf 1 sector).realSector 0 p hC.toUsable hk)
  refine hread.bind_at fun err k₁ hrun => ?_
  have hk₁ := (hread.of_ok hrun).1
  by_cases herr : err = 0
  · subst herr
    have hclean : k₁.dev.package0 = 0 := by
      obtain ⟨t, hmachine, rfl⟩ := Kern.ofMachine_inv hrun
      exact ideReadSectors_package hmachine
    simp only [ne_eq, not_true_eq_false, if_false]
    refine (simulates_memoryCopy _ _ _ k₁ hk₁).bind_at fun _ k₂ hcopy => ?_
    have hdev : k₂.dev = k₁.dev := by
      cases hcopy
      rfl
    have hwrite := at_ofMachine (at_writeSectors (s := k₂.toMachine)
      (placeOf 1 sector).realSector 0 p hC.toUsable (hdev ▸ hk₁) (hdev ▸ hclean))
    refine hwrite.bind fun err => ?_
    exact .ite (.pure 1) (.bind (simulates_kfree C.view_admits p 1) fun _ => .pure 0)
  · simp only [ne_eq, herr, not_false_eq_true, if_true]
    exact Simulates.bind (simulates_kprint _) (fun _ => .pure 1) k₁ hk₁

end

end Cable

end Bedrock
