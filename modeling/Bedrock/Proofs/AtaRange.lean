import Bedrock.Proofs.TaskFileDecode

/-!
# Requests that pass the range check

`ide_read_sectors` and `ide_write_sectors` compare `lba + numsects`, in 32 bits,
with the size of the drive. What gets past the check is followed here to the
drive: which sectors the command names, whether they exist, and whether the
driver moves as many blocks as the command announced.
-/

namespace Bedrock

open Lib

/-! ## Blocks moved -/

/-- The number of data blocks in a log. -/
def blocks (es : List PortEvent) : Nat := es.countP fun e => e.IsBlock

/-- From `s` to `t` the driver moved `n` blocks. -/
abbrev Moved (n : Nat) (s t : Machine Ata) : Prop := Counted PortEvent.IsBlock n s t

theorem Logs.moved {s t : Machine Ata} (h : Logs PortEvent.IsRead s t) : Moved 0 s t :=
  h.counted fun _ => PortEvent.IsRead.notBlock

section

variable {s t : Machine Ata} {n : Nat} {channel : Fin 2} {bus : UInt16} {edi : UInt32}

/-- A read that reports no error has moved a block in each of its rounds. -/
theorem pioRead_moved (h : (pioRead channel bus n edi).run s = .ok 0 t) : Moved n s t := by
  induction n generalizing s edi with
  | zero =>
      obtain ⟨-, rfl⟩ := Exec.pure_inv h
      exact Counted.refl _
  | succ n ih =>
      rw [pioRead] at h
      obtain ⟨err, s₁, hpoll, h⟩ := Exec.bind_inv h
      have h₁ := ((onlyReads_idePolling channel true).of_ok hpoll).moved
      split at h
      · obtain ⟨herr, -⟩ := Exec.pure_inv h
        exact absurd herr.symm ‹_›
      · obtain ⟨_, s₂, hin, h⟩ := Exec.bind_inv h
        have h₂ : Moved 1 s₁ s₂ := by
          cases hin
          exact Counted.one (e := .insw bus 256) trivial rfl
        have hall := (h₁.trans h₂).trans (ih h)
        rwa [Nat.zero_add, Nat.add_comm] at hall

theorem pioWrite_moved (h : (pioWrite channel bus n edi).run s = .ok () t) :
    Moved n s t := by
  induction n generalizing s edi with
  | zero =>
      obtain ⟨-, rfl⟩ := Exec.pure_inv h
      exact Counted.refl _
  | succ n ih =>
      rw [pioWrite] at h
      obtain ⟨_, s₁, hpoll, h⟩ := Exec.bind_inv h
      have h₁ := ((onlyReads_idePolling channel false).of_ok hpoll).moved
      obtain ⟨_, _, hget, h⟩ := Exec.bind_inv h
      cases hget
      obtain ⟨_, s₂, hout, h⟩ := Exec.bind_inv h
      have h₂ : Moved 1 s₁ s₂ := by
        cases hout
        exact Counted.one (e := .outsw bus (wordsAt s₁.mem edi 256)) trivial rfl
      have hall := (h₁.trans h₂).trans (ih h)
      rwa [Nat.zero_add, Nat.add_comm] at hall

/-- A write that returns wrote its blocks, asked for the flush and polled once more. -/
theorem ataTransfer_write_inv {lbaMode : LbaMode} {r : UInt8}
    (h : (ataTransfer .write channel bus lbaMode n edi).run s = .ok r t) :
    ∃ s₁ r₁, (pioWrite channel bus n edi).run s = .ok () s₁ ∧
      (idePolling channel false).run (s₁.loggedAll
        (writeEvents (s₁.dev.channels channel) 0x07 (flushOf lbaMode))) = .ok r₁ t := by
  rw [ataTransfer] at h
  obtain ⟨_, s₁, hpio, h⟩ := Exec.bind_inv h
  obtain ⟨_, s₂, hflush, h⟩ := Exec.bind_inv h
  obtain ⟨r₁, s₃, hpoll, h⟩ := Exec.bind_inv h
  obtain ⟨-, rfl⟩ := Exec.pure_inv h
  rw [ideWrite_sends _ _ s₁ rfl] at hflush
  cases hflush
  exact ⟨s₁, r₁, hpio, hpoll⟩

theorem ataTransfer_moved {direction : Direction} {lbaMode : LbaMode}
    (h : (ataTransfer direction channel bus lbaMode n edi).run s = .ok 0 t) :
    Moved n s t := by
  cases direction with
  | read => exact pioRead_moved h
  | write =>
      obtain ⟨s₁, _, hpio, hpoll⟩ := ataTransfer_write_inv h
      have hsent : Moved 0 s₁ (s₁.loggedAll
          (writeEvents (s₁.dev.channels channel) 0x07 (flushOf lbaMode))) :=
        Counted.zero rfl (writeEvents_notBlock _ _ _)
      exact ((pioWrite_moved hpio).trans hsent).trans
        ((onlyReads_idePolling channel false).of_ok hpoll).moved

end

/-! ## From the entry points to `ide_ata_access` -/

/-- The two entry points. -/
def ideSectors (direction : Direction) (junk drive numsects : UInt8) (lba : UInt32)
    (es : UInt16) (edi : UInt32) : Drv Int32 :=
  match direction with
  | .read => ideReadSectors junk drive numsects lba es edi
  | .write => ideWriteSectors drive numsects lba es edi

/-- A request for a present ATA drive that passes the range check. -/
structure Accepted (a : Ata) (drive numsects : UInt8) (lba : UInt32) : Prop where
  present : ¬ DriveAbsent a drive
  ata : (a.ideDevices drive).type = .ata
  inRange : ¬ OutOfRange a drive lba numsects

instance {a : Ata} {drive numsects : UInt8} {lba : UInt32} :
    Decidable (Accepted a drive numsects lba) :=
  decidable_of_iff (¬ DriveAbsent a drive ∧ (a.ideDevices drive).type = .ata ∧
    ¬ OutOfRange a drive lba numsects)
    ⟨fun h => ⟨h.1, h.2.1, h.2.2⟩, fun h => ⟨h.1, h.2, h.3⟩⟩

section

variable {s : Machine Ata} {direction : Direction} {junk drive numsects : UInt8}
  {lba : UInt32} {es : UInt16} {edi : UInt32}

theorem ideReadSectors_accepted (h : Accepted s.dev drive numsects lba) :
    (ideReadSectors junk drive numsects lba es edi).run s =
      (do
        let _ ← ideAtaAccess .read drive lba numsects es edi
        getPackage0 : Drv Int32).run s := by
  rw [ideReadSectors, Exec.bind_ok (EStateM.run_get s)]
  simp only [if_neg h.present, if_neg h.inRange, h.ata]

theorem ideWriteSectors_accepted (h : Accepted s.dev drive numsects lba) :
    (ideWriteSectors drive numsects lba es edi).run s =
      (do
        let err ← ideAtaAccess .write drive lba numsects es edi
        let err ← idePrintError drive err
        setPackage0 (Int32.ofNat err.toNat)
        getPackage0 : Drv Int32).run s := by
  rw [ideWriteSectors, Exec.bind_ok (EStateM.run_get s)]
  simp only [if_neg h.present, if_neg h.inRange, h.ata]

/-- The write path has no error to report. -/
theorem ideAtaAccess_write_zero {r : UInt8} {t : Machine Ata}
    (h : (ideAtaAccess .write drive lba numsects es edi).run s = .ok r t) : r = 0 := by
  have hrun := (ideAtaAccess_start s .write drive lba numsects es edi rfl rfl).1
  rw [hrun] at h
  obtain ⟨_, s₂, -, h⟩ := Exec.bind_inv h
  obtain ⟨_, s₃, -, h⟩ := Exec.bind_inv h
  obtain ⟨_, s₄, -, h⟩ := Exec.bind_inv h
  obtain ⟨_, s₅, -, h⟩ := Exec.bind_inv h
  obtain ⟨_, s₆, -, h⟩ := Exec.bind_inv h
  exact (Exec.pure_inv h).1

/-- A run of `ide_ata_access` that reports no error has moved every block. -/
theorem ideAtaAccess_moved {t : Machine Ata}
    (h : (ideAtaAccess direction drive lba numsects es edi).run s = .ok 0 t) :
    Moved numsects.toNat s t := by
  obtain ⟨waited, hwaited, ⟨-, _, hrun, -⟩ | ⟨b, rest, u, -, hrun, -, -, -, -, -, hlog⟩⟩ :=
    ideAtaAccess_cases s direction drive lba numsects es edi rfl rfl
  · rw [hrun] at h
    cases h
  · rw [hrun] at h
    have hsent : Moved 0 s u := Counted.zero hlog (sent_notBlock hwaited _ _ _ _)
    have hall := hsent.trans (ataTransfer_moved h)
    rwa [Nat.zero_add] at hall

theorem idePrintError_zero : idePrintError drive 0 = pure 0 := rfl

/-- An accepted request makes the port accesses of `ide_ata_access` and no
others. -/
theorem ideSectors_log (direction : Direction) (junk : UInt8) (es : UInt16) (edi : UInt32)
    (h : Accepted s.dev drive numsects lba) :
    (Exec.final ((ideSectors direction junk drive numsects lba es edi).run s)).dev.log =
      (Exec.final
        ((ideAtaAccess direction drive lba numsects es edi).run s)).dev.log := by
  cases direction with
  | read =>
      rw [ideSectors, ideReadSectors_accepted h]
      cases hrun : (ideAtaAccess .read drive lba numsects es edi).run s with
      | ok r t =>
          rw [Exec.bind_ok hrun]
          rfl
      | error e t =>
          rw [Exec.bind_error hrun]
          rfl
  | write =>
      rw [ideSectors, ideWriteSectors_accepted h]
      cases hrun : (ideAtaAccess .write drive lba numsects es edi).run s with
      | ok r t =>
          rw [Exec.bind_ok hrun, ideAtaAccess_write_zero hrun, idePrintError_zero, pure_bind]
          rfl
      | error e t =>
          rw [Exec.bind_error hrun]
          rfl

end

/-! ## Main result -/

/-- The request makes the drive operate on exactly the sectors it names: one
transfer, of sectors the drive has and the command can address, and when the
access completes every announced block has moved. -/
def OperatesExactly (s : Machine Ata) (direction : Direction) (junk drive numsects : UInt8)
    (lba : UInt32) (es : UInt16) (edi : UInt32) : Prop :=
  let device := s.dev.ideDevices drive
  ∃ log space rest,
    (Exec.final ((ideSectors direction junk drive numsects lba es edi).run s)).dev.log =
      s.dev.log ++ log ∧
    (∀ d, (observe (s.dev.channels device.channel).base d log).commands = d.commands ++
      .transfer direction device.drive.val lba.toNat numsects.toNat space :: rest) ∧
    (∀ c ∈ rest, c = .flush device.drive.val) ∧
    lba.toNat + numsects.toNat ≤ device.size.toNat ∧
    lba.toNat + numsects.toNat ≤ space ∧
    ∀ t, (ideAtaAccess direction drive lba numsects es edi).run s = .ok 0 t →
      blocks log = numsects.toNat

/-- The last sector is one that the drive has and the command can name. -/
def RequestFits (device : IdeDevice) (numsects : UInt8) (lba : UInt32) : Prop :=
  numsects ≠ 0 ∧
  lba.toNat + numsects.toNat ≤ device.size.toNat ∧
  (lba.toNat < 2 ^ 28 → lba.toNat + numsects.toNat ≤
    if device.capabilities &&& 0x200 ≠ 0 then 2 ^ 28 else TaskFile.chsSpace)

instance {device : IdeDevice} {numsects : UInt8} {lba : UInt32} :
    Decidable (RequestFits device numsects lba) :=
  inferInstanceAs (Decidable (_ ∧ _ ∧ _))

theorem announced_eq_iff {lbaMode : LbaMode} {numsects : UInt8} :
    announced lbaMode numsects = numsects.toNat ↔ numsects ≠ 0 := by
  rw [announced]
  split
  · rename_i h
    rw [h]
    refine ⟨fun heq => ?_, fun hne => absurd rfl hne⟩
    split at heq <;> cases heq
  · rename_i h
    exact ⟨fun _ => h, fun _ => rfl⟩

/-- A request below `2 ^ 28` fits the form of address chosen for it. -/
theorem addressSpace_iff (capabilities : UInt16) (numsects : UInt8) (lba : UInt32) :
    lba.toNat + numsects.toNat ≤ addressSpace (selectLba capabilities lba).lbaMode ↔
      (lba.toNat < 2 ^ 28 → lba.toNat + numsects.toNat ≤
        if capabilities &&& 0x200 ≠ 0 then 2 ^ 28 else TaskFile.chsSpace) := by
  have hlba := lba.toNat_lt
  have hnum := numsects.toNat_lt
  by_cases hext : lba ≥ 0x10000000
  · have hge : 2 ^ 28 ≤ lba.toNat := UInt32.le_iff_toNat_le.mp hext
    rw [(selectLba_lba48 hext).1]
    refine ⟨fun _ hlt => absurd hlt (Nat.not_lt.mpr hge), fun _ => ?_⟩
    show _ ≤ 2 ^ 48
    omega
  · have hlt : lba.toNat < 2 ^ 28 := UInt32.lt_iff_toNat_lt.mp (UInt32.not_le.mp hext)
    by_cases hcap : capabilities &&& 0x200 ≠ 0
    · rw [(selectLba_lba28 hext hcap).1, if_pos hcap]
      exact ⟨fun h _ => h, fun h => h hlt⟩
    · rw [(selectLba_chs hext hcap).1, if_neg hcap]
      exact ⟨fun h _ => h, fun h => h hlt⟩

/-- A request that passes the range check is carried out exactly when it fits. -/
theorem accepted_operates_iff (s : Machine Ata) (direction : Direction)
    (junk drive numsects : UInt8) (lba : UInt32) (es : UInt16) (edi : UInt32)
    (haccepted : Accepted s.dev drive numsects lba)
    (hctrl : ControlApart (s.dev.channels (s.dev.ideDevices drive).channel))
    (hready : ∃ b ∈ s.dev.inbox, ¬ masked 0x80 b) :
    OperatesExactly s direction junk drive numsects lba es edi ↔
      RequestFits (s.dev.ideDevices drive) numsects lba := by
  let device := s.dev.ideDevices drive
  let base := (s.dev.channels device.channel).base
  let io := selectLba device.capabilities lba
  let transfer := Command.transfer direction device.drive.val io.start
    (announced io.lbaMode numsects) (addressSpace io.lbaMode)
  -- the commands of the run, at either entry point
  have hgives : ∃ rest, Gives base (ideAtaAccess direction drive lba numsects es edi) s
      (transfer :: rest) ∧ ∀ c ∈ rest, c = .flush device.drive.val := by
    obtain ⟨b, hb, hclear⟩ := hready
    rcases ideAtaAccess_gives s direction drive lba numsects es edi hctrl with
      ⟨hbusy, -⟩ | ⟨-, hgives⟩
    · exact absurd (List.dropWhile_eq_nil_iff.mp hbusy b hb) hclear
    · rcases hgives with hgives | ⟨-, hgives⟩
      · exact ⟨[], hgives, List.forall_mem_nil _⟩
      · exact ⟨_, hgives, fun _ h => List.mem_singleton.mp h⟩
  obtain ⟨rest, hgives, hrest⟩ := hgives
  have hlog := ideSectors_log direction junk es edi haccepted
  constructor
  · rintro ⟨log, space, rest', hfinal, hcommands, -, hsize, hspace, -⟩
    have hsame := hgives.unique ⟨log, hlog.symm.trans hfinal, hcommands⟩
    injection hsame with hsame
    injection hsame with _ _ hstart hcount hspace'
    subst hspace'
    exact ⟨announced_eq_iff.mp hcount, hsize, (addressSpace_iff _ _ _).mp hspace⟩
  · intro ⟨hne, hsize, hfits⟩
    have hspace := (addressSpace_iff _ _ _).mpr hfits
    have hn : 0 < numsects.toNat := Nat.pos_of_ne_zero fun h => hne (UInt8.toNat_inj.mp h)
    have hstart : io.start = lba.toNat := selectLba_start fun hm => by
      have hchs : addressSpace io.lbaMode = TaskFile.chsSpace := congrArg addressSpace hm
      rw [hchs] at hspace
      omega
    obtain ⟨log, hfinal, hcommands⟩ := hgives
    refine ⟨log, addressSpace io.lbaMode, rest, hlog.trans hfinal, fun d => ?_, hrest,
      hsize, hspace, fun t hrun => ?_⟩
    · rw [hcommands, ← hstart, ← announced_eq_iff.mpr hne]
    · obtain ⟨log', hfinal', hblocks⟩ := ideAtaAccess_moved hrun
      rw [hrun] at hfinal
      have heq : log = log' := List.append_cancel_left (hfinal.symm.trans hfinal')
      rw [heq, blocks, hblocks]

/-- The last sector of a drive of 1000. -/
theorem accepted_operates_iff_last :
    let disk : IdeDevice := ⟨1, 0, 0, .ata, 0x200, 1000, []⟩
    OperatesExactly (ataBoot disk [0x50]) .read 0 0 1 999 0 0x5000 ↔
      RequestFits disk 1 999 :=
  accepted_operates_iff (ataBoot ⟨1, 0, 0, .ata, 0x200, 1000, []⟩ [0x50]) .read 0 0 1 999 0
    0x5000 (by decide) (controlApart_ideChannels 0) ⟨0x50, by decide, by decide⟩

/-- On the same drive the sum `lba + numsects` wraps to 0, and the drive is told
to read a sector four billion beyond its end. -/
theorem accepted_wraps :
    let s := ataBoot ⟨1, 0, 0, .ata, 0x200, 1000, []⟩ [0x50]
    Accepted s.dev 0 1 0xFFFFFFFF ∧
      Gives 0x1F0 (ideAtaAccess .read 0 0xFFFFFFFF 1 0 0x5000) s
        [.transfer .read 0 0xFFFFFFFF 1 (2 ^ 48)] ∧
      ¬ OperatesExactly s .read 0 0 1 0xFFFFFFFF 0 0x5000 := by
  intro s
  refine ⟨by decide, ?_, fun ⟨_, _, _, _, _, _, hsize, _⟩ => absurd hsize (by decide)⟩
  rcases ideAtaAccess_gives s .read 0 0xFFFFFFFF 1 0 0x5000 (controlApart_ideChannels 0) with
    ⟨hbusy, -⟩ | ⟨-, hgives | ⟨hwrite, -⟩⟩
  · cases hbusy
  · have hio : selectLba 0x200 0xFFFFFFFF =
        { lbaMode := .lba48, io0 := 0xFF, io1 := 0xFF, io2 := 0xFF, io3 := 0xFF, io4 := 0,
          io5 := 0, head := 0 } := by decide
    have hdevice : s.dev.ideDevices 0 = ⟨1, 0, 0, .ata, 0x200, 1000, []⟩ := rfl
    simp only [hdevice, hio] at hgives
    exact hgives
  · cases hwrite

end Bedrock
