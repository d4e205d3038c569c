import Bedrock.Proofs.DriveSessions

/-!
# Drives that answer promptly

A drive that moves its blocks as drives do need not exist for a given run of the
kernel: the tape and the words are fixed before the run, and what is asked for
depends on it. Here is one. Given the sectors a run of the kernel asks the disk
for, its tape and its words serve these requests one after the other, each as
soon as a drive can (`Prompt`). The run over the driver then asks for the same
sectors, and ends well (`Cable.prompt_good`).
-/

namespace Bedrock

open Lib Lib.Exec

/-! ## The tape -/

/-- What the drive shows during a request for one sector: it is ready, it is
busy for as long as it may be, and then it has the block. -/
def promptBlock : List UInt8 := [0x50, 0xD0, 0xD0, 0xD0, 0xD0, 0x58, 0x58]

def promptTape : List UInt32 → List UInt8
  | [] => [0x50]
  | _ :: lbas => promptBlock ++ promptTape lbas

/-- The words of the requested sectors. -/
def promptWords (content : Nat → UInt8) : List UInt32 → Nat → UInt16
  | [], _ => 0
  | lba :: lbas, i =>
      if i < 256 then le16 content (512 * lba.toNat + 2 * i)
      else promptWords content lbas (i - 256)

/-- The accesses of the driver during such a request. -/
def promptEvents (c : IdeChannelRegisters) (device : IdeDevice) (lba : UInt32) :
    List PortEvent :=
  writeEvents c 0x0C 2 ++ (.inb (statusPort c) 0x50 ::
    (sendEvents c device.drive (selectLba device.capabilities lba) 1 .read ++
      (pollReads c [0xD0, 0xD0, 0xD0, 0xD0] [] 0x58 ++
        [.inb (statusPort c) 0x58, .insw c.base 256])))

theorem skip_promptWords (content : Nat → UInt8) (lba : UInt32) (lbas : List UInt32) :
    skip 256 (promptWords content (lba :: lbas)) = promptWords content lbas := by
  funext i
  rw [skip, promptWords, if_neg (by omega), Nat.add_sub_cancel_left]

theorem map_promptWords (content : Nat → UInt8) (lba : UInt32) (lbas : List UInt32) :
    (List.range 256).map (promptWords content (lba :: lbas)) =
      mediumWords content (512 * lba.toNat) 256 := by
  rw [mediumWords]
  refine List.map_congr_left fun i hi => ?_
  rw [promptWords, if_pos (List.mem_range.mp hi)]

theorem received_promptEvents (c : IdeChannelRegisters) (device : IdeDevice) (lba : UInt32) :
    received (promptEvents c device lba) = 256 := by
  have hsend := received_notBlock (sendEvents_notBlock c device.drive
    (selectLba device.capabilities lba) 1 .read)
  have hpoll := received_notBlock fun e he =>
    (pollReads_isRead c [0xD0, 0xD0, 0xD0, 0xD0] [] 0x58 e he).notBlock
  have hinb : ∀ es, received (.inb (statusPort c) 0x50 :: es) = received es := fun _ => rfl
  rw [promptEvents, received_append, received_notBlock (writeEvents_notBlock c 0x0C 2), hinb,
    received_append, hsend, received_append, hpoll]
  rfl

/-- On an idle channel of drives the request is answered, and the channel is idle again. -/
theorem play_promptEvents {c : IdeChannelRegisters} {device : IdeDevice} {lba : UInt32}
    {w : Nat → UInt16} {ch : Channel} (hctrl : ControlApart c) (haddr : Addressable device lba)
    (hidle : ch.phase = .idle)
    (hroom : 512 * (lba.toNat + 1) ≤ ch.capacity device.drive.val)
    (hw : (List.range 256).map w =
      mediumWords (ch.content device.drive.val) (512 * lba.toNat) 256) :
    ∃ ch', ch.play (accesses c.base (altStatusPort c) (promptEvents c device lba) w) = some ch' ∧
      Channel.Idled ch ch' := by
  have hoff := received_notBlock (writeEvents_notBlock c 0x0C 2)
  have hsend := received_notBlock (sendEvents_notBlock c device.drive
    (selectLba device.capabilities lba) 1 .read)
  have hpoll := received_notBlock fun e he =>
    (pollReads_isRead c [0xD0, 0xD0, 0xD0, 0xD0] [] 0x58 e he).notBlock
  have hload := play_loads (altStatusPort c)
    (writeEvents_loads hctrl (by decide) (by decide) 2 : ∀ e ∈ writeEvents c 0x0C 2, e.Loads c.base)
    w ch
  obtain ⟨ch₁, hstatus, hready⟩ := Channel.status_idle
    (show ({ ch with drives := observe c.base ch.drives (writeEvents c 0x0C 2) } :
      Channel).phase = .idle from hidle)
  have hsent := play_sendEvents hctrl device.drive (selectLba_head device.capabilities lba)
    1 .read w ch₁
  rw [haddr.start, show announced (selectLba device.capabilities lba).lbaMode 1 = 1 from rfl,
    ofCommand_transfer, hready.capacity, if_pos hroom] at hsent
  have hlast : accesses c.base (altStatusPort c)
      [.inb (statusPort c) 0x58, .insw c.base 256] w =
        [.status 0x58, .dataIn (mediumWords (ch₁.content device.drive.val)
          (512 * lba.toNat) 256)] := by
    rw [accesses, if_pos (.inl rfl), accesses, if_pos rfl, hw, hready.content]
    rfl
  rw [promptEvents, accesses_append, Channel.play_append, hload, hoff, skip_zero,
    Option.bind_some, accesses, if_pos (.inl rfl), Channel.play_cons, hstatus, Option.bind_some,
    accesses_append, Channel.play_append, hsent, hsend, skip_zero, Option.bind_some,
    accesses_append, accesses_pollReads, hpoll, skip_zero, hlast]
  exact ⟨_, Channel.play_block _ device.drive.val (512 * lba.toNat), rfl, rfl, hready.content,
    hready.failures⟩

namespace Cable

variable (C : Cable)

/-- The driver after such a request. -/
def serve (a : Ata) (lba : UInt32) : Ata :=
  let c : IdeChannelRegisters := { a.channels C.device.channel with nIEN := 2 }
  { a with
    inbox := a.inbox.drop 7
    words := skip 256 a.words
    log := a.log ++ promptEvents c C.device lba
    channels := Function.update a.channels C.device.channel c
    ideIrqInvoked := 0 }

/-- What is on the medium when the log begins. -/
def medium : Nat → UInt8 := C.powerOn.content C.device.drive.val

/-- The drive is idle, and about to serve these requests. -/
structure Prompt (lbas : List UInt32) (a : Ata) : Prop extends Attached C a where
  clean : a.package0 = 0
  tape : a.inbox = promptTape lbas
  stream : a.words = promptWords C.medium lbas
  replayed : ∃ ch, C.replay a = some ch ∧ Channel.Idled C.powerOn ch

variable {C} {lbas : List UInt32} {lba : UInt32} {a : Ata}

theorem Prompt.good (h : C.Prompt lbas a) : C.Good a := by
  obtain ⟨ch, hreplay, hidled⟩ := h.replayed
  refine ⟨?_, h.clean, ch, hreplay, hidled.failures⟩
  rw [h.tape]
  cases lbas <;> exact List.cons_ne_nil _ _

/-! ## One request -/

section

variable {s : Machine Ata}

/-- The driver takes the sector off the tape. -/
theorem Prompt.access (h : C.Prompt (lba :: lbas) s.dev) (es : UInt16) (edi : UInt32) :
    ∃ m, (ideAtaAccess .read C.drive lba 1 es edi).run s =
      .ok 0 ⟨m, s.console, C.serve s.dev lba⟩ := by
  let channel := C.device.channel
  let c : IdeChannelRegisters := { s.dev.channels channel with nIEN := 2 }
  have htape : s.dev.inbox = 0x50 :: 0xD0 :: 0xD0 :: 0xD0 :: 0xD0 :: 0x58 :: 0x58 ::
    promptTape lbas := h.tape
  obtain ⟨hstart, hc⟩ := ideAtaAccess_start s .read C.drive lba 1 es edi
    (congrArg IdeDevice.channel h.device) rfl
  rw [h.device] at hstart
  obtain ⟨s₁, hs₁⟩ : ∃ s₁, s₁ = (s.irqsOff channel).loggedAll (writeEvents c 0x0C 2) := ⟨_, rfl⟩
  have hc₁ : s₁.dev.channels channel = c := by
    rw [hs₁]
    exact hc
  have hbox₁ : s₁.dev.inbox = s.dev.inbox := by
    rw [hs₁]
    rfl
  rw [← hs₁] at hstart
  -- the drive is ready, and gets the command
  have hwait : (waitWhile channel 0x80).run s₁ =
      .ok () (s₁.heard [.inb (statusPort c) 0x50] (s.dev.inbox.drop 1)) := by
    have hclear : s₁.dev.inbox.dropWhile (masked 0x80) = 0x50 :: s.dev.inbox.drop 1 := by
      rw [hbox₁, htape]
      rfl
    rw [waitWhile_ok hclear, hbox₁, htape, hc₁]
    rfl
  obtain ⟨s₂, hs₂⟩ : ∃ s₂, s₂ = (s₁.heard [.inb (statusPort c) 0x50]
    (s.dev.inbox.drop 1)).loggedAll (sendEvents c C.device.drive
      (selectLba C.device.capabilities lba) 1 .read) := ⟨_, rfl⟩
  have hsend := sendCommand_sends C.device.drive (selectLba C.device.capabilities lba) 1 .read
    (s₁.heard [.inb (statusPort c) 0x50] (s.dev.inbox.drop 1)) hc₁
  rw [← hs₂] at hsend
  -- and then has the block
  have hpoll : (idePolling channel true).run s₂ = .ok 0 (s₂.heard (pollReads c
      [0xD0, 0xD0, 0xD0, 0xD0] [] 0x58 ++ [.inb (statusPort c) 0x58]) (promptTape lbas)) := by
    have hbox₂ : s₂.dev.inbox = 0xD0 :: 0xD0 :: 0xD0 :: 0xD0 :: 0x58 :: 0x58 ::
        promptTape lbas := by
      rw [hs₂, loggedAll_inbox, heard_inbox, htape]
      rfl
    have hc₂ : s₂.dev.channels channel = c := by
      rw [hs₂]
      exact hc₁
    rw [idePolling_run hbox₂ rfl, hc₂]
    rfl
  obtain ⟨s₃, hs₃⟩ : ∃ s₃, s₃ = s₂.heard (pollReads c [0xD0, 0xD0, 0xD0, 0xD0] [] 0x58 ++
    [.inb (statusPort c) 0x58]) (promptTape lbas) := ⟨_, rfl⟩
  rw [← hs₃] at hpoll
  have hdev : ∀ m, (⟨m, s₃.console, { s₃.dev with
      log := s₃.dev.log ++ [.insw c.base 256]
      words := fun i => s₃.dev.words (256 + i) }⟩ : Machine Ata) =
        ⟨m, s.console, C.serve s.dev lba⟩ := by
    intro m
    have hlog : s₃.dev.log ++ [.insw c.base 256] = s.dev.log ++ promptEvents c C.device lba := by
      rw [hs₃, hs₂, hs₁, promptEvents]
      simp only [heard_log, loggedAll_log, List.append_assoc, List.cons_append, List.nil_append]
      rfl
    rw [hlog, serve, hs₃, hs₂, hs₁, htape]
    rfl
  have hread : (pioRead channel c.base 1 edi).run s₂ =
      .ok 0 ⟨s₃.mem.write edi (2 * 256) fun j => byteOf (s₃.dev.words (j / 2)).toNat (j % 2),
        s.console, C.serve s.dev lba⟩ := by
    rw [← hdev, show (1 : Nat) = 0 + 1 from rfl, pioRead, Exec.bind_ok hpoll]
    rfl
  rw [Exec.bind_ok hwait, Exec.bind_ok hsend] at hstart
  exact ⟨_, hstart.trans hread⟩

theorem Prompt.run (hC : C.Usable) (h : C.Prompt (lba :: lbas) s.dev)
    (hin : lba.toNat < C.device.size.toNat) (junk : UInt8) (es : UInt16) (edi : UInt32) :
    ∃ m, (ideReadSectors junk C.drive 1 lba es edi).run s =
      .ok 0 ⟨m, s.console, C.serve s.dev lba⟩ := by
  have hrange : ¬ lba + 1 > C.device.size := by
    rw [gt_iff_lt, UInt32.not_lt, UInt32.le_iff_toNat_le, UInt32.toNat_add]
    exact Nat.le_trans (Nat.mod_le _ _) hin
  obtain ⟨m, haccess⟩ := h.access es edi
  refine ⟨m, (ideReadSectors_accepted (accepted hC h.toAttached hrange)).trans ?_⟩
  rw [Exec.bind_ok haccess]
  exact congrArg (EStateM.Result.ok · _) h.clean

/-- On the medium it is the sector that was asked for. -/
theorem Prompt.serve (hC : C.Usable) (h : C.Prompt (lba :: lbas) a)
    (hin : lba.toNat < C.device.size.toNat) : C.Prompt lbas (C.serve a lba) := by
  let c : IdeChannelRegisters := { a.channels C.device.channel with nIEN := 2 }
  have hc : (C.serve a lba).channels C.device.channel = c := Function.update_self ..
  have hlog : (C.serve a lba).log = a.log ++ promptEvents c C.device lba := rfl
  obtain ⟨ch, hreplay, hidled⟩ := h.replayed
  have hroom : 512 * (lba.toNat + 1) ≤ ch.capacity C.device.drive.val := by
    rw [hidled.capacity, hC.capacity]
    omega
  obtain ⟨ch', hplay, hidled'⟩ := play_promptEvents (c := c) (w := a.words)
    (h.toAttached.control hC) (fun hchs => absurd hchs hC.lba : Addressable C.device lba)
    hidled.phase hroom (by rw [h.stream, map_promptWords, hidled.content]; rfl)
  refine ⟨⟨h.devices, ?_, ?_, ?_⟩, h.clean, ?_, ?_, ch', ?_, hidled.trans hidled'⟩
  · rw [hc]
    exact h.base
  · rw [hc]
    exact h.ctrl
  · rw [hlog, received_append, received_promptEvents, ← skip_skip, ← h.words]
    rfl
  · show a.inbox.drop 7 = promptTape lbas
    rw [h.tape]
    rfl
  · show skip 256 a.words = promptWords C.medium lbas
    rw [h.stream, skip_promptWords]
  · rw [replay, hlog, accesses_append, Channel.play_append, ← h.words]
    have hreplay' : C.powerOn.play (accesses C.registers.base (altStatusPort C.registers)
      a.log C.words) = some ch := hreplay
    rw [hreplay', Option.bind_some]
    rw [← h.base, ← h.toAttached.alt]
    exact hplay

end

/-! ## All requests -/

/-- The driver has served requests, and the others are left. -/
theorem Prompt.served (hC : C.Usable) {log : List UInt32} (h : C.Prompt (log ++ lbas) a)
    (hin : ∀ lba ∈ log, lba.toNat < C.device.size.toNat) :
    C.Prompt lbas (log.foldl C.serve a) := by
  induction log generalizing a with
  | nil => exact h
  | cons lba log ih =>
      exact ih (h.serve hC (hin lba List.mem_cons_self))
        fun lba' hlba' => hin lba' (List.mem_cons_of_mem lba hlba')

/-- The medium is what it was. -/
theorem Prompt.disk_eq {lbas' : List UInt32} {a' : Ata} (h : C.Prompt lbas a)
    (h' : C.Prompt lbas' a') : C.disk a = C.disk a' := by
  obtain ⟨ch, hreplay, hidled⟩ := h.replayed
  obtain ⟨ch', hreplay', hidled'⟩ := h'.replayed
  simp only [disk, hreplay, hreplay', hidled.content, hidled'.content]

/-! ## From the disk to the driver -/

variable (C) in
/-- A run over the disk with a record, seen as a run over the driver: after the requests of
the record the driver is where it has served them. -/
def servedView (a : Ata) (lbas : List UInt32) : DeviceView (Disk × List UInt32) Ata where
  map d := d.2.foldl C.serve a
  inv d := d.1 = C.disk a
  good d := d.2 <+: lbas
  stops _ := True

theorem servedView_admits : Admits (C.servedView a lbas) := ⟨fun _ _ _ => trivial⟩

/-- A request of the run is the next one on the tape. -/
theorem simulates_served (hC : C.Usable) (h : C.Prompt lbas a)
    (hin : ∀ lba ∈ lbas, lba.toNat < C.device.size.toNat) (junk : UInt8) (es : UInt16)
    (edi : UInt32) :
    Simulates (C.servedView a lbas).machine
      (Disk.ide.recorded.readSectors C.drive 1 lba es edi)
      (ideReadSectors junk C.drive 1 lba es edi) := by
  intro s hs
  refine at_ok (Disk.recorded_run C.drive 1 lba es edi s) hs fun hgood => ?_
  obtain ⟨rest, hrest⟩ : s.dev.2 ++ [lba] <+: lbas := hgood
  rw [List.append_assoc, List.singleton_append] at hrest
  refine ⟨⟨_, hrest⟩, ?_⟩
  have hin' : lba.toNat < C.device.size.toNat :=
    hin lba (hrest ▸ List.mem_append_right _ List.mem_cons_self)
  have hnext : C.Prompt (lba :: rest) (s.dev.2.foldl C.serve a) :=
    Prompt.served hC (hrest ▸ h) fun lba' hlba' =>
      hin lba' (hrest ▸ List.mem_append_left _ hlba')
  have hend := hnext.serve hC hin'
  obtain ⟨t, ht⟩ : ∃ t, t = (C.servedView a lbas).machine.map s := ⟨_, rfl⟩
  have hdev : t.dev = s.dev.2.foldl C.serve a := by rw [ht]; rfl
  rw [← hdev] at hnext hend
  obtain ⟨m, hrun⟩ := hnext.run hC hin' junk es edi
  have hseen := (((at_readSectors junk lba es edi hC hnext.toAttached).of_ok hrun).2 hend.good).2
  -- what the driver has done is what can be seen of it on the disk
  rw [Disk.readSectors_run] at hseen
  injection hseen with hanswer hstate
  have hdisk : (C.view.machine.map t).dev = s.dev.1 := (hnext.disk_eq h).trans hs.symm
  rw [hdisk] at hanswer hstate
  have hmem : s.dev.1.delivered 1 lba edi s.mem = m := by
    have hmap : (C.view.machine.map t).mem = s.mem := by rw [ht]; rfl
    rw [← hmap]
    exact congrArg Machine.mem hstate
  have hfold : (s.dev.2 ++ [lba]).foldl C.serve a = C.serve (s.dev.2.foldl C.serve a) lba :=
    List.foldl_concat ..
  rw [← ht, hrun, hanswer, hmem, hdev, ← hfold, ht]
  rfl

variable {device : DeviceInfo} {priv : Ext2PrivData}

theorem simulates_servedSector [Layout] (hC : C.Backs device) (h : C.Prompt lbas a)
    (hin : ∀ lba ∈ lbas, lba.toNat < C.device.size.toNat) (junk : UInt8) (sector : Int32)
    (buffer : UInt32) :
    Simulates (C.servedView a lbas).kernel (readSector Disk.ide.recorded device sector buffer)
      (readSector (Ata.ide junk) device sector buffer) :=
  simulates_readSector_drive servedView_admits hC.geometry (fun edi => by
    rw [hC.drive]
    exact simulates_served hC.toUsable h hin junk 0 edi) buffer

theorem sees_served [Layout] (hC : C.Backs device) (hd : Divides priv) (h : C.Prompt lbas a)
    (hin : ∀ lba ∈ lbas, lba.toNat < C.device.size.toNat) (junk : UInt8) :
    Sees (C.servedView a lbas) Disk.ide.recorded (Ata.ide junk) device priv where
  toAdmits := servedView_admits
  toDivides := hd
  sector _ _ := simulates_servedSector hC h hin junk _

/-- If the drive has ready what a run asks the disk for, the run over the driver ends well. -/
theorem prompt_good {α : Type} {x : Kern (Disk × List UInt32) α} {y : Kern Ata α}
    {k : Kernel Ata} (hC : C.Usable) (h : C.Prompt lbas k.dev)
    (hin : ∀ lba ∈ lbas, lba.toNat < C.device.size.toNat)
    (hsim : Simulates (C.servedView k.dev lbas).kernel x y)
    (hlog : (final (x.run (C.view.kernel.map k).recording)).dev.2 = lbas) :
    C.Good (final (y.run k)).dev := by
  obtain ⟨k₀, hk₀⟩ : ∃ k₀, k₀ = (C.view.kernel.map k).recording := ⟨_, rfl⟩
  rw [← hk₀] at hlog
  have hinv : (C.servedView k.dev lbas).kernel.inv k₀ := by
    rw [hk₀]
    rfl
  have hmap : (C.servedView k.dev lbas).kernel.map k₀ = k := by
    rw [hk₀]
    rfl
  have hprefix : (C.servedView k.dev lbas).kernel.good (final (x.run k₀)) :=
    ⟨[], (List.append_nil _).trans hlog⟩
  have hseen := ((hsim k₀ hinv).seen hprefix).2
  rw [hmap] at hseen
  have hend : C.Prompt [] (lbas.foldl C.serve k.dev) :=
    Prompt.served hC (by rwa [List.append_nil]) hin
  have hdev : (final (y.run k)).dev = lbas.foldl C.serve k.dev := by
    rw [hseen, ← hlog]
    cases x.run k₀ <;> rfl
  rw [hdev]
  exact hend.good

end Cable

/-! ## A drive for every run -/

/-- The drive of `freshCable`, with this on its medium. -/
def promptCable (content : Nat → UInt8) (lbas : List UInt32) : Cable :=
  { freshCable with
    powerOn := freshChannel content
    words := promptWords content lbas }

theorem promptCable_backs (content : Nat → UInt8) (lbas : List UInt32) :
    (promptCable content lbas).Backs ⟨0, 0, 0, 512⟩ where
  present := freshCable_backs.present
  ata := rfl
  lba := freshCable_backs.lba
  control := freshCable_backs.control
  capacity := rfl
  geometry := ⟨.inl rfl, rfl⟩
  drive := rfl

/-- The kernel over this drive. -/
def promptKernel (k : Kernel Disk) (lbas : List UInt32) : Kernel Ata where
  mem := k.mem
  console := k.console
  dev := { (freshKernel (promptTape lbas)).dev with
    words := promptWords k.dev.content lbas }
  kMemoryMap := k.kMemoryMap
  cr3 := k.cr3

/-- And what is seen of it. -/
def promptState (k : Kernel Disk) : Kernel Disk :=
  { k with dev := ⟨512, fun lba => if lba.toNat < 1000 then 0 else 2, k.dev.content⟩ }

theorem promptKernel_map (k : Kernel Disk) (lbas : List UInt32) :
    (promptCable k.dev.content lbas).view.kernel.map (promptKernel k lbas) = promptState k := rfl

theorem promptKernel_prompt (k : Kernel Disk) (lbas : List UInt32) :
    (promptCable k.dev.content lbas).Prompt lbas (promptKernel k lbas).dev :=
  ⟨⟨rfl, rfl, rfl, (skip_zero _).symm⟩, rfl, rfl, rfl, _, rfl, rfl, rfl, rfl, rfl⟩

end Bedrock
