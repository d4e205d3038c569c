import Bedrock.Proofs.DriveTransfers

/-!
# What a packet command moves

`ide_atapi_read` over a channel of drives. The registers tell the drive that its
blocks may have 2048 bytes, the packet which sectors are wanted; then the drive
sends one block for each of them. The interrupts that the driver waits for in
between leave no trace in the log: without them a run does not return.
-/

namespace Bedrock

open Lib

/-! ## The packet -/

/-- The words of a list of bytes hold them. -/
theorem blockByte_packet {bytes : List UInt8} {n i : Nat} (hi : i < 2 * n) :
    blockByte ((List.range n).map fun j => UInt16.ofNat ((bytes.getD (2 * j) 0).toNat +
      2 ^ 8 * (bytes.getD (2 * j + 1) 0).toNat)) i = bytes.getD i 0 := by
  have h : blockByte (mediumWords (fun j => bytes.getD j 0) 0 n) i = bytes.getD (0 + i) 0 :=
    blockByte_mediumWords hi
  rw [mediumWords, Nat.zero_add] at h
  simpa only [le16, Nat.zero_add] using h

/-- Byte `k` of a word, shifted down and cut off. -/
theorem toNat_shifted (lba k : UInt32) (hk : k.toNat < 32) :
    ((lba >>> k) &&& 0xFF).toUInt8.toNat = lba.toNat / 2 ^ k.toNat % 2 ^ 8 := by
  have hmask : (0xFF : UInt32).toNat = 2 ^ 8 - 1 := rfl
  rw [UInt32.toNat_toUInt8, UInt32.toNat_and, UInt32.toNat_shiftRight, Nat.mod_eq_of_lt hk,
    hmask, Nat.and_two_pow_sub_one_eq_mod, Nat.shiftRight_eq_div_pow, Nat.mod_mod]

/-- The packet asks for `numsects` sectors from `lba` on. -/
theorem ofPacket_atapiPacket (capacity : Nat → Nat) (unit : Nat) (lba : UInt32)
    (numsects : UInt8) :
    Phase.ofPacket capacity unit 2048 (atapiPacket lba numsects) =
      if 2048 * (lba.toNat + numsects.toNat) ≤ capacity unit then
        some (.send unit (2048 * lba.toNat) 2048 numsects.toNat)
      else none := by
  have hbyte : ∀ i < 12, blockByte (atapiPacket lba numsects) i = _ := fun i hi =>
    blockByte_packet (n := 6) hi
  have hlt := lba.toNat_lt
  have h24 : ((lba >>> 24) &&& 0xFF).toUInt8.toNat = lba.toNat / 2 ^ 24 % 2 ^ 8 :=
    toNat_shifted lba 24 (by decide)
  have h16 : ((lba >>> 16) &&& 0xFF).toUInt8.toNat = lba.toNat / 2 ^ 16 % 2 ^ 8 :=
    toNat_shifted lba 16 (by decide)
  have h8 : ((lba >>> 8) &&& 0xFF).toUInt8.toNat = lba.toNat / 2 ^ 8 % 2 ^ 8 :=
    toNat_shifted lba 8 (by decide)
  have h0 : ((lba >>> 0) &&& 0xFF).toUInt8.toNat = lba.toNat / 2 ^ 0 % 2 ^ 8 :=
    toNat_shifted lba 0 (by decide)
  have hlba : 2 ^ 24 * ((lba >>> 24) &&& 0xFF).toUInt8.toNat +
      2 ^ 16 * ((lba >>> 16) &&& 0xFF).toUInt8.toNat +
      2 ^ 8 * ((lba >>> 8) &&& 0xFF).toUInt8.toNat +
      ((lba >>> 0) &&& 0xFF).toUInt8.toNat = lba.toNat := by
    rw [h24, h16, h8, h0]
    omega
  have hcount : 2048 * numsects.toNat / 2048 = numsects.toNat :=
    Nat.mul_div_cancel_left _ (by decide)
  simp only [Phase.ofPacket, hbyte 0 (by decide), hbyte 2 (by decide), hbyte 3 (by decide),
    hbyte 4 (by decide), hbyte 5 (by decide), hbyte 6 (by decide), hbyte 7 (by decide),
    hbyte 8 (by decide), hbyte 9 (by decide), List.getD_cons_zero, List.getD_cons_succ]
  rw [hlba]
  simp only [UInt8.reduceToNat, true_and, Nat.mul_zero, Nat.zero_add, hcount]

/-! ## Loading the registers -/

section

variable {channel : Fin 2} {c : IdeChannelRegisters} {s t : Machine Ata} {edi : UInt32}

/-- A register written. -/
theorem ideWrite_replayed (hctrl : ControlApart c) (hc : s.dev.channels channel = c)
    {reg : UInt8} (hreg : reg < 0x0D) (hne : reg ≠ 0x07) {data : UInt8}
    (h : (ideWrite channel reg data).run s = .ok () t) :
    (t.dev.channels = s.dev.channels ∧ t.mem = s.mem) ∧
      Replayed c.base (altStatusPort c) s t fun ch ch' =>
        ch' = { ch with drives := observe c.base ch.drives (writeEvents c reg data) } := by
  rw [ideWrite_sends reg data s hc] at h
  cases h
  refine ⟨⟨rfl, rfl⟩, _, rfl, ?_, fun ch ch' hplay => ?_⟩
  · rw [received_notBlock (writeEvents_notBlock _ _ _), skip_zero]
    rfl
  · rw [play_loads _ (writeEvents_loads hctrl hreg hne data)] at hplay
    exact (Option.some.inj hplay).symm

/-- The wait for an interrupt is nothing to the channel. -/
theorem ideWaitIrq_replayed (base alt : UInt16) (h : ideWaitIrq.run s = .ok () t) :
    (t.dev.channels = s.dev.channels ∧ t.mem = s.mem) ∧ Replayed base alt s t Eq := by
  rw [ideWaitIrq, Exec.bind_ok (EStateM.run_get s)] at h
  by_cases hstop : s.dev.ideIrqInvoked = 0 ∧ s.dev.irqs = 0
  · simp only [if_pos hstop] at h
    cases h
  · simp only [if_neg hstop] at h
    cases h
    exact ⟨⟨rfl, rfl⟩, [], (List.append_nil _).symm, (skip_zero _).symm,
      fun ch ch' hplay => Option.some.inj hplay⟩

/-- A phase that only reads registers. -/
theorem replayed_heard (base alt : UInt16) {es : List PortEvent} {rest : List UInt8}
    (hread : ∀ e ∈ es, e.IsRead) :
    Replayed base alt s (s.heard es rest) Channel.Waited := by
  refine ⟨es, rfl, ?_, fun ch ch' hplay => ?_⟩
  · rw [received_notBlock fun e he => (hread e he).notBlock, skip_zero]
    rfl
  · obtain ⟨bs, hbs⟩ := accesses_reads base alt hread s.dev.words
    rw [hbs] at hplay
    exact (Channel.statuses_waited hplay).1

/-! ## The loop -/

/-- The blocks of a packet command, each after an interrupt. -/
theorem atapiReceive_replayed {n : Nat} {err : UInt8} (hc : s.dev.channels channel = c)
    (hn : 2048 * n ≤ 2 ^ 32) (h : (atapiReceive channel c.base n edi).run s = .ok err t) :
    Replayed c.base (altStatusPort c) s t fun ch ch' =>
      ∀ unit pos, ch.settle ≤ 4 → ch.phase = .send unit pos 2048 n →
        ∃ k, Fetched n k err ch ch' ∧
          t.mem = s.mem.write edi (2048 * k) fun i => ch.content unit (pos + i) := by
  induction n generalizing s edi with
  | zero =>
      rw [atapiReceive] at h
      obtain ⟨_, s₁, hirq, h⟩ := Exec.bind_inv h
      obtain ⟨_, s₂, hwait, h⟩ := Exec.bind_inv h
      obtain ⟨rfl, rfl⟩ := Exec.pure_inv h
      obtain ⟨⟨-, hmem₁⟩, hsame⟩ := ideWaitIrq_replayed c.base (altStatusPort c) hirq
      obtain ⟨bs, b, rest, -, rfl⟩ := waitWhile_inv hwait
      refine (hsame.trans (replayed_heard _ _ (onlyReads_map _ _))).mono ?_
      rintro ch ch' ⟨ch₁, rfl, hwaited⟩ unit pos - -
      refine ⟨0, ⟨hwaited.content, .inl ⟨rfl, rfl⟩, hwaited.failures_le, fun _ => rfl⟩, ?_⟩
      exact hmem₁.trans Mem.write_zero.symm
  | succ n ih =>
      rw [atapiReceive] at h
      obtain ⟨_, s₁, hirq, h⟩ := Exec.bind_inv h
      obtain ⟨err₁, s₂, hpoll, h⟩ := Exec.bind_inv h
      obtain ⟨⟨hchannels, hmem₁⟩, hsame⟩ := ideWaitIrq_replayed c.base (altStatusPort c) hirq
      have hc₁ : s₁.dev.channels channel = c := by rw [hchannels, hc]
      split at h
      · rename_i herr
        obtain ⟨rfl, rfl⟩ := Exec.pure_inv h
        obtain ⟨hmem, hrefused⟩ := refused_block hc₁ hpoll herr
        refine (hsame.trans hrefused).mono ?_
        rintro ch ch' ⟨ch₁, rfl, hch'⟩ unit pos hsettle hphase
        obtain ⟨hcode, -, hcontent, hfailed, hfailures⟩ := hch' hsettle (by rw [hphase]; rfl)
        refine ⟨0, ⟨hcontent, .inr ⟨Nat.succ_pos n, hcode, hfailed⟩, by omega,
          fun h => by omega⟩, ?_⟩
        rw [hmem, hmem₁, Nat.mul_zero, Mem.write_zero]
      · rename_i herr
        rw [ne_eq, not_not] at herr
        subst herr
        obtain ⟨_, s₃, hin, h⟩ := Exec.bind_inv h
        obtain ⟨hc₃, hblock⟩ := received_block hc₁ hpoll hin
        refine ((hsame.trans hblock).trans (ih hc₃ (by omega) h)).mono ?_
        rintro ch ch' ⟨ch₂, ⟨ch₁, rfl, hch₂⟩, hch'⟩ unit pos hsettle hphase
        obtain ⟨-, hcontent₂, hphase₂, hsettle₂, hfailures, hdata⟩ :=
          hch₂ unit pos n hsettle hphase
        obtain ⟨k, hfetched, hmem⟩ :=
          hch' unit (pos + 2048) (Nat.le_of_eq hsettle₂) hphase₂
        have hle : k ≤ n := by
          rcases hfetched.outcome with ⟨hk, -⟩ | ⟨hk, -⟩ <;> omega
        refine ⟨k + 1, ⟨hfetched.content.trans hcontent₂, ?_, hfailures ▸ hfetched.failures,
          fun h => hfetched.clean (h.trans hfailures.symm)⟩, ?_⟩
        · exact hfetched.outcome.imp (fun h => ⟨congrArg (· + 1) h.1, h.2⟩)
            (fun h => ⟨Nat.succ_lt_succ h.1, h.2⟩)
        · rw [← write_block (by omega), hmem, hdata, hmem₁, hcontent₂]
          simp only [Nat.add_assoc]
          rfl

/-- A channel that has failed sends none. -/
theorem atapiReceive_refused {n : Nat} {err : UInt8} (hc : s.dev.channels channel = c)
    (hn : 2048 * n ≤ 2 ^ 32) (hpos : 0 < n)
    (h : (atapiReceive channel c.base n edi).run s = .ok err t) :
    Replayed c.base (altStatusPort c) s t fun ch ch' =>
      ch.settle ≤ 4 → ch.phase = .failed → ch.busy = false →
        (err = 1 ∨ err = 2) ∧ t.mem = s.mem ∧ Stays ch ch' := by
  obtain ⟨m, rfl⟩ : ∃ m, n = m + 1 := ⟨n - 1, by omega⟩
  rw [atapiReceive] at h
  obtain ⟨_, s₁, hirq, h⟩ := Exec.bind_inv h
  obtain ⟨err₁, s₂, hpoll, h⟩ := Exec.bind_inv h
  obtain ⟨⟨hchannels, hmem₁⟩, hsame⟩ := ideWaitIrq_replayed c.base (altStatusPort c) hirq
  have hc₁ : s₁.dev.channels channel = c := by rw [hchannels, hc]
  obtain ⟨hmem, hfailed⟩ := failed_block hc₁ hpoll
  split at h
  · obtain ⟨rfl, rfl⟩ := Exec.pure_inv h
    refine (hsame.trans hfailed).mono ?_
    rintro ch ch' ⟨ch₁, rfl, hch'⟩ hsettle hphase hbusy
    exact ⟨(hch' hsettle hphase hbusy).1, hmem.trans hmem₁, (hch' hsettle hphase hbusy).2⟩
  · rename_i herr
    rw [ne_eq, not_not] at herr
    subst herr
    obtain ⟨_, s₃, hin, h⟩ := Exec.bind_inv h
    have hc₃ := (received_block hc₁ hpoll hin).1
    have hrest := (repInsw_replayed (altStatusPort c) hin).trans
      (atapiReceive_replayed hc₃ (by omega) h)
    refine (hsame.trans (hfailed.trans hrest)).mono ?_
    rintro ch ch'' ⟨ch₁, rfl, ch', hch', -⟩ hsettle hphase hbusy
    rcases (hch' hsettle hphase hbusy).1 with h1 | h2
    · cases h1
    · cases h2

/-! ## The command -/

/-- The channel when it waits for the packet. -/
structure Asked (unit : Nat) (ch ch' : Channel) : Prop where
  content : ch'.content = ch.content
  capacity : ch'.capacity = ch.capacity
  settle : ch'.settle = 4
  phase : ch'.phase = .packet unit
  byteCount : ch'.byteCount = 2048
  failures : ch.failures ≤ ch'.failures

/-- The registers as `ide_atapi_read` leaves them name the unit and the length of
a block. -/
theorem packetFile (capacity : Nat → Nat) {d d' : DriveState} (slavebit : Fin 2)
    (h : d' = (((d.write 6 (UInt8.ofNat slavebit.val <<< 4)).write 1 0).write 4 0).write 5 8) :
    Phase.ofCommand capacity (d'.file.decode 0xA0) = some (.packet slavebit.val) ∧
      (d'.write 7 0xA0).file.lbaMid.current.toNat +
        2 ^ 8 * (d'.write 7 0xA0).file.lbaHigh.current.toNat = 2048 := by
  subst h
  have hunit : (UInt8.ofNat slavebit.val <<< 4).toNat / 16 % 2 = slavebit.val := by
    revert slavebit
    decide
  refine ⟨?_, rfl⟩
  show some (Phase.packet ((UInt8.ofNat slavebit.val <<< 4).toNat / 16 % 2)) = _
  rw [hunit]

/-- The steps of `ide_atapi_read` up to the command. -/
def atapiAsk (channel slavebit : Fin 2) : Drv Unit := do
  ideWrite channel 0x0C 0
  ideWrite channel 0x06 (UInt8.ofNat slavebit.val <<< 4)
  delay400 channel
  ideWrite channel 0x01 0
  ideWrite channel 0x04 0x00
  ideWrite channel 0x05 0x08
  ideWrite channel 0x07 0xA0

theorem atapiAsk_replayed (hctrl : ControlApart c) (hc : s.dev.channels channel = c)
    {slavebit : Fin 2} (h : (atapiAsk channel slavebit).run s = .ok () t) :
    (t.dev.channels channel = c ∧ t.mem = s.mem) ∧
      Replayed c.base (altStatusPort c) s t (Asked slavebit.val) := by
  obtain ⟨_, s₁, h₁, h⟩ := Exec.bind_inv h
  obtain ⟨_, s₂, h₂, h⟩ := Exec.bind_inv h
  obtain ⟨_, s₃, h₃, h⟩ := Exec.bind_inv h
  obtain ⟨_, s₄, h₄, h⟩ := Exec.bind_inv h
  obtain ⟨_, s₅, h₅, h⟩ := Exec.bind_inv h
  obtain ⟨_, s₆, h₆, h₇⟩ := Exec.bind_inv h
  obtain ⟨⟨hc₁, hm₁⟩, hr₁⟩ := ideWrite_replayed hctrl hc (by decide) (by decide) h₁
  rw [← hc₁] at hc
  obtain ⟨⟨hc₂, hm₂⟩, hr₂⟩ := ideWrite_replayed hctrl hc (by decide) (by decide) h₂
  rw [← hc₂] at hc
  obtain ⟨ds, -, rfl⟩ := delay400_heard h₃
  have hr₃ : Replayed c.base (altStatusPort c) s₂ (s₂.heard _ (s₂.dev.inbox.drop 4))
      Channel.Waited :=
    replayed_heard _ _ (onlyReads_map (altStatusPort (s₂.dev.channels channel)) ds)
  obtain ⟨⟨hc₄, hm₄⟩, hr₄⟩ := ideWrite_replayed hctrl (s := s₂.heard _ _) hc (by decide)
    (by decide) h₄
  have hc' : s₄.dev.channels channel = c := by
    rw [hc₄]
    exact hc
  obtain ⟨⟨hc₅, hm₅⟩, hr₅⟩ := ideWrite_replayed hctrl hc' (by decide) (by decide) h₅
  rw [← hc₅] at hc'
  obtain ⟨⟨hc₆, hm₆⟩, hr₆⟩ := ideWrite_replayed hctrl hc' (by decide) (by decide) h₆
  rw [← hc₆] at hc'
  rw [ideWrite_sends _ _ s₆ hc'] at h₇
  cases h₇
  refine ⟨⟨hc', ?_⟩, ?_⟩
  · show s₆.mem = s.mem
    rw [hm₆, hm₅, hm₄, ← hm₁, ← hm₂]
    rfl
  · have hr₇ : Replayed c.base (altStatusPort c) s₆ (s₆.loggedAll (writeEvents c 0x07 0xA0))
        fun ch ch' => ch' = ({ ch with drives := ch.drives.write 7 0xA0 } : Channel).accept
          (Phase.ofCommand ch.capacity (ch.drives.file.decode 0xA0)) := by
      refine ⟨_, rfl, ?_, fun ch ch' hplay => ?_⟩
      · rw [received_notBlock (writeEvents_notBlock _ _ _), skip_zero]
        rfl
      · rw [play_command] at hplay
        exact (Option.some.inj hplay).symm
    refine ((((((hr₁.trans hr₂).trans hr₃).trans hr₄).trans hr₅).trans hr₆).trans hr₇).mono ?_
    rintro ch ch₇ ⟨ch₆, ⟨ch₅, ⟨ch₄, ⟨ch₃, ⟨ch₂, ⟨ch₁, rfl, rfl⟩, hwait⟩, rfl⟩, rfl⟩, rfl⟩, rfl⟩
    have h1 : ∀ d data, observe c.base d (writeEvents c 0x01 data) = d.write 1 data :=
      fun d data => observe_block d data (by decide)
    have h4 : ∀ d data, observe c.base d (writeEvents c 0x04 data) = d.write 4 data :=
      fun d data => observe_block d data (by decide)
    have h5 : ∀ d data, observe c.base d (writeEvents c 0x05 data) = d.write 5 data :=
      fun d data => observe_block d data (by decide)
    have h6 : ∀ d data, observe c.base d (writeEvents c 0x06 data) = d.write 6 data :=
      fun d data => observe_block d data (by decide)
    simp only [h5, h4, h1, hwait.drives, h6]
    generalize hd : (((DriveState.write _ 6 _).write 1 0).write 4 0).write 5 8 = d
    rw [hwait.capacity]
    obtain ⟨hphase, hcount⟩ := packetFile ch.capacity slavebit hd.symm
    rw [hphase]
    exact ⟨hwait.content, rfl, rfl, rfl, hcount, hwait.failures_le⟩

end

/-- `ide_atapi_read` asks, sends the packet and receives. -/
theorem ideAtapiRead_eq (s : Machine Ata) (drive numsects : UInt8) (lba edi : UInt32)
    (selector : UInt16) :
    let device := s.dev.ideDevices drive
    (ideAtapiRead drive lba numsects selector edi).run s = (do
      setNIEN device.channel 0
      atapiAsk device.channel device.drive
      let err ← idePolling device.channel true
      if err ≠ 0 then
        return err
      repOutsw (s.dev.channels device.channel).base (atapiPacket lba numsects)
      atapiReceive device.channel (s.dev.channels device.channel).base numsects.toNat edi :
        Drv UInt8).run s := by
  rw [ideAtapiRead, Exec.bind_ok (EStateM.run_get s)]
  simp only [atapiAsk, bind_assoc]

section

variable {s t : Machine Ata} {c : IdeChannelRegisters} {lba : UInt32} {numsects : UInt8}

/-- The packet sent to a drive that waits for it. -/
theorem packet_replayed (alt : UInt16)
    (h : (repOutsw c.base (atapiPacket lba numsects)).run s = .ok () t) :
    (t.dev.channels = s.dev.channels ∧ t.mem = s.mem) ∧
      Replayed c.base alt s t fun ch ch' =>
        ∀ unit, ch.Ready → ch.phase = .packet unit → ch.byteCount = 2048 →
          ch' = if 2048 * (lba.toNat + numsects.toNat) ≤ ch.capacity unit then
              ch.begin (.send unit (2048 * lba.toNat) 2048 numsects.toNat)
            else { ch.fail with settle := 4 } := by
  cases h
  refine ⟨⟨rfl, rfl⟩, [.outsw c.base (atapiPacket lba numsects)], rfl, (skip_zero _).symm,
    fun ch ch' hplay unit hready hphase hcount => ?_⟩
  rw [accesses, if_pos rfl, accesses, Channel.play_cons] at hplay
  obtain ⟨ch₁, hstep, hend⟩ := Option.bind_eq_some_iff.mp hplay
  obtain rfl : ch₁ = ch' := Option.some.inj hend
  have hlen : (atapiPacket lba numsects).length = 6 := by
    rw [atapiPacket, List.length_map, List.length_range]
  rw [Channel.step, if_pos hready, Channel.take, hphase] at hstep
  simp only [hlen, ne_eq, not_true_eq_false, if_false, hcount, ofPacket_atapiPacket] at hstep
  rw [← Option.some.inj hstep]
  split <;> rfl

end

/-! ## Main result -/

/-- `ide_atapi_read` over a channel of drives delivers the sectors it was asked
for, and where it returns an error, those before the one that failed. -/
theorem ideAtapiRead_delivers {s t : Machine Ata} {drive numsects err : UInt8} {lba edi : UInt32}
    {selector : UInt16} {c : IdeChannelRegisters}
    (hc : s.dev.channels (s.dev.ideDevices drive).channel = c) (hctrl : ControlApart c)
    (hn : numsects ≠ 0)
    (h : (ideAtapiRead drive lba numsects selector edi).run s = .ok err t) :
    Replayed c.base (altStatusPort c) s t fun ch ch' =>
      let unit := (s.dev.ideDevices drive).drive.val
      (err = 0 → 2048 * (lba.toNat + numsects.toNat) ≤ ch.capacity unit) ∧
      ∃ k, Fetched numsects.toNat k err ch ch' ∧
        t.mem = s.mem.write edi (2048 * k) fun i => ch.content unit (2048 * lba.toNat + i) := by
  have hpos : 0 < numsects.toNat := Nat.pos_of_ne_zero fun h0 => hn (UInt8.toNat_inj.mp h0)
  have hlt := numsects.toNat_lt
  rw [ideAtapiRead_eq, hc] at h
  obtain ⟨_, s₁, hset, h⟩ := Exec.bind_inv h
  obtain ⟨_, s₂, hask, h⟩ := Exec.bind_inv h
  obtain ⟨err₁, s₃, hpoll, h⟩ := Exec.bind_inv h
  let c₀ : IdeChannelRegisters := { c with nIEN := 0 }
  have hs₁ : s₁.dev.channels (s.dev.ideDevices drive).channel = c₀ ∧ s₁.mem = s.mem ∧
      Replayed c.base (altStatusPort c) s s₁ Eq := by
    cases hset
    refine ⟨?_, rfl, [], (List.append_nil _).symm, (skip_zero _).symm,
      fun ch ch' hplay => Option.some.inj hplay⟩
    show Function.update s.dev.channels (s.dev.ideDevices drive).channel
      { s.dev.channels (s.dev.ideDevices drive).channel with nIEN := 0 } _ = c₀
    rw [Function.update_self, hc]
  obtain ⟨hc₁, hmem₁, hsame⟩ := hs₁
  obtain ⟨⟨hc₂, hmem₂⟩, hasked⟩ := atapiAsk_replayed (c := c₀) hctrl hc₁ hask
  have hcommand := hsame.trans hasked
  split at h
  · rename_i herr
    obtain ⟨rfl, rfl⟩ := Exec.pure_inv h
    obtain ⟨hmem, hrefused⟩ := refused_block hc₂ hpoll herr
    refine (hcommand.trans hrefused).mono ?_
    rintro ch ch' ⟨ch₂, ⟨ch₁, rfl, hch₂⟩, hch'⟩
    obtain ⟨hcode, -, hcontent, hfailed, hfailures⟩ :=
      hch' (Nat.le_of_eq hch₂.settle) (by rw [hch₂.phase]; rfl)
    have hfirst := hch₂.failures
    refine ⟨fun h0 => absurd h0 herr, 0, ⟨hcontent.trans hch₂.content,
      .inr ⟨hpos, hcode, hfailed⟩, by omega, fun h => by omega⟩, ?_⟩
    rw [hmem, hmem₂, hmem₁, Nat.mul_zero, Mem.write_zero]
  · rename_i herr
    rw [ne_eq, not_not] at herr
    subst herr
    obtain ⟨_, s₄, hsend, h⟩ := Exec.bind_inv h
    obtain ⟨hmem₃, hgranted⟩ := granted_block hc₂ hpoll
    have hc₃ := ((onlyReads_idePolling _ true).of_ok hpoll).channels
    obtain ⟨⟨hc₄, hmem₄⟩, hpacket⟩ := packet_replayed (altStatusPort c) hsend
    have hc₅ : s₄.dev.channels (s.dev.ideDevices drive).channel = c₀ := by
      rw [hc₄, hc₃, hc₂]
    have hreceive := atapiReceive_replayed (c := c₀) hc₅ (by omega) h
    have hstop := atapiReceive_refused (c := c₀) hc₅ (by omega) hpos h
    have hmem : s₄.mem = s.mem := by rw [hmem₄, hmem₃, hmem₂, hmem₁]
    refine ((hcommand.trans (hgranted.trans hpacket)).trans (hreceive.and hstop)).mono ?_
    rintro ch ch' ⟨ch₄, ⟨ch₂, ⟨ch₁, rfl, hch₂⟩, ch₃, hch₃, hch₄⟩, hreceive, hstop⟩
    obtain ⟨hready, hdrives, hcapacity, hcontent₃, hphase₃, hfailures₃⟩ :=
      hch₃ (Nat.le_of_eq hch₂.settle)
    have hcount : ch₃.byteCount = 2048 := by
      rw [← hch₂.byteCount, Channel.byteCount, hdrives]
      rfl
    have hnext := hch₄ _ hready (hphase₃.trans hch₂.phase) hcount
    have hfirst := hch₂.failures
    rw [hcapacity, hch₂.capacity] at hnext
    split at hnext
    · rename_i hroom
      subst hnext
      obtain ⟨k, hfetched, hdata⟩ := hreceive _ _ (Nat.le_refl 4) rfl
      have hlast : ch₃.failures ≤ ch'.failures := hfetched.failures
      refine ⟨fun _ => hroom, k, ⟨hfetched.content.trans (hcontent₃.trans hch₂.content),
        hfetched.outcome, by omega, fun h => hfetched.clean ?_⟩, ?_⟩
      · show ch'.failures = ch₃.failures
        omega
      · rw [hdata, hmem, ← hch₂.content, ← hcontent₃]
        rfl
    · subst hnext
      obtain ⟨hcode, hdata, hstays⟩ := hstop (Nat.le_refl 4) rfl rfl
      have hlast : ch'.failures = ch₃.failures + 1 := hstays.failures
      refine ⟨fun h0 => ?_, 0, ⟨hstays.content.trans (hcontent₃.trans hch₂.content),
        .inr ⟨hpos, hcode, hstays.phase⟩, by omega, fun h => by omega⟩, ?_⟩
      · subst h0
        rcases hcode with h1 | h2
        · cases h1
        · cases h2
      · rw [hdata, hmem, Nat.mul_zero, Mem.write_zero]

/-- Sector 3 of a disc, with an interrupt for the block and one for the end. -/
theorem ideAtapiRead_delivers_one :
    let a := ataBoot ⟨1, 0, 0, .atapi, 0x200, 1000, []⟩
      [0xD0, 0xD0, 0xD0, 0xD0, 0xD0, 0xD0, 0xD0, 0xD0, 0xD0, 0x58, 0x58,
       0xD0, 0xD0, 0xD0, 0xD0, 0xD0, 0x58, 0x58, 0x50]
    let s : Machine Ata :=
      { a with dev.irqs := 2, dev.words := fun j => le16 numbered (2048 * 3 + 2 * j) }
    let ch := { freshChannel numbered with settle := 4, busy := true }
    ∃ t ch', (ideAtapiRead 0 3 1 0x10 0x5000).run s = .ok 0 t ∧
      ch.play (accesses 0x1F0 0x3F6 t.dev.log s.dev.words) = some ch' ∧
      ∃ k, Fetched 1 k 0 ch ch' ∧
        t.mem = s.mem.write 0x5000 (2048 * k) fun i => ch.content 0 (2048 * 3 + i) := by
  intro a s ch
  have hrun : (ideAtapiRead 0 3 1 0x10 0x5000).run s = .ok 0 _ :=
    Exec.ok_of_answer (by decide +kernel)
  have hplay : (ch.play (accesses 0x1F0 0x3F6 (Exec.final
      ((ideAtapiRead 0 3 1 0x10 0x5000).run s)).dev.log s.dev.words)).isSome := by
    decide +kernel
  obtain ⟨ch', hch'⟩ := Option.isSome_iff_exists.mp hplay
  have hdelivers := ideAtapiRead_delivers rfl (by decide) (by decide) hrun
  exact ⟨_, ch', hrun, hch', (hdelivers.apply (List.nil_append _).symm hch').2⟩

end Bedrock
