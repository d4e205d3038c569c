import Bedrock.Lib.PioChannel
import Bedrock.Proofs.AtaRange

/-!
# The log replayed on a channel of drives

The hardware of the driver's model is a tape, and a tape can hold anything. This
module puts a channel of drives behind the log: the port accesses of a channel
become the accesses of the cable, with the words that the data port had in
store, and the run is one that drives could have produced when the channel can
replay them.

`Replayed` says what follows of a phase of the driver if that is so. It composes
along a run, so each phase is looked at once.
-/

namespace Bedrock

open Lib

/-! ## From ports to the cable -/

/-- The words that a log has taken off the data ports. -/
def received : List PortEvent → Nat
  | [] => 0
  | .insw _ n :: es => n + received es
  | _ :: es => received es

/-- The stream of words without its first `n`. -/
def skip (n : Nat) (w : Nat → UInt16) : Nat → UInt16 := fun i => w (n + i)

theorem skip_zero (w : Nat → UInt16) : skip 0 w = w := by
  funext i
  rw [skip, Nat.zero_add]

theorem skip_skip (m n : Nat) (w : Nat → UInt16) : skip n (skip m w) = skip (m + n) w := by
  funext i
  rw [skip, skip, skip, Nat.add_assoc]

/-- What a log means on the channel with these ports, while `w` is the stream
of words at the data ports. The status can be read at two ports. -/
def accesses (base alt : UInt16) : List PortEvent → (Nat → UInt16) → List Access
  | [], _ => []
  | .outb port data :: es, w =>
      if (port - base).toNat < 8 then
        .put (port - base).toNat data :: accesses base alt es w
      else accesses base alt es w
  | .inb port b :: es, w =>
      if port = base + 7 ∨ port = alt then .status b :: accesses base alt es w
      else accesses base alt es w
  | .insw port n :: es, w =>
      if port = base then .dataIn ((List.range n).map w) :: accesses base alt es (skip n w)
      else accesses base alt es (skip n w)
  | .outsw port data :: es, w =>
      if port = base then .dataOut data :: accesses base alt es w
      else accesses base alt es w

theorem received_append (es es' : List PortEvent) :
    received (es ++ es') = received es + received es' := by
  induction es with
  | nil => rw [List.nil_append, received, Nat.zero_add]
  | cons e es ih =>
      cases e with
      | insw port n => rw [List.cons_append, received, received, ih, Nat.add_assoc]
      | outb port data => exact ih
      | inb port b => exact ih
      | outsw port data => exact ih

section

variable {base alt : UInt16}

theorem accesses_append (es es' : List PortEvent) (w : Nat → UInt16) :
    accesses base alt (es ++ es') w =
      accesses base alt es w ++ accesses base alt es' (skip (received es) w) := by
  induction es generalizing w with
  | nil =>
      rw [List.nil_append, accesses, List.nil_append, received, skip_zero]
  | cons e es ih =>
      cases e with
      | insw port n =>
          rw [List.cons_append, accesses, accesses, received, ← skip_skip]
          split
          · rw [ih, List.cons_append]
          · exact ih _
      | outb port data =>
          rw [List.cons_append, accesses, accesses]
          split
          · rw [ih, List.cons_append]
            rfl
          · exact ih _
      | inb port b =>
          rw [List.cons_append, accesses, accesses]
          split
          · rw [ih, List.cons_append]
            rfl
          · exact ih _
      | outsw port data =>
          rw [List.cons_append, accesses, accesses]
          split
          · rw [ih, List.cons_append]
            rfl
          · exact ih _

/-- Reads of registers are reads of the status, or nothing to the channel. -/
theorem accesses_reads (base alt : UInt16) {es : List PortEvent} (h : ∀ e ∈ es, e.IsRead)
    (w : Nat → UInt16) : ∃ bs : List UInt8, accesses base alt es w = bs.map .status := by
  induction es with
  | nil => exact ⟨[], rfl⟩
  | cons e es ih =>
      obtain ⟨bs, hbs⟩ := ih fun e' he' => h e' (List.mem_cons_of_mem e he')
      cases e with
      | inb port b =>
          rw [accesses, hbs]
          split
          · exact ⟨b :: bs, rfl⟩
          · exact ⟨bs, rfl⟩
      | outb port data => exact (h _ List.mem_cons_self).elim
      | insw port n => exact (h _ List.mem_cons_self).elim
      | outsw port data => exact (h _ List.mem_cons_self).elim

/-- The status, read at one of its ports. -/
theorem accesses_status {port : UInt16} (hport : port = base + 7 ∨ port = alt)
    (bs : List UInt8) (w : Nat → UInt16) :
    accesses base alt (bs.map (.inb port)) w = bs.map .status := by
  induction bs with
  | nil => rfl
  | cons b bs ih => rw [List.map_cons, accesses, if_pos hport, ih, List.map_cons]

/-- Only blocks take words off the stream. -/
theorem received_notBlock {es : List PortEvent} (h : ∀ e ∈ es, ¬ e.IsBlock) :
    received es = 0 := by
  induction es with
  | nil => rfl
  | cons e es ih =>
      have hrest := ih fun e' he' => h e' (List.mem_cons_of_mem e he')
      cases e with
      | insw port n => exact absurd trivial (h _ List.mem_cons_self)
      | outb port data => exact hrest
      | inb port b => exact hrest
      | outsw port data => exact hrest

/-! ## A phase replayed -/

/-- From `s` to `t` the driver made accesses which, wherever the channel can
replay them, take it from a state to one related by `R`. -/
def Replayed (base alt : UInt16) (s t : Machine Ata) (R : Channel → Channel → Prop) : Prop :=
  ∃ es, t.dev.log = s.dev.log ++ es ∧ t.dev.words = skip (received es) s.dev.words ∧
    ∀ ch ch', ch.play (accesses base alt es s.dev.words) = some ch' → R ch ch'

variable {s t u : Machine Ata} {R R' : Channel → Channel → Prop}

theorem Replayed.refl (s : Machine Ata) : Replayed base alt s s Eq := by
  refine ⟨[], (List.append_nil _).symm, (skip_zero _).symm, fun ch ch' h => Option.some.inj h⟩

theorem Replayed.mono (h : Replayed base alt s t R) (hle : ∀ ch ch', R ch ch' → R' ch ch') :
    Replayed base alt s t R' := by
  obtain ⟨es, hlog, hwords, hplay⟩ := h
  exact ⟨es, hlog, hwords, fun ch ch' h => hle ch ch' (hplay ch ch' h)⟩

/-- The states of a run that a channel has replayed. -/
theorem Replayed.apply (h : Replayed base alt s t R) {es : List PortEvent} {ch ch' : Channel}
    (hlog : t.dev.log = s.dev.log ++ es)
    (hplay : ch.play (accesses base alt es s.dev.words) = some ch') : R ch ch' := by
  obtain ⟨es', hlog', -, hall⟩ := h
  rw [List.append_cancel_left (hlog.symm.trans hlog')] at hplay
  exact hall ch ch' hplay

theorem Replayed.and (h : Replayed base alt s t R) (h' : Replayed base alt s t R') :
    Replayed base alt s t fun ch ch' => R ch ch' ∧ R' ch ch' := by
  obtain ⟨es, hlog, hwords, hplay⟩ := h
  exact ⟨es, hlog, hwords, fun ch ch' hch => ⟨hplay ch ch' hch, h'.apply hlog hch⟩⟩

theorem Replayed.trans (h : Replayed base alt s t R) (h' : Replayed base alt t u R') :
    Replayed base alt s u fun ch ch'' => ∃ ch', R ch ch' ∧ R' ch' ch'' := by
  obtain ⟨es, hlog, hwords, hplay⟩ := h
  obtain ⟨es', hlog', hwords', hplay'⟩ := h'
  refine ⟨es ++ es', ?_, ?_, fun ch ch'' hall => ?_⟩
  · rw [hlog', hlog, List.append_assoc]
  · rw [hwords', hwords, skip_skip, received_append]
  · rw [accesses_append, ← hwords] at hall
    obtain ⟨ch', hfirst, hrest⟩ := Channel.play_append_inv hall
    exact ⟨ch', hplay ch ch' hfirst, hplay' ch' ch'' hrest⟩

end

/-! ## Reading the status -/

section

variable {channel : Fin 2} {s s' : Machine Ata} {c : IdeChannelRegisters}

/-- The reads of a poll: four for the delay, those that found the drive busy,
and the one that did not. -/
def pollReads (c : IdeChannelRegisters) (ds bs : List UInt8) (b : UInt8) : List PortEvent :=
  ds.map (.inb (altStatusPort c)) ++ (bs ++ [b]).map (.inb (statusPort c))

theorem accesses_pollReads (c : IdeChannelRegisters) (ds bs : List UInt8) (b : UInt8)
    (w : Nat → UInt16) :
    accesses c.base (altStatusPort c) (pollReads c ds bs b) w =
      (ds ++ bs ++ [b]).map .status := by
  have hstatus : statusPort c = c.base + 7 := rfl
  rw [pollReads, accesses_append, accesses_status (.inr rfl), accesses_status (.inl hstatus),
    ← List.map_append, List.append_assoc]

theorem pollReads_isRead (c : IdeChannelRegisters) (ds bs : List UInt8) (b : UInt8) :
    ∀ e ∈ pollReads c ds bs b, e.IsRead :=
  List.forall_mem_append.mpr ⟨onlyReads_map _ _, onlyReads_map _ _⟩

theorem waitWhile_heard (h : (waitWhile channel 0x80).run s = .ok () s') :
    ∃ bs b rest, b &&& 0x80 = 0 ∧
      s' = s.heard ((bs ++ [b]).map (.inb (statusPort (s.dev.channels channel)))) rest := by
  obtain ⟨bs, b, rest, htape, hs⟩ := waitWhile_inv h
  have hne : s.dev.inbox.dropWhile (masked 0x80) ≠ [] := by
    rw [htape]
    exact List.cons_ne_nil b rest
  have hclear := List.head_dropWhile_not (masked 0x80) hne
  simp only [htape, List.head_cons, masked, ne_eq, decide_not, Bool.not_eq_eq_eq_not,
    Bool.not_false, decide_eq_true_eq] at hclear
  exact ⟨bs, b, rest, hclear, hs⟩

/-- A poll without the advanced check. -/
theorem idePolling_heard {r : UInt8} (h : (idePolling channel false).run s = .ok r s') :
    ∃ ds bs b rest, ds.length = 4 ∧ b &&& 0x80 = 0 ∧
      s' = s.heard (pollReads (s.dev.channels channel) ds bs b) rest := by
  rw [idePolling] at h
  obtain ⟨_, s₁, hdelay, h⟩ := Exec.bind_inv h
  obtain ⟨_, s₂, hwait, h⟩ := Exec.bind_inv h
  obtain ⟨-, rfl⟩ := Exec.pure_inv h
  obtain ⟨ds, hds, rfl⟩ := delay400_heard hdelay
  obtain ⟨bs, b, rest, hb, rfl⟩ := waitWhile_heard hwait
  exact ⟨ds, bs, b, rest, hds, hb, heard_heard _ _ _ _ _⟩

/-- A poll with it reads the status once more. -/
theorem idePolling_checked_heard {r : UInt8} (h : (idePolling channel true).run s = .ok r s') :
    ∃ ds bs b state rest, ds.length = 4 ∧ b &&& 0x80 = 0 ∧ r = pollCode state ∧
      s' = s.heard (pollReads (s.dev.channels channel) ds bs b ++
        [.inb (statusPort (s.dev.channels channel)) state]) rest := by
  obtain ⟨s₁, s₂, state, hdelay, hwait, hread, rfl⟩ := idePolling_phases h
  obtain ⟨ds, hds, rfl⟩ := delay400_heard hdelay
  obtain ⟨bs, b, tape, hb, rfl⟩ := waitWhile_heard hwait
  obtain ⟨rest, -, rfl⟩ := ideRead_inv (by decide) (statusPort_eq _) hread
  refine ⟨ds, bs, b, state, rest, hds, hb, rfl, ?_⟩
  rw [heard_heard, heard_heard, pollReads, List.append_assoc]
  rfl

/-- What a poll brings: the channel is ready, and the status that ended the poll
is its answer. -/
structure Polled (ch ch' : Channel) (state : UInt8) : Prop extends Channel.Waited ch ch' where
  ready : ch'.Ready
  shows : ch'.phase.Shows state

theorem idePolling_replayed (hc : s.dev.channels channel = c) {r : UInt8}
    (h : (idePolling channel false).run s = .ok r s') :
    Replayed c.base (altStatusPort c) s s' fun ch ch' =>
      ch.settle ≤ 4 → ∃ state, Polled ch ch' state := by
  subst hc
  obtain ⟨ds, bs, b, rest, hds, hb, rfl⟩ := idePolling_heard h
  refine ⟨_, rfl, ?_, fun ch ch' hplay hsettle => ?_⟩
  · rw [received_notBlock fun e he => (pollReads_isRead _ _ _ _ e he).notBlock, skip_zero]
    rfl
  · rw [accesses_pollReads] at hplay
    have hlen : ch.settle ≤ (ds ++ bs).length := by
      rw [List.length_append]
      omega
    obtain ⟨hwaited, hready, hshows⟩ := Channel.polled hlen hplay hb
    exact ⟨b, hwaited, hready, hshows⟩

theorem idePolling_checked_replayed (hc : s.dev.channels channel = c) {r : UInt8}
    (h : (idePolling channel true).run s = .ok r s') :
    Replayed c.base (altStatusPort c) s s' fun ch ch' =>
      ch.settle ≤ 4 → ∃ state, r = pollCode state ∧ Polled ch ch' state := by
  subst hc
  obtain ⟨ds, bs, b, state, rest, hds, hb, hr, rfl⟩ := idePolling_checked_heard h
  refine ⟨_, rfl, ?_, fun ch ch' hplay hsettle => ⟨state, hr, ?_⟩⟩
  · have hread : ∀ e ∈ pollReads (s.dev.channels channel) ds bs b ++
        [.inb (statusPort (s.dev.channels channel)) state], PortEvent.IsRead e :=
      List.forall_mem_append.mpr ⟨pollReads_isRead _ _ _ _, onlyReads_map _ [state]⟩
    rw [received_notBlock fun e he => (hread e he).notBlock, skip_zero]
    rfl
  · rw [accesses_append, accesses_pollReads] at hplay
    obtain ⟨ch₁, hfirst, hlast⟩ := Channel.play_append_inv hplay
    have hlen : ch.settle ≤ (ds ++ bs).length := by
      rw [List.length_append]
      omega
    obtain ⟨hwaited, hready, -⟩ := Channel.polled hlen hfirst hb
    rw [accesses, if_pos (.inl rfl), accesses, Channel.play_cons] at hlast
    obtain ⟨ch₂, hstep, hend⟩ := Option.bind_eq_some_iff.mp hlast
    obtain rfl : ch₂ = ch' := Option.some.inj hend
    obtain ⟨rfl, hshows⟩ := hready.status hstep
    exact ⟨hwaited, hready, hshows⟩

end

/-! ## Writing registers -/

/-- A write to a register other than the command register. -/
def PortEvent.Loads (base : UInt16) : PortEvent → Prop
  | .outb port _ => (port - base).toNat ≠ 7
  | _ => False

/-- Loading registers does nothing but load them. -/
theorem play_loads {base : UInt16} (alt : UInt16) {es : List PortEvent}
    (h : ∀ e ∈ es, e.Loads base) (w : Nat → UInt16) (ch : Channel) :
    ch.play (accesses base alt es w) =
      some { ch with drives := observe base ch.drives es } := by
  induction es generalizing ch with
  | nil => rfl
  | cons e es ih =>
      have hrest := ih fun e' he' => h e' (List.mem_cons_of_mem e he')
      cases e with
      | outb port data =>
          have hne : (port - base).toNat ≠ 7 := h _ List.mem_cons_self
          rw [accesses, observe, List.foldl_cons, portStep]
          by_cases hblock : (port - base).toNat < 8
          · rw [if_pos hblock, if_pos hblock, Channel.play_cons, Channel.step, if_neg hne]
            exact hrest _
          · rw [if_neg hblock, if_neg hblock]
            exact hrest ch
      | inb port b => exact (h _ List.mem_cons_self).elim
      | insw port n => exact (h _ List.mem_cons_self).elim
      | outsw port data => exact (h _ List.mem_cons_self).elim

section

variable {c : IdeChannelRegisters}

theorem control_loads (hc : ControlApart c) (data : UInt8) :
    ∀ e ∈ outEvents c 0x0C data, e.Loads c.base := by
  intro e he
  rw [outEvents, altStatusPort_eq] at he
  rw [List.mem_singleton.mp he]
  have hapart : 8 ≤ (altStatusPort c - c.base).toNat := hc
  exact Nat.ne_of_gt hapart

/-- Every register but one can be loaded. -/
theorem writeEvents_loads (hc : ControlApart c) {reg : UInt8} (hreg : reg < 0x0D)
    (hne : reg ≠ 0x07) (data : UInt8) : ∀ e ∈ writeEvents c reg data, e.Loads c.base := by
  have hsub : ∀ k : UInt16, c.base + k - c.base = k := fun k => by
    rw [UInt16.add_comm, UInt16.add_sub_cancel]
  by_cases hlow : reg < 0x08
  · have hnot : ¬ (0x07 < reg ∧ reg < 0x0C) := fun h =>
      absurd (UInt8.lt_iff_toNat_lt.mp hlow) (Nat.not_lt.mpr (UInt8.lt_iff_toNat_lt.mp h.1))
    intro e he
    rw [writeEvents, if_neg hnot, outEvents, portOf_block hlow] at he
    rw [List.mem_singleton.mp he, PortEvent.Loads, hsub, UInt8.toNat_toUInt16]
    exact fun h => hne (UInt8.toNat_inj.mp h)
  · by_cases hhigh : reg < 0x0C
    · have hlt := UInt8.not_lt.mp hlow
      have hgt : 0x07 < reg := UInt8.lt_of_lt_of_le (by decide) hlt
      rw [writeEvents, if_pos ⟨hgt, hhigh⟩]
      simp only [List.forall_mem_append]
      refine ⟨control_loads hc _, fun e he => ?_, control_loads hc _⟩
      rw [outEvents, portOf_high hgt hhigh] at he
      rw [List.mem_singleton.mp he, PortEvent.Loads, hsub, UInt16.toNat_sub_of_le]
      · have hle := UInt8.lt_iff_toNat_lt.mp hhigh
        have hC : (0x0C : UInt8).toNat = 12 := rfl
        have h6 : (0x06 : UInt16).toNat = 6 := rfl
        rw [UInt8.toNat_toUInt16]
        omega
      · rw [UInt16.le_iff_toNat_le, UInt8.toNat_toUInt16]
        have hle := UInt8.le_iff_toNat_le.mp hlt
        exact Nat.le_trans (by decide) hle
    · have hC : reg = 0x0C := by
        have hlt := UInt8.lt_iff_toNat_lt.mp hreg
        have hge := UInt8.le_iff_toNat_le.mp (UInt8.not_lt.mp hhigh)
        exact UInt8.toNat_inj.mp (Nat.le_antisymm (Nat.le_of_lt_succ hlt) hge)
      subst hC
      rw [writeEvents, if_neg (by decide)]
      exact control_loads hc data

/-- The registers loaded before the command. -/
def loadEvents (c : IdeChannelRegisters) (slavebit : Fin 2) (io : LbaIo)
    (numsects : UInt8) : List PortEvent :=
  writeEvents c 0x06 (deviceByte slavebit io) ++ (highEvents c io ++
    (writeEvents c 0x02 numsects ++ (writeEvents c 0x03 io.io0 ++
      (writeEvents c 0x04 io.io1 ++ writeEvents c 0x05 io.io2))))

theorem sendEvents_eq (c : IdeChannelRegisters) (slavebit : Fin 2) (io : LbaIo)
    (numsects : UInt8) (direction : Direction) :
    sendEvents c slavebit io numsects direction = loadEvents c slavebit io numsects ++
      writeEvents c 0x07 (commandOf direction io.lbaMode) := by
  simp only [sendEvents, lowEvents, loadEvents, List.append_assoc]

theorem loadEvents_loads (hc : ControlApart c) (slavebit : Fin 2) (io : LbaIo)
    (numsects : UInt8) : ∀ e ∈ loadEvents c slavebit io numsects, e.Loads c.base := by
  have hhigh : ∀ e ∈ highEvents c io, e.Loads c.base := by
    rw [highEvents]
    split
    · simp only [List.forall_mem_append]
      exact ⟨writeEvents_loads hc (by decide) (by decide) _,
        writeEvents_loads hc (by decide) (by decide) _,
        writeEvents_loads hc (by decide) (by decide) _,
        writeEvents_loads hc (by decide) (by decide) _⟩
    · exact List.forall_mem_nil _
  simp only [loadEvents, List.forall_mem_append]
  exact ⟨writeEvents_loads hc (by decide) (by decide) _, hhigh,
    writeEvents_loads hc (by decide) (by decide) _,
    writeEvents_loads hc (by decide) (by decide) _,
    writeEvents_loads hc (by decide) (by decide) _,
    writeEvents_loads hc (by decide) (by decide) _⟩

/-- A command on the cable. -/
theorem play_command (c : IdeChannelRegisters) (v : UInt8) (w : Nat → UInt16) (ch : Channel) :
    ch.play (accesses c.base (altStatusPort c) (writeEvents c 0x07 v) w) =
      some (({ ch with drives := ch.drives.write 7 v } : Channel).accept
        (Phase.ofCommand ch.capacity (ch.drives.file.decode v))) := by
  have hport : c.base + 7 - c.base = 7 := by
    rw [UInt16.add_comm, UInt16.add_sub_cancel]
  have hevents : writeEvents c 0x07 v = [.outb (c.base + 7) v] := by
    rw [writeEvents, if_neg (by decide), outEvents, statusPort_eq]
    rfl
  rw [hevents, accesses, hport, if_pos (by decide)]
  rfl

/-- A command of `ide_ata_access` asks for its transfer, whatever the channel was
doing. -/
theorem play_sendEvents (hc : ControlApart c) (slavebit : Fin 2) {io : LbaIo}
    (hhead : io.head.toNat < 16) (numsects : UInt8) (direction : Direction)
    (w : Nat → UInt16) (ch : Channel) :
    ch.play (accesses c.base (altStatusPort c)
        (sendEvents c slavebit io numsects direction) w) =
      some (({ ch with
          drives := commanded slavebit io numsects direction ch.drives } : Channel).accept
        (Phase.ofCommand ch.capacity (.transfer direction slavebit.val io.start
          (announced io.lbaMode numsects) (addressSpace io.lbaMode)))) := by
  let v := commandOf direction io.lbaMode
  let d := observe c.base ch.drives (loadEvents c slavebit io numsects)
  have hdrives : d.write 7 v = commanded slavebit io numsects direction ch.drives := by
    have hlast : observe c.base d (writeEvents c 0x07 v) = d.write 7 v :=
      observe_block d v (by decide)
    rw [← observe_sendEvents hc, sendEvents_eq, observe_append, ← hlast]
  have hdecode : d.file.decode v = .transfer direction slavebit.val io.start
      (announced io.lbaMode numsects) (addressSpace io.lbaMode) := by
    have hcommands : d.commands ++ [d.file.decode v] = ch.drives.commands ++
        [(loadedFile ch.drives.file slavebit io numsects).decode v] :=
      congrArg DriveState.commands hdrives
    have hlast := (List.append_inj' hcommands rfl).2
    injection hlast with hlast
    rw [hlast]
    exact decode_loadedFile ch.drives.file slavebit numsects direction hhead
  rw [sendEvents_eq, accesses_append, Channel.play_append,
    play_loads (altStatusPort c) (loadEvents_loads hc slavebit io numsects), Option.bind_some,
    play_command]
  simp only
  rw [hdecode, hdrives]

end

end Bedrock
