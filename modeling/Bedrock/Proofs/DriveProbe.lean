import Bedrock.Drivers.Detect
import Bedrock.Proofs.DriveReplay

/-!
# What a place replies to a probe

A phase that only reads and writes registers takes words of a language off the
tape: `Hears` says which tapes it returns on, and what log and answer belong to
each. The language of a sequence is made of those of its steps, so a phase is
looked at once for both directions. `probeDrive_hears` is the language of the
probe of one place.
-/

namespace Bedrock

open Lib

/-! ## The language of a phase -/

variable {channel drive : Fin 2} {c : IdeChannelRegisters} {α β : Type}

/-- With channel registers `c`, the program returns exactly on the tapes that
begin with a word of `L`, and what it logs and answers belongs to that word. -/
def Hears (channel : Fin 2) (c : IdeChannelRegisters) (x : Drv α)
    (L : List UInt8 → List PortEvent → α → Prop) : Prop :=
  ∀ (s s' : Machine Ata) (a : α), s.dev.channels channel = c →
    (x.run s = .ok a s' ↔
      ∃ tape es rest, L tape es a ∧ s.dev.inbox = tape ++ rest ∧ s' = s.heard es rest)

theorem Hears.congr {x : Drv α} {L M : List UInt8 → List PortEvent → α → Prop}
    (hx : Hears channel c x L) (h : ∀ tape es a, L tape es a ↔ M tape es a) :
    Hears channel c x M := by
  intro s s' a hs
  simp only [hx s s' a hs, h]

theorem Hears.pure (a : α) :
    Hears channel c (pure a) fun tape es b => tape = [] ∧ es = [] ∧ b = a := by
  intro s s' b _
  constructor
  · intro h
    obtain ⟨rfl, rfl⟩ := Exec.pure_inv h
    exact ⟨[], [], _, ⟨rfl, rfl, rfl⟩, rfl, (heard_nil rfl).symm⟩
  · rintro ⟨_, _, rest, ⟨rfl, rfl, rfl⟩, hbox, rfl⟩
    rw [List.nil_append] at hbox
    rw [heard_nil hbox, EStateM.run_pure]

theorem Hears.bind {x : Drv α} {f : α → Drv β} {L : List UInt8 → List PortEvent → α → Prop}
    {M : α → List UInt8 → List PortEvent → β → Prop}
    (hx : Hears channel c x L) (hf : ∀ a, Hears channel c (f a) (M a)) :
    Hears channel c (x >>= f) fun tape es b =>
      ∃ a t₁ t₂ e₁ e₂, L t₁ e₁ a ∧ M a t₂ e₂ b ∧ tape = t₁ ++ t₂ ∧ es = e₁ ++ e₂ := by
  intro s s'' b hs
  rw [Exec.bind_iff]
  constructor
  · rintro ⟨a, s', hfirst, hrest⟩
    obtain ⟨t₁, e₁, r₁, hL, hbox, rfl⟩ := (hx s s' a hs).mp hfirst
    obtain ⟨t₂, e₂, r₂, hM, hbox₂, rfl⟩ := (hf a (s.heard e₁ r₁) s'' b hs).mp hrest
    rw [heard_inbox] at hbox₂
    refine ⟨t₁ ++ t₂, e₁ ++ e₂, r₂, ⟨a, t₁, t₂, e₁, e₂, hL, hM, rfl, rfl⟩, ?_, ?_⟩
    · rw [hbox, hbox₂, List.append_assoc]
    · rw [heard_heard]
  · rintro ⟨_, _, rest, ⟨a, t₁, t₂, e₁, e₂, hL, hM, rfl, rfl⟩, hbox, rfl⟩
    refine ⟨a, s.heard e₁ (t₂ ++ rest), ?_, ?_⟩
    · exact (hx s _ a hs).mpr ⟨t₁, e₁, _, hL, by rw [hbox, List.append_assoc], rfl⟩
    · refine (hf a (s.heard e₁ (t₂ ++ rest)) _ b hs).mpr ⟨t₂, e₂, rest, hM, rfl, ?_⟩
      rw [heard_heard]

theorem Sends.hears {x : Drv Unit} {es : List PortEvent} (hx : Sends channel c x es) :
    Hears channel c x fun tape es' _ => tape = [] ∧ es' = es := by
  intro s s' a hs
  rw [hx s hs]
  constructor
  · intro h
    cases h
    exact ⟨[], es, _, ⟨rfl, rfl⟩, rfl, rfl⟩
  · rintro ⟨_, _, rest, ⟨rfl, rfl⟩, rfl, rfl⟩
    rfl

theorem ideRead_hears {reg : UInt8} {port : UInt16} (hreg : ¬ (0x07 < reg ∧ reg < 0x0C))
    (hport : portOf c reg = some port) :
    Hears channel c (ideRead channel reg) fun tape es b =>
      tape = [b] ∧ es = [.inb port b] := by
  intro s s' b hs
  rw [← hs] at hport
  constructor
  · intro h
    obtain ⟨rest, hbox, rfl⟩ := ideRead_inv hreg hport h
    exact ⟨[b], _, rest, ⟨rfl, rfl⟩, hbox, rfl⟩
  · rintro ⟨_, _, rest, ⟨rfl, rfl⟩, hbox, rfl⟩
    exact ideRead_ok hreg hport hbox

/-! ## The wait for the identification page -/

/-- What one status byte tells the loop: nothing yet, or how it ends. -/
def verdict (status : UInt8) : Option Bool :=
  if status &&& 0x01 ≠ 0 then some true
  else if status &&& 0x80 = 0 ∧ status &&& 0x08 ≠ 0 then some false
  else none

theorem identifyLoop_succ (n : Nat) : identifyLoop channel (n + 1) =
    ideRead channel 0x07 >>= fun status =>
      (verdict status).elim (identifyLoop channel n) Pure.pure := by
  rw [identifyLoop]
  refine congrArg _ (funext fun status => ?_)
  rw [verdict]
  by_cases herr : status &&& 0x01 ≠ 0
  · simp only [if_pos herr]
    rfl
  · simp only [if_neg herr]
    split
    · rfl
    · rfl

theorem identifyLoop_iff {n : Nat} {s s' : Machine Ata} {err : Bool}
    (hn : s.dev.inbox.length < n) (hs : s.dev.channels channel = c) :
    (identifyLoop channel n).run s = .ok err s' ↔
      ∃ waits last rest, (∀ w ∈ waits, verdict w = none) ∧ verdict last = some err ∧
        s.dev.inbox = (waits ++ [last]) ++ rest ∧
        s' = s.heard ((waits ++ [last]).map (.inb (statusPort c))) rest := by
  generalize hbox : s.dev.inbox = tape at hn
  induction tape generalizing s n with
  | nil =>
      cases n with
      | zero => cases hn
      | succ n =>
          rw [identifyLoop_succ,
            Exec.bind_error (ideRead_empty (by decide) (statusPort_eq _) hbox)]
          simp
  | cons x xs ih =>
      cases n with
      | zero => cases hn
      | succ n =>
          rw [identifyLoop_succ,
            Exec.bind_ok (ideRead_ok (by decide) (statusPort_eq _) hbox), hs]
          cases hx : verdict x with
          | some b =>
              constructor
              · intro h
                obtain ⟨rfl, rfl⟩ := Exec.pure_inv h
                exact ⟨[], x, xs, nofun, hx, rfl, rfl⟩
              · rintro ⟨waits, last, rest, hwaits, hlast, htape, rfl⟩
                cases waits with
                | nil =>
                    cases htape
                    rw [hx] at hlast
                    cases hlast
                    rfl
                | cons w ws =>
                    cases htape
                    rw [hwaits x (List.mem_cons_self ..)] at hx
                    cases hx
          | none =>
              rw [Option.elim_none,
                ih (s := s.heard [.inb _ x] xs) hs rfl (Nat.lt_of_succ_lt_succ hn)]
              constructor
              · rintro ⟨waits, last, rest, hwaits, hlast, htape, rfl⟩
                refine ⟨x :: waits, last, rest, ?_, hlast, by rw [htape]; rfl, ?_⟩
                · exact List.forall_mem_cons.mpr ⟨hx, hwaits⟩
                · rw [heard_heard]
                  rfl
              · rintro ⟨waits, last, rest, hwaits, hlast, htape, rfl⟩
                cases waits with
                | nil =>
                    cases htape
                    rw [hx] at hlast
                    cases hlast
                | cons w ws =>
                    cases htape
                    refine ⟨ws, last, rest, (List.forall_mem_cons.mp hwaits).2, hlast, rfl, ?_⟩
                    rw [heard_heard]
                    rfl

theorem identifyWait_hears : Hears channel c (identifyWait channel) fun tape es err =>
    ∃ waits last, (∀ w ∈ waits, verdict w = none) ∧ verdict last = some err ∧
      tape = waits ++ [last] ∧ es = tape.map (.inb (statusPort c)) := by
  intro s s' err hs
  rw [identifyWait, Exec.bind_ok (EStateM.run_get s),
    identifyLoop_iff (Nat.lt_succ_self _) hs]
  constructor
  · rintro ⟨waits, last, rest, hwaits, hlast, hbox, rfl⟩
    exact ⟨_, _, rest, ⟨waits, last, hwaits, hlast, rfl, rfl⟩, hbox, rfl⟩
  · rintro ⟨_, _, rest, ⟨waits, last, hwaits, hlast, rfl, rfl⟩, hbox, rfl⟩
    exact ⟨waits, last, rest, hwaits, hlast, hbox, rfl⟩

/-! ## The replies -/

/-- What a place can reply to IDENTIFY: nothing; status bytes up to the one that
announces the page; or status bytes up to an error, and two registers after it. -/
inductive Reply where
  | silent
  | ready (first : UInt8) (waits : List UInt8) (last : UInt8)
  | refused (first : UInt8) (waits : List UInt8) (last cl ch : UInt8)
deriving DecidableEq, Repr

namespace Reply

/-- The first status is not 0, and the loop waits until the last one. -/
def Valid : Reply → Prop
  | .silent => True
  | .ready first waits last =>
      first ≠ 0 ∧ (∀ w ∈ waits, verdict w = none) ∧ verdict last = some false
  | .refused first waits last _ _ =>
      first ≠ 0 ∧ (∀ w ∈ waits, verdict w = none) ∧ verdict last = some true

instance (r : Reply) : Decidable r.Valid :=
  match r with
  | .silent => isTrue trivial
  | .ready .. => inferInstanceAs (Decidable (_ ∧ _))
  | .refused .. => inferInstanceAs (Decidable (_ ∧ _))

/-- The bytes of the reply. -/
def tape : Reply → List UInt8
  | .silent => [0]
  | .ready first waits last => first :: (waits ++ [last])
  | .refused first waits last cl ch => first :: (waits ++ [last, cl, ch])

/-- The drive that replies so. -/
def found : Reply → Option DriveType
  | .silent => none
  | .ready .. => some .ata
  | .refused _ _ _ cl ch => if PacketSignature cl ch then some .atapi else none

/-- The log of the reads of the reply, and of the second command. -/
def heard (c : IdeChannelRegisters) : Reply → List PortEvent
  | .silent => [.inb (statusPort c) 0]
  | .ready first waits last => (first :: (waits ++ [last])).map (.inb (statusPort c))
  | .refused first waits last cl ch =>
      (first :: (waits ++ [last])).map (.inb (statusPort c)) ++
        [.inb (c.base + 4) cl, .inb (c.base + 5) ch] ++
          if PacketSignature cl ch then writeEvents c 0x07 0xA1 else []

end Reply

/-- The log of the probe of a place. -/
def probeEvents (c : IdeChannelRegisters) (drive : Fin 2) (r : Reply) : List PortEvent :=
  writeEvents c 0x06 (driveSelect drive) ++
    (writeEvents c 0x07 0xEC ++ r.heard c)

theorem lba1Port_eq (c : IdeChannelRegisters) : portOf c 0x04 = some (c.base + 4) := by
  rw [portOf, if_pos (by decide)]
  exact congrArg some (UInt16.sub_zero _)

theorem lba2Port_eq (c : IdeChannelRegisters) : portOf c 0x05 = some (c.base + 5) := by
  rw [portOf, if_pos (by decide)]
  exact congrArg some (UInt16.sub_zero _)

/-- After an error two registers decide. -/
theorem probePacket_hears : Hears channel c (probePacket channel) fun tape es t =>
    ∃ cl ch, tape = [cl, ch] ∧
      es = [.inb (c.base + 4) cl, .inb (c.base + 5) ch] ++
        (if PacketSignature cl ch then writeEvents c 0x07 0xA1 else []) ∧
      t = if PacketSignature cl ch then some .atapi else none := by
  have hanswer : ∀ cl ch, Hears channel c
      (if PacketSignature cl ch then do
        ideWrite channel 0x07 0xA1
        return some DriveType.atapi
      else return none)
      fun tape es t => tape = [] ∧
        es = (if PacketSignature cl ch then writeEvents c 0x07 0xA1 else []) ∧
        t = if PacketSignature cl ch then some .atapi else none := by
    intro cl ch
    by_cases h : PacketSignature cl ch
    · simp only [if_pos h]
      refine ((ideWrite_sends _ _).hears.bind fun _ => .pure _).congr fun tape es t => ?_
      constructor
      · rintro ⟨_, _, _, _, _, ⟨rfl, rfl⟩, ⟨rfl, rfl, rfl⟩, rfl, rfl⟩
        exact ⟨rfl, List.append_nil _, rfl⟩
      · rintro ⟨rfl, rfl, rfl⟩
        exact ⟨(), [], [], _, [], ⟨rfl, rfl⟩, ⟨rfl, rfl, rfl⟩, rfl, (List.append_nil _).symm⟩
    · simp only [if_neg h]
      exact .pure _
  refine ((ideRead_hears (by decide) (lba1Port_eq c)).bind fun cl =>
    (ideRead_hears (by decide) (lba2Port_eq c)).bind fun ch =>
      hanswer cl ch).congr fun tape es t => ?_
  constructor
  · rintro ⟨cl, _, _, _, _, ⟨rfl, rfl⟩, ⟨ch, _, _, _, _, ⟨rfl, rfl⟩, ⟨rfl, rfl, rfl⟩, rfl, rfl⟩,
      rfl, rfl⟩
    exact ⟨cl, ch, rfl, rfl, rfl⟩
  · rintro ⟨cl, ch, rfl, rfl, rfl⟩
    exact ⟨cl, [cl], [ch], _, _, ⟨rfl, rfl⟩,
      ⟨ch, [ch], [], _, _, ⟨rfl, rfl⟩, ⟨rfl, rfl, rfl⟩, rfl, rfl⟩, rfl, rfl⟩

/-- What is read after the loop. -/
theorem probeType_hears (err : Bool) : Hears channel c
    (if err = true then probePacket channel else Pure.pure (some .ata)) fun tape es t =>
    (err = false ∧ tape = [] ∧ es = [] ∧ t = some .ata) ∨
      (err = true ∧ ∃ cl ch, tape = [cl, ch] ∧
        es = [.inb (c.base + 4) cl, .inb (c.base + 5) ch] ++
          (if PacketSignature cl ch then writeEvents c 0x07 0xA1 else []) ∧
        t = if PacketSignature cl ch then some .atapi else none) := by
  cases err with
  | false => exact (Hears.pure _).congr fun tape es t => by simp
  | true => exact probePacket_hears.congr fun tape es t => by simp

/-- What is read after the first status. -/
theorem probeRest_hears (status : UInt8) : Hears channel c
    (if status = 0 then Pure.pure none else do
      let err ← identifyWait channel
      if err = true then probePacket channel else Pure.pure (some .ata)) fun tape es t =>
    ∃ r : Reply, r.Valid ∧ status :: tape = r.tape ∧
      .inb (statusPort c) status :: es = r.heard c ∧ t = r.found := by
  by_cases hstatus : status = 0
  · simp only [if_pos hstatus]
    refine (Hears.pure none).congr fun tape es t => ?_
    constructor
    · rintro ⟨rfl, rfl, rfl⟩
      rw [hstatus]
      exact ⟨.silent, trivial, rfl, rfl, rfl⟩
    · rintro ⟨r, hr, htape, hes, rfl⟩
      cases r with
      | silent =>
          cases htape
          cases hes
          exact ⟨rfl, rfl, rfl⟩
      | ready first waits last =>
          cases htape
          exact absurd hstatus hr.1
      | refused first waits last cl ch =>
          cases htape
          exact absurd hstatus hr.1
  · simp only [if_neg hstatus]
    refine (identifyWait_hears.bind probeType_hears).congr fun tape es t => ?_
    constructor
    · rintro ⟨err, _, _, _, _, ⟨waits, last, hwaits, hlast, rfl, rfl⟩,
        ⟨rfl, rfl, rfl, rfl⟩ | ⟨rfl, cl, ch, rfl, rfl, rfl⟩, rfl, rfl⟩
      · refine ⟨.ready status waits last, ⟨hstatus, hwaits, hlast⟩, ?_, ?_, rfl⟩
        · rw [List.append_nil]
          rfl
        · rw [List.append_nil]
          rfl
      · refine ⟨.refused status waits last cl ch, ⟨hstatus, hwaits, hlast⟩, ?_, ?_, rfl⟩
        · rw [List.append_assoc]
          rfl
        · rw [Reply.heard, List.map_cons, List.append_assoc]
          rfl
    · rintro ⟨r, hr, htape, hes, rfl⟩
      cases r with
      | silent =>
          cases htape
          exact absurd rfl hstatus
      | ready first waits last =>
          cases htape
          cases hes
          exact ⟨false, _, [], _, [], ⟨waits, last, hr.2.1, hr.2.2, rfl, rfl⟩,
            .inl ⟨rfl, rfl, rfl, rfl⟩, (List.append_nil _).symm, (List.append_nil _).symm⟩
      | refused first waits last cl ch =>
          cases htape
          rw [Reply.heard, List.map_cons, List.append_assoc] at hes
          cases hes
          exact ⟨true, _, [cl, ch], _, _, ⟨waits, last, hr.2.1, hr.2.2, rfl, rfl⟩,
            .inr ⟨rfl, cl, ch, rfl, rfl, rfl⟩, by simp, rfl⟩

/-- A probe takes one reply off the tape, and nothing else. -/
theorem probeDrive_hears : Hears channel c (probeDrive channel drive) fun tape es t =>
    ∃ r : Reply, r.Valid ∧ tape = r.tape ∧ es = probeEvents c drive r ∧ t = r.found := by
  refine ((ideWrite_sends _ _).hears.bind fun _ => (ideWrite_sends _ _).hears.bind fun _ =>
    (ideRead_hears (by decide) (statusPort_eq c)).bind probeRest_hears).congr fun tape es t => ?_
  constructor
  · rintro ⟨_, _, _, _, _, ⟨rfl, rfl⟩, ⟨_, _, _, _, _, ⟨rfl, rfl⟩, ⟨status, _, _, _, _, ⟨rfl, rfl⟩,
      ⟨r, hr, htape, hes, rfl⟩, rfl, rfl⟩, rfl, rfl⟩, rfl, rfl⟩
    exact ⟨r, hr, htape, by rw [probeEvents, ← hes]; rfl, rfl⟩
  · rintro ⟨r, hr, rfl, rfl, rfl⟩
    obtain ⟨status, tape, es, htape, hes⟩ : ∃ status tape es,
        status :: tape = r.tape ∧ .inb (statusPort c) status :: es = r.heard c := by
      cases r with
      | silent => exact ⟨_, _, _, rfl, rfl⟩
      | ready first waits last => exact ⟨_, _, _, rfl, rfl⟩
      | refused first waits last cl ch => exact ⟨_, _, _, rfl, rfl⟩
    rw [probeEvents, ← hes, ← htape]
    exact ⟨(), [], _, _, _, ⟨rfl, rfl⟩, ⟨(), [], _, _, _, ⟨rfl, rfl⟩,
      ⟨status, [status], tape, _, es, ⟨rfl, rfl⟩, ⟨r, hr, htape, hes, rfl⟩, rfl, rfl⟩,
      rfl, rfl⟩, rfl, rfl⟩

end Bedrock
