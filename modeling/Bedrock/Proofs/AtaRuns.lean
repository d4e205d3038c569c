import Bedrock.Drivers.Ata

/-!
# How the IDE driver uses its ports

Two kinds of phases make up the driver's runs. A phase that only writes
registers always returns, and what it adds to the log is known beforehand:
`Sends`. A phase that reads them takes its bytes off the tape one by one and
writes nothing: what it returns, and the tape it leaves, depend on the tape it
found (`waitWhile_ok`, `idePolling_inv`). `Logs` says of a phase of either
kind which accesses it makes and that it leaves the driver's globals alone,
also when it never returns.
-/

namespace Bedrock

open Lib

/-! ## Writing phases -/

/-- The machine after several more port accesses. -/
def Machine.loggedAll (s : Machine Ata) (es : List PortEvent) : Machine Ata :=
  { s with dev.log := s.dev.log ++ es }

@[simp] theorem loggedAll_inbox (s : Machine Ata) (es : List PortEvent) :
    (s.loggedAll es).dev.inbox = s.dev.inbox := rfl

@[simp] theorem loggedAll_log (s : Machine Ata) (es : List PortEvent) :
    (s.loggedAll es).dev.log = s.dev.log ++ es := rfl

theorem loggedAll_loggedAll (s : Machine Ata) (es es' : List PortEvent) :
    (s.loggedAll es).loggedAll es' = s.loggedAll (es ++ es') := by
  rw [Machine.loggedAll, Machine.loggedAll, Machine.loggedAll, List.append_assoc]

theorem loggedAll_nil (s : Machine Ata) : s.loggedAll [] = s := by
  rw [Machine.loggedAll, List.append_nil]

/-- With channel registers `c`, the program returns and adds `es` to the log. -/
def Sends (channel : Fin 2) (c : IdeChannelRegisters) (x : Drv Unit)
    (es : List PortEvent) : Prop :=
  ∀ s : Machine Ata, s.dev.channels channel = c → x.run s = .ok () (s.loggedAll es)

section

variable {channel : Fin 2} {c : IdeChannelRegisters}

theorem Sends.pure : Sends channel c (pure ()) [] := fun s _ => by
  rw [loggedAll_nil, EStateM.run_pure]

theorem Sends.bind {x : Drv Unit} {f : Unit → Drv Unit} {es es' : List PortEvent}
    (hx : Sends channel c x es) (hf : Sends channel c (f ()) es') :
    Sends channel c (x >>= f) (es ++ es') := by
  intro s hs
  rw [Exec.bind_ok (hx s hs), hf (s.loggedAll es) hs, loggedAll_loggedAll]

theorem Sends.ite {p : Prop} [Decidable p] {x y : Drv Unit}
    {es es' : List PortEvent} (hx : Sends channel c x es)
    (hy : Sends channel c y es') :
    Sends channel c (if p then x else y) (if p then es else es') := by
  split
  · exact hx
  · exact hy

/-- The log of a write to a register without the control toggles. -/
def outEvents (c : IdeChannelRegisters) (reg data : UInt8) : List PortEvent :=
  match portOf c reg with
  | some port => [.outb port data]
  | none => []

/-- The log of `ide_write`. -/
def writeEvents (c : IdeChannelRegisters) (reg data : UInt8) : List PortEvent :=
  if 0x07 < reg ∧ reg < 0x0C then
    outEvents c 0x0C (0x80 ||| c.nIEN) ++ (outEvents c reg data ++ outEvents c 0x0C c.nIEN)
  else outEvents c reg data

/-- A register read. -/
def PortEvent.IsRead : PortEvent → Prop
  | .inb _ _ => True
  | _ => False

/-- A block of data moved. -/
def PortEvent.IsBlock : PortEvent → Prop
  | .insw _ _ => True
  | .outsw _ _ => True
  | _ => False

theorem writeEvents_notBlock (c : IdeChannelRegisters) (reg data : UInt8) :
    ∀ e ∈ writeEvents c reg data, ¬ e.IsBlock := by
  have hout : ∀ (reg data : UInt8), ∀ e ∈ outEvents c reg data, ¬ e.IsBlock := by
    intro reg data e he
    rw [outEvents] at he
    split at he
    · rw [List.mem_singleton.mp he]
      exact id
    · exact nomatch he
  rw [writeEvents]
  split
  · simp only [List.forall_mem_append]
    exact ⟨hout _ _, hout _ _, hout _ _⟩
  · exact hout _ _

theorem ideOut_sends (reg data : UInt8) :
    Sends channel c (ideOut channel reg data) (outEvents c reg data) := by
  intro s hs
  rw [ideOut, Exec.bind_ok (EStateM.run_get s), hs, outEvents]
  cases portOf c reg with
  | none => exact congrArg _ (loggedAll_nil s).symm
  | some port => rfl

theorem ideWrite_sends (reg data : UInt8) :
    Sends channel c (ideWrite channel reg data) (writeEvents c reg data) := by
  intro s hs
  rw [ideWrite, Exec.bind_ok (EStateM.run_get s), writeEvents]
  simp only [hs]
  by_cases h : 0x07 < reg ∧ reg < 0x0C
  · simp only [if_pos h]
    exact (ideOut_sends _ _).bind ((ideOut_sends _ _).bind (ideOut_sends _ _)) s hs
  · simp only [if_neg h]
    have hout := (ideOut_sends (c := c) reg data).bind (f := fun _ => Pure.pure ())
      Sends.pure s hs
    rw [List.append_nil] at hout
    exact hout

end

/-! ## Reading phases -/

/-- The machine after the accesses `es`, with `rest` left on the tape. -/
def Machine.heard (s : Machine Ata) (es : List PortEvent) (rest : List UInt8) :
    Machine Ata :=
  { s with
    dev.inbox := rest
    dev.log := s.dev.log ++ es }

@[simp] theorem heard_inbox (s : Machine Ata) (es : List PortEvent) (rest : List UInt8) :
    (s.heard es rest).dev.inbox = rest := rfl

@[simp] theorem heard_log (s : Machine Ata) (es : List PortEvent) (rest : List UInt8) :
    (s.heard es rest).dev.log = s.dev.log ++ es := rfl

theorem heard_heard (s : Machine Ata) (es es' : List PortEvent) (rest rest' : List UInt8) :
    (s.heard es rest).heard es' rest' = s.heard (es ++ es') rest' := by
  simp only [Machine.heard, List.append_assoc]

theorem heard_nil {s : Machine Ata} {rest : List UInt8} (h : s.dev.inbox = rest) :
    s.heard [] rest = s := by
  rw [Machine.heard, List.append_nil, ← h]

/-- The port of the status register, and of the alternate status. -/
def statusPort (c : IdeChannelRegisters) : UInt16 := c.base + 7

def altStatusPort (c : IdeChannelRegisters) : UInt16 := c.ctrl + 2

theorem statusPort_eq (c : IdeChannelRegisters) :
    portOf c 0x07 = some (statusPort c) := by
  rw [portOf, if_pos (by decide), statusPort]
  exact congrArg some (UInt16.sub_zero _)

theorem altStatusPort_eq (c : IdeChannelRegisters) :
    portOf c 0x0C = some (altStatusPort c) := by
  rw [portOf, if_neg (by decide), if_neg (by decide), if_pos (by decide),
    altStatusPort, UInt16.sub_eq_add_neg, UInt16.add_assoc]
  rfl

section

variable {channel : Fin 2} {s s' : Machine Ata} {b : UInt8} {rest : List UInt8}
  {reg : UInt8} {port : UInt16}

/-- A read of a register that needs no toggle of the control register. -/
theorem ideRead_ok (hreg : ¬ (0x07 < reg ∧ reg < 0x0C))
    (hport : portOf (s.dev.channels channel) reg = some port)
    (h : s.dev.inbox = b :: rest) :
    (ideRead channel reg).run s = .ok b (s.heard [.inb port b] rest) := by
  rw [ideRead, Exec.bind_ok (EStateM.run_get s)]
  simp only [if_neg hreg, hport, bind_pure]
  rw [portByteIn, Exec.bind_ok (EStateM.run_get s)]
  simp only [h]
  rfl

theorem ideRead_empty (hreg : ¬ (0x07 < reg ∧ reg < 0x0C))
    (hport : portOf (s.dev.channels channel) reg = some port)
    (h : s.dev.inbox = []) :
    (ideRead channel reg).run s = .error .noAnswer s := by
  rw [ideRead, Exec.bind_ok (EStateM.run_get s)]
  simp only [if_neg hreg, hport, bind_pure]
  rw [portByteIn, Exec.bind_ok (EStateM.run_get s)]
  simp only [h]
  rfl

theorem ideRead_inv (hreg : ¬ (0x07 < reg ∧ reg < 0x0C))
    (hport : portOf (s.dev.channels channel) reg = some port)
    (h : (ideRead channel reg).run s = .ok b s') :
    ∃ rest, s.dev.inbox = b :: rest ∧ s' = s.heard [.inb port b] rest := by
  cases hbox : s.dev.inbox with
  | nil =>
      rw [ideRead_empty hreg hport hbox] at h
      cases h
  | cons b' rest =>
      rw [ideRead_ok hreg hport hbox] at h
      cases h
      exact ⟨rest, rfl, rfl⟩

/-- A status byte with one of the bits of `mask`. -/
def masked (mask b : UInt8) : Bool := b &&& mask ≠ 0

theorem waitWhileLoop_ok {mask : UInt8} {n : Nat} (hn : s.dev.inbox.length < n)
    (h : s.dev.inbox.dropWhile (masked mask) = b :: rest) :
    (waitWhileLoop channel mask n).run s =
      .ok () (s.heard ((s.dev.inbox.takeWhile (masked mask) ++ [b]).map
        (.inb (statusPort (s.dev.channels channel)))) rest) := by
  generalize hbox : s.dev.inbox = tape at hn h
  induction tape generalizing s n with
  | nil => cases h
  | cons x xs ih =>
      cases n with
      | zero => cases hn
      | succ n =>
          rw [waitWhileLoop, Exec.bind_ok (ideRead_ok (by decide) (statusPort_eq _) hbox)]
          by_cases hx : x &&& mask ≠ 0
          · have hm : masked mask x = true := decide_eq_true hx
            rw [List.dropWhile_cons_of_pos hm] at h
            rw [if_pos hx, List.takeWhile_cons_of_pos hm,
              ih (s := s.heard [.inb _ x] xs) rfl (Nat.lt_of_succ_lt_succ hn) h,
              heard_heard]
            rfl
          · have hm : ¬ masked mask x = true := by
              rw [masked, decide_eq_true_eq]
              exact hx
            rw [List.dropWhile_cons_of_neg hm] at h
            cases h
            rw [if_neg hx, List.takeWhile_cons_of_neg hm]
            rfl

theorem waitWhileLoop_stuck {mask : UInt8} {n : Nat} (hn : s.dev.inbox.length < n)
    (h : s.dev.inbox.dropWhile (masked mask) = []) :
    (waitWhileLoop channel mask n).run s =
      .error .noAnswer (s.heard (s.dev.inbox.map
        (.inb (statusPort (s.dev.channels channel)))) []) := by
  generalize hbox : s.dev.inbox = tape at hn h
  induction tape generalizing s n with
  | nil =>
      cases n with
      | zero => cases hn
      | succ n =>
          rw [waitWhileLoop,
            Exec.bind_error (ideRead_empty (by decide) (statusPort_eq _) hbox),
            List.map_nil, heard_nil hbox]
  | cons x xs ih =>
      cases n with
      | zero => cases hn
      | succ n =>
          by_cases hx : x &&& mask ≠ 0
          · have hm : masked mask x = true := decide_eq_true hx
            rw [List.dropWhile_cons_of_pos hm] at h
            rw [waitWhileLoop,
              Exec.bind_ok (ideRead_ok (by decide) (statusPort_eq _) hbox), if_pos hx,
              ih (s := s.heard [.inb _ x] xs) rfl (Nat.lt_of_succ_lt_succ hn) h,
              heard_heard]
            rfl
          · rw [List.dropWhile_cons_of_neg (by simpa [masked] using hx)] at h
            cases h

/-- The wait ends at the first byte without the bits of `mask`. -/
theorem waitWhile_ok {mask : UInt8}
    (h : s.dev.inbox.dropWhile (masked mask) = b :: rest) :
    (waitWhile channel mask).run s =
      .ok () (s.heard ((s.dev.inbox.takeWhile (masked mask) ++ [b]).map
        (.inb (statusPort (s.dev.channels channel)))) rest) := by
  rw [waitWhile, Exec.bind_ok (EStateM.run_get s)]
  exact waitWhileLoop_ok (Nat.lt_succ_self _) h

/-- It does not end where there is none. -/
theorem waitWhile_stuck {mask : UInt8} (h : s.dev.inbox.dropWhile (masked mask) = []) :
    (waitWhile channel mask).run s =
      .error .noAnswer (s.heard (s.dev.inbox.map
        (.inb (statusPort (s.dev.channels channel)))) []) := by
  rw [waitWhile, Exec.bind_ok (EStateM.run_get s)]
  exact waitWhileLoop_stuck (Nat.lt_succ_self _) h

/-- The tape from the status byte that ends a poll on: the delay takes four bytes
off it, and the wait those that show the drive busy. -/
def pollTape (tape : List UInt8) : List UInt8 := (tape.drop 4).dropWhile (masked 0x80)

theorem onlyReads_map (port : UInt16) (bs : List UInt8) :
    ∀ e ∈ bs.map (PortEvent.inb port), e.IsRead := by
  intro e he
  obtain ⟨b, _, rfl⟩ := List.mem_map.mp he
  trivial

theorem waitWhile_inv {mask : UInt8} (h : (waitWhile channel mask).run s = .ok () s') :
    ∃ bs b rest, s.dev.inbox.dropWhile (masked mask) = b :: rest ∧
      s' = s.heard ((bs ++ [b]).map (.inb (statusPort (s.dev.channels channel)))) rest := by
  cases hbox : s.dev.inbox.dropWhile (masked mask) with
  | nil =>
      rw [waitWhile_stuck hbox] at h
      cases h
  | cons b rest =>
      rw [waitWhile_ok hbox] at h
      cases h
      exact ⟨_, b, rest, rfl, rfl⟩

/-- The delay takes four bytes. -/
theorem delay400_run {b₁ b₂ b₃ b₄ : UInt8} {tape : List UInt8}
    (h : s.dev.inbox = b₁ :: b₂ :: b₃ :: b₄ :: tape) :
    (delay400 channel).run s = .ok () (s.heard
      ([b₁, b₂, b₃, b₄].map (.inb (altStatusPort (s.dev.channels channel)))) tape) := by
  have hread : ∀ (b : UInt8) (es : List PortEvent) (rest : List UInt8),
      (ideRead channel 0x0C).run (s.heard es (b :: rest)) =
        .ok b (s.heard (es ++ [.inb (altStatusPort (s.dev.channels channel)) b]) rest) :=
    fun b es rest => by
      rw [ideRead_ok (by decide) (altStatusPort_eq _) rfl, heard_heard]
      rfl
  rw [← heard_nil h, delay400, Exec.bind_ok (hread b₁ _ _), Exec.bind_ok (hread b₂ _ _),
    Exec.bind_ok (hread b₃ _ _), Exec.bind_ok (hread b₄ _ _), heard_nil h]
  rfl

/-- What the advanced check makes of a status. -/
def pollCode (state : UInt8) : UInt8 :=
  if state &&& 0x01 ≠ 0 then 2
  else if state &&& 0x20 ≠ 0 then 1
  else if state &&& 0x08 = 0 then 3
  else 0

/-- A poll with the advanced check, on a tape on which the drive stops being busy. -/
theorem idePolling_run {b₁ b₂ b₃ b₄ status : UInt8} {waiting : List UInt8}
    (h : s.dev.inbox = b₁ :: b₂ :: b₃ :: b₄ :: waiting)
    (hwaiting : waiting.dropWhile (masked 0x80) = b :: status :: rest) :
    (idePolling channel true).run s = .ok (pollCode status) (s.heard
      ([b₁, b₂, b₃, b₄].map (.inb (altStatusPort (s.dev.channels channel))) ++
        (waiting.takeWhile (masked 0x80) ++ [b]).map
          (.inb (statusPort (s.dev.channels channel))) ++
        [.inb (statusPort (s.dev.channels channel)) status]) rest) := by
  rw [idePolling, Exec.bind_ok (delay400_run h)]
  refine (Exec.bind_ok (waitWhile_ok (show (s.heard _ waiting).dev.inbox.dropWhile _ = _
    from hwaiting))).trans ?_
  rw [heard_heard]
  simp only [if_true]
  rw [Exec.bind_ok (ideRead_ok (by decide) (statusPort_eq _) rfl), heard_heard, pollCode]
  repeat' split
  all_goals rfl

theorem delay400_heard (h : (delay400 channel).run s = .ok () s') :
    ∃ ds : List UInt8, ds.length = 4 ∧
      s' = s.heard (ds.map (.inb (altStatusPort (s.dev.channels channel))))
        (s.dev.inbox.drop 4) := by
  rw [delay400] at h
  obtain ⟨b₁, s₁, h₁, h⟩ := Exec.bind_inv h
  obtain ⟨b₂, s₂, h₂, h⟩ := Exec.bind_inv h
  obtain ⟨b₃, s₃, h₃, h⟩ := Exec.bind_inv h
  obtain ⟨b₄, s₄, h₄, h⟩ := Exec.bind_inv h
  obtain ⟨-, rfl⟩ := Exec.pure_inv h
  obtain ⟨r₁, hr₁, rfl⟩ := ideRead_inv (by decide) (altStatusPort_eq _) h₁
  obtain ⟨r₂, hr₂, rfl⟩ := ideRead_inv (by decide) (altStatusPort_eq _) h₂
  obtain ⟨r₃, hr₃, rfl⟩ := ideRead_inv (by decide) (altStatusPort_eq _) h₃
  obtain ⟨r₄, hr₄, rfl⟩ := ideRead_inv (by decide) (altStatusPort_eq _) h₄
  rw [heard_inbox] at hr₂ hr₃ hr₄
  subst hr₂ hr₃ hr₄
  refine ⟨[b₁, b₂, b₃, b₄], rfl, ?_⟩
  rw [hr₁, heard_heard, heard_heard, heard_heard]
  rfl

theorem delay400_inv (h : (delay400 channel).run s = .ok () s') :
    ∃ es, (∀ e ∈ es, PortEvent.IsRead e) ∧ s' = s.heard es (s.dev.inbox.drop 4) := by
  obtain ⟨ds, -, hs⟩ := delay400_heard h
  exact ⟨_, onlyReads_map _ ds, hs⟩

/-- A poll without the advanced check. -/
theorem idePolling_inv {r : UInt8} (h : (idePolling channel false).run s = .ok r s') :
    ∃ es port b rest, pollTape s.dev.inbox = b :: rest ∧
      (∀ e ∈ es, PortEvent.IsRead e) ∧ s' = s.heard (es ++ [.inb port b]) rest := by
  rw [idePolling] at h
  obtain ⟨_, s₁, hdelay, h⟩ := Exec.bind_inv h
  obtain ⟨_, s₂, hwait, h⟩ := Exec.bind_inv h
  obtain ⟨-, rfl⟩ := Exec.pure_inv h
  obtain ⟨es, hes, rfl⟩ := delay400_inv hdelay
  obtain ⟨bs, b, rest, hbox, rfl⟩ := waitWhile_inv hwait
  refine ⟨es ++ bs.map (.inb (statusPort (s.dev.channels channel))),
    statusPort (s.dev.channels channel), b, rest, hbox, ?_, ?_⟩
  · exact List.forall_mem_append.mpr ⟨hes, onlyReads_map _ _⟩
  · rw [heard_heard, List.map_append, List.append_assoc]
    rfl

/-- The phases of a poll with the advanced check. -/
theorem idePolling_phases {r : UInt8} (h : (idePolling channel true).run s = .ok r s') :
    ∃ s₁ s₂ state, (delay400 channel).run s = .ok () s₁ ∧
      (waitWhile channel 0x80).run s₁ = .ok () s₂ ∧
      (ideRead channel 0x07).run s₂ = .ok state s' ∧ r = pollCode state := by
  rw [idePolling] at h
  obtain ⟨_, s₁, hdelay, h⟩ := Exec.bind_inv h
  obtain ⟨_, s₂, hwait, h⟩ := Exec.bind_inv h
  rw [if_pos rfl] at h
  obtain ⟨state, s₃, hread, h⟩ := Exec.bind_inv h
  have hcode : (pure (pollCode state) : Drv UInt8).run s₃ = .ok r s' := by
    rw [← h, pollCode]
    repeat' split
    all_goals rfl
  obtain ⟨hr, rfl⟩ := Exec.pure_inv hcode
  exact ⟨s₁, s₂, state, hdelay, hwait, hread, hr⟩

end

/-! ## What a phase adds to the log -/

/-- Anything but a write to a register. -/
def PortEvent.Silent : PortEvent → Prop
  | .outb _ _ => False
  | _ => True

theorem PortEvent.IsRead.silent {e : PortEvent} (h : e.IsRead) : e.Silent := by
  cases e with
  | inb port data => trivial
  | outb port data => cases h
  | insw port words => cases h
  | outsw port data => cases h

theorem PortEvent.IsRead.notBlock {e : PortEvent} (h : e.IsRead) : ¬ e.IsBlock := by
  cases e with
  | inb port data => exact id
  | outb port data => exact id
  | insw port words => cases h
  | outsw port data => cases h

/-- From `s` to `t` the driver made accesses that all satisfy `p` and left its
globals alone. -/
structure Logs (p : PortEvent → Prop) (s t : Machine Ata) : Prop where
  channels : t.dev.channels = s.dev.channels
  ideDevices : t.dev.ideDevices = s.dev.ideDevices
  package0 : t.dev.package0 = s.dev.package0
  log : ∃ es, t.dev.log = s.dev.log ++ es ∧ ∀ e ∈ es, p e

section

variable {p q : PortEvent → Prop}

instance : Std.Refl (Logs p) where
  refl _ := ⟨rfl, rfl, rfl, [], (List.append_nil _).symm, List.forall_mem_nil _⟩

instance : IsTrans (Machine Ata) (Logs p) where
  trans _ _ _ h h' := by
    obtain ⟨es, hes, hp⟩ := h.log
    obtain ⟨es', hes', hp'⟩ := h'.log
    refine ⟨h'.channels.trans h.channels, h'.ideDevices.trans h.ideDevices,
      h'.package0.trans h.package0, es ++ es', ?_, ?_⟩
    · rw [hes', hes, List.append_assoc]
    · intro e he
      exact (List.mem_append.mp he).elim (hp e) (hp' e)

theorem Logs.mono {s t : Machine Ata} (h : Logs p s t) (hpq : ∀ e, p e → q e) :
    Logs q s t := by
  obtain ⟨es, hes, hp⟩ := h.log
  exact ⟨h.channels, h.ideDevices, h.package0, es, hes, fun e he => hpq e (hp e he)⟩

theorem Logs.one {s : Machine Ata} {e : PortEvent} (he : p e) : Logs p s (s.logged e) :=
  ⟨rfl, rfl, rfl, [e], rfl, fun _ h => List.mem_singleton.mp h ▸ he⟩

theorem Logs.of_heard {s : Machine Ata} {es : List PortEvent} {rest : List UInt8}
    (h : ∀ e ∈ es, p e) : Logs p s (s.heard es rest) :=
  ⟨rfl, rfl, rfl, es, rfl, h⟩

/-- Code that reads registers and does nothing else. -/
abbrev OnlyReads {α : Type} (x : Drv α) : Prop := Exec.Keeps (Logs PortEvent.IsRead) x

/-- Code that writes no register. -/
abbrev WritesNone {α : Type} (x : Drv α) : Prop := Exec.Keeps (Logs PortEvent.Silent) x

theorem OnlyReads.writesNone {α : Type} {x : Drv α} (hx : OnlyReads x) : WritesNone x :=
  hx.mono fun _ _ h => h.mono fun _ => PortEvent.IsRead.silent

variable (channel : Fin 2)

theorem onlyReads_ideRead {reg : UInt8} (hreg : ¬ (0x07 < reg ∧ reg < 0x0C))
    (hport : ∀ c, ∃ port, portOf c reg = some port) : OnlyReads (ideRead channel reg) := by
  intro s
  obtain ⟨port, hport⟩ := hport (s.dev.channels channel)
  cases hbox : s.dev.inbox with
  | nil =>
      rw [ideRead_empty hreg hport hbox]
      exact refl_of (Logs PortEvent.IsRead) s
  | cons b rest =>
      rw [ideRead_ok hreg hport hbox]
      exact Logs.of_heard fun e he => List.mem_singleton.mp he ▸ trivial

theorem onlyReads_status : OnlyReads (ideRead channel 0x07) :=
  onlyReads_ideRead channel (by decide) fun c => ⟨_, statusPort_eq c⟩

theorem onlyReads_altStatus : OnlyReads (ideRead channel 0x0C) :=
  onlyReads_ideRead channel (by decide) fun c => ⟨_, altStatusPort_eq c⟩

theorem onlyReads_waitWhile (mask : UInt8) : OnlyReads (waitWhile channel mask) := by
  have hloop : ∀ n, OnlyReads (waitWhileLoop channel mask n) := by
    intro n
    induction n with
    | zero => exact .throw _
    | succ n ih => exact (onlyReads_status channel).bind fun _ => .ite ih (.pure _)
  exact .bind .get fun _ => hloop _

theorem onlyReads_delay400 : OnlyReads (delay400 channel) :=
  (onlyReads_altStatus channel).bind fun _ => (onlyReads_altStatus channel).bind fun _ =>
    (onlyReads_altStatus channel).bind fun _ => (onlyReads_altStatus channel).bind fun _ =>
      .pure _

theorem onlyReads_idePolling (advancedCheck : Bool) :
    OnlyReads (idePolling channel advancedCheck) := by
  refine (onlyReads_delay400 channel).bind fun _ =>
    (onlyReads_waitWhile channel _).bind fun _ => .ite ?_ (.pure _)
  refine (onlyReads_status channel).bind fun state => ?_
  exact .ite (.pure _) (.ite (.pure _) (.ite (.pure _) (.pure _)))

theorem writesNone_pioRead (bus : UInt16) (n : Nat) (edi : UInt32) :
    WritesNone (pioRead channel bus n edi) := by
  induction n generalizing edi with
  | zero => exact .pure _
  | succ n ih =>
      refine (onlyReads_idePolling channel true).writesNone.bind fun err =>
        .ite (.pure _) (.bind (.modify fun s => ?_) fun _ => ih _)
      exact ⟨rfl, rfl, rfl, _, rfl, fun _ h => List.mem_singleton.mp h ▸ trivial⟩

theorem writesNone_pioWrite (bus : UInt16) (n : Nat) (edi : UInt32) :
    WritesNone (pioWrite channel bus n edi) := by
  induction n generalizing edi with
  | zero => exact .pure _
  | succ n ih =>
      refine (onlyReads_idePolling channel false).writesNone.bind fun _ =>
        .bind .get fun s => .bind (.modify fun s => ?_) fun _ => ih _
      exact Logs.one trivial

end

/-! ## Counting accesses -/

instance : DecidablePred PortEvent.IsBlock
  | .insw _ _ => .isTrue trivial
  | .outsw _ _ => .isTrue trivial
  | .inb _ _ => .isFalse id
  | .outb _ _ => .isFalse id

/-- A block of data received. -/
def PortEvent.IsReceived : PortEvent → Prop
  | .insw _ _ => True
  | _ => False

instance : DecidablePred PortEvent.IsReceived
  | .insw _ _ => .isTrue trivial
  | .outsw _ _ => .isFalse id
  | .inb _ _ => .isFalse id
  | .outb _ _ => .isFalse id

theorem PortEvent.IsRead.notReceived {e : PortEvent} (h : e.IsRead) : ¬ e.IsReceived := by
  cases e with
  | inb port data => exact id
  | outb port data => exact id
  | insw port words => cases h
  | outsw port data => cases h

/-- From `s` to `t` the driver made `n` accesses that satisfy `p`. -/
def Counted (p : PortEvent → Prop) [DecidablePred p] (n : Nat) (s t : Machine Ata) : Prop :=
  ∃ es, t.dev.log = s.dev.log ++ es ∧ es.countP (fun e => p e) = n

section

variable {p q : PortEvent → Prop} [DecidablePred p] {s t u : Machine Ata} {m n : Nat}
  {es : List PortEvent}

theorem Counted.refl (s : Machine Ata) : Counted p 0 s s := ⟨[], (List.append_nil _).symm, rfl⟩

theorem Counted.trans (h : Counted p m s t) (h' : Counted p n t u) :
    Counted p (m + n) s u := by
  obtain ⟨es, hes, hm⟩ := h
  obtain ⟨es', hes', hn⟩ := h'
  refine ⟨es ++ es', by rw [hes', hes, List.append_assoc], ?_⟩
  rw [List.countP_append, hm, hn]

theorem Counted.zero (hlog : t.dev.log = s.dev.log ++ es) (h : ∀ e ∈ es, ¬ p e) :
    Counted p 0 s t := by
  refine ⟨es, hlog, List.countP_eq_zero.mpr fun e he => ?_⟩
  rw [decide_eq_true_eq]
  exact h e he

theorem Counted.one {e : PortEvent} (he : p e) (hlog : t.dev.log = s.dev.log ++ [e]) :
    Counted p 1 s t :=
  ⟨[e], hlog, by rw [List.countP_singleton, if_pos (decide_eq_true he)]⟩

theorem Counted.unique (h : Counted p m s t) (h' : Counted p n s t) : m = n := by
  obtain ⟨es, hes, rfl⟩ := h
  obtain ⟨es', hes', rfl⟩ := h'
  rw [List.append_cancel_left (hes.symm.trans hes')]

theorem Logs.counted (h : Logs q s t) (hpq : ∀ e, q e → ¬ p e) : Counted p 0 s t := by
  obtain ⟨es, hes, hq⟩ := h.log
  exact Counted.zero hes fun e he => hpq e (hq e he)

end

end Bedrock
