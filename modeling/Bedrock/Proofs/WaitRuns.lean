import Bedrock.Cpu.Idt
import Bedrock.Cpu.Isr
import Bedrock.Lib.Run

/-!
# Waits and the interrupts that end them

Each return of `ide_wait_irq` should have an interrupt of the drive behind it.
`irq_handler` calls `ide_irq` whatever the interrupt is, so the timer and the
keyboard set the flag as well. What is left is proved over runs in which such an
interrupt comes only while the flag is set anyway, or outside the part of
`ide_atapi_read` that waits (`Timely`).

Of all the actions of the reader two change the flag and one looks at it
(`atapiStep_ends`), and the counts are invariants of these three.
-/

namespace Bedrock

open Lib

/-! ## Code that leaves the flag alone -/

abbrev KeepsFlag {α : Type} (x : Drv α) : Prop :=
  Exec.Keeps (Exec.Same fun s : Machine Ata => s.dev.ideIrqInvoked) x

theorem keepsFlag_ideOut (channel : Fin 2) (reg data : UInt8) :
    KeepsFlag (ideOut channel reg data) := by
  refine .bind .get fun s => ?_
  split
  · exact fun _ => rfl
  · exact .pure ()

theorem keepsFlag_ideWrite (channel : Fin 2) (reg data : UInt8) :
    KeepsFlag (ideWrite channel reg data) := by
  refine .bind .get fun s => ?_
  have hlast : KeepsFlag (do
      ideOut channel reg data
      if 0x07 < reg ∧ reg < 0x0C then
        ideOut channel 0x0C (s.dev.channels channel).nIEN) :=
    .bind (keepsFlag_ideOut _ _ _) fun _ => .ite (keepsFlag_ideOut _ _ _) (.pure ())
  exact .ite (.bind (keepsFlag_ideOut _ _ _) fun _ => hlast) hlast

theorem keepsFlag_portByteIn (port : UInt16) : KeepsFlag (portByteIn port) := by
  intro s
  rw [portByteIn, Exec.bind_ok (EStateM.run_get s)]
  cases hs : s.dev.inbox with
  | nil => rfl
  | cons b rest => rfl

theorem keepsFlag_ideRead (channel : Fin 2) (reg : UInt8) : KeepsFlag (ideRead channel reg) := by
  refine .bind .get fun s => ?_
  have hend : ∀ result : UInt8, KeepsFlag (do
      if 0x07 < reg ∧ reg < 0x0C then
        ideOut channel 0x0C (s.dev.channels channel).nIEN
      return result : Drv UInt8) :=
    fun _ => .ite (.bind (keepsFlag_ideOut _ _ _) fun _ => .pure _) (.pure _)
  refine .ite (.bind (keepsFlag_ideOut _ _ _) fun _ => ?_) ?_
  all_goals
    dsimp only
    split
    · exact .bind (keepsFlag_portByteIn _) hend
    · exact .bind (.throw _) hend

theorem keepsFlag_waitWhile (channel : Fin 2) (mask : UInt8) :
    KeepsFlag (waitWhile channel mask) := by
  have hloop : ∀ n, KeepsFlag (waitWhileLoop channel mask n) := by
    intro n
    induction n with
    | zero => exact .throw _
    | succ n ih => exact .bind (keepsFlag_ideRead _ _) fun _ => .ite ih (.pure ())
  exact .bind .get fun s => hloop _

theorem keepsFlag_delay400 (channel : Fin 2) : KeepsFlag (delay400 channel) :=
  .bind (keepsFlag_ideRead _ _) fun _ => .bind (keepsFlag_ideRead _ _) fun _ =>
    .bind (keepsFlag_ideRead _ _) fun _ => .bind (keepsFlag_ideRead _ _) fun _ => .pure ()

theorem keepsFlag_idePolling (channel : Fin 2) : KeepsFlag (idePolling channel true) := by
  refine .bind (keepsFlag_delay400 channel) fun _ => ?_
  refine .bind (keepsFlag_waitWhile channel 0x80) fun _ => ?_
  refine .bind (keepsFlag_ideRead channel 0x07) fun state => ?_
  exact .ite (.pure 2) (.ite (.pure 1) (.ite (.pure 3) (.pure 0)))

/-! ## What the reader's steps do -/

/-- Behind the reset of the flag, and not behind the last wait. -/
def Point.Waits : Point → Prop
  | .idle _ | .enable _ | .drain => False
  | _ => True

instance (p : Point) : Decidable p.Waits := by
  cases p
  all_goals first
    | exact isFalse id
    | exact isTrue trivial

/-- One action, and then the next point. -/
theorem step_on {x : Drv Unit} {q p' : Point} {m m' : Machine Ata} (hx : KeepsFlag x)
    (h : (do
      x
      return q : Drv Point).run m = .ok p' m') :
    p' = q ∧ m'.dev.ideIrqInvoked = m.dev.ideIrqInvoked := by
  obtain ⟨_, s, hrun, hrest⟩ := Exec.bind_inv h
  obtain ⟨rfl, rfl⟩ := Exec.pure_inv hrest
  exact ⟨rfl, hx.of_ok hrun⟩

/-- A poll, and then the next point or the end of the call. -/
theorem step_polled {channel : Fin 2} {q p' : Point} {m m' : Machine Ata}
    (h : (do
      let err ← idePolling channel true
      if err ≠ 0 then
        return .idle err
      return q : Drv Point).run m = .ok p' m') :
    (p' = q ∨ ∃ err, p' = .idle err) ∧ m'.dev.ideIrqInvoked = m.dev.ideIrqInvoked := by
  obtain ⟨err, s, hrun, hrest⟩ := Exec.bind_inv h
  have hflag : s.dev.ideIrqInvoked = m.dev.ideIrqInvoked :=
    (keepsFlag_idePolling channel).of_ok hrun
  split at hrest
  · obtain ⟨rfl, rfl⟩ := Exec.pure_inv hrest
    exact ⟨.inr ⟨err, rfl⟩, hflag⟩
  · obtain ⟨rfl, rfl⟩ := Exec.pure_inv hrest
    exact ⟨.inl rfl, hflag⟩

/-- A step that has nothing to do with the flag, and does not lead from outside
to a point that waits. -/
def Quiet : Point → Point → Prop
  | .enable _, _ | .test _ _, _ | .clear _ _, _ | _, .clear _ _ => False
  | p, p' => p'.Waits → p.Waits

/-- The flag is reset, tested, cleared, or left alone. -/
theorem atapiStep_ends {c : AtapiCall} {p p' : Point} {m m' : Machine Ata}
    (h : (atapiStep c p).run m = .ok p' m') :
    (∃ edi, p = .enable edi ∧ p' = .control edi ∧ m'.dev.ideIrqInvoked = 0) ∨
      (∃ n edi, p = .test n edi ∧ m' = m ∧
        (p' = .test n edi ∨ p' = .clear n edi ∧ m.dev.ideIrqInvoked ≠ 0)) ∨
      (∃ n edi, p = .clear n edi ∧ m'.dev.ideIrqInvoked = 0 ∧
        (p' = .drain ∨ ∃ n edi, p' = .check n edi)) ∨
      (Quiet p p' ∧ m'.dev.ideIrqInvoked = m.dev.ideIrqInvoked) := by
  cases p with
  | enable edi =>
      obtain ⟨rfl, rfl⟩ := EStateM.Result.ok.inj h
      exact .inl ⟨edi, rfl, rfl, rfl⟩
  | test n edi =>
      refine .inr (.inl ⟨n, edi, rfl, ?_⟩)
      rw [atapiStep, Exec.bind_ok (EStateM.run_get m)] at h
      split at h
      · obtain ⟨rfl, rfl⟩ := EStateM.Result.ok.inj h
        exact ⟨rfl, .inl rfl⟩
      · rename_i hflag
        obtain ⟨rfl, rfl⟩ := EStateM.Result.ok.inj h
        exact ⟨rfl, .inr ⟨rfl, hflag⟩⟩
  | clear n edi =>
      refine .inr (.inr (.inl ⟨n, edi, rfl, ?_⟩))
      cases n with
      | zero =>
          obtain ⟨rfl, rfl⟩ := EStateM.Result.ok.inj h
          exact ⟨rfl, .inl rfl⟩
      | succ n =>
          obtain ⟨rfl, rfl⟩ := EStateM.Result.ok.inj h
          exact ⟨rfl, .inr ⟨n, edi, rfl⟩⟩
  | idle err =>
      obtain ⟨rfl, rfl⟩ := Exec.pure_inv h
      exact .inr (.inr (.inr ⟨id, rfl⟩))
  | control edi | select edi | features edi | lba1 edi | lba2 edi | command edi =>
      obtain ⟨rfl, hflag⟩ := step_on (keepsFlag_ideWrite _ _ _) h
      exact .inr (.inr (.inr ⟨id, hflag⟩))
  | delay edi =>
      obtain ⟨rfl, hflag⟩ := step_on (keepsFlag_delay400 _) h
      exact .inr (.inr (.inr ⟨id, hflag⟩))
  | packet edi =>
      obtain ⟨rfl, rfl⟩ := EStateM.Result.ok.inj h
      exact .inr (.inr (.inr ⟨id, rfl⟩))
  | receive n edi =>
      obtain ⟨rfl, rfl⟩ := EStateM.Result.ok.inj h
      exact .inr (.inr (.inr ⟨id, rfl⟩))
  | drain =>
      obtain ⟨rfl, hflag⟩ := step_on (keepsFlag_waitWhile _ _) h
      exact .inr (.inr (.inr ⟨id, hflag⟩))
  | polling edi | check n edi =>
      obtain ⟨rfl | ⟨err, rfl⟩, hflag⟩ := step_polled h
      · exact .inr (.inr (.inr ⟨id, hflag⟩))
      · exact .inr (.inr (.inr ⟨False.elim, hflag⟩))

theorem Quiet.from_waits {p p' : Point} (h : Quiet p p') (hw : p'.Waits) : p.Waits := by
  cases p <;> cases p' <;> first | exact h hw | exact h.elim

theorem Quiet.count {r : Reader} {p' : Point} (h : Quiet r.point p') : r.count = r := by
  rw [Reader.count]
  split
  · rename_i heq
    rw [heq] at h
    exact h.elim
  · rename_i heq
    rw [heq] at h
    exact h.elim
  · rfl

theorem Quiet.not_clear {p : Point} {n : Nat} {edi : UInt32} : ¬ Quiet p (.clear n edi) := by
  intro h
  cases p <;> exact h

/-! ## Runs -/

section

variable {interruptHandlers : UInt8 → Option (Drv Unit)} {r r' : Reader} {e : ReaderEvent}

def ReaderStep (interruptHandlers : UInt8 → Option (Drv Unit)) (r : Reader) (e : ReaderEvent)
    (r' : Reader) : Prop :=
  r.next interruptHandlers e = some r'

/-- The event is a call, a step of the reader or an interrupt. -/
theorem readerStep_cases (h : ReaderStep interruptHandlers r e r') :
    (∃ c edi err, r.point = .idle err ∧ r' = { r with call := c, point := .enable edi }) ∨
      (∃ p m, (atapiStep r.call r.point).run r.machine = .ok p m ∧
        r' = { r.count with machine := m, point := p }) ∨
      ∃ line m, e = .irq line ∧
        (irqHandler interruptHandlers (UInt8.ofNat (32 + line.val))).run r.machine = .ok () m ∧
        r' = { r with
          machine := m
          raised := r.raised + if IsDrive line then 1 else 0
          fresh := r.fresh + if IsDrive line then 1 else 0 } := by
  rw [ReaderStep] at h
  cases e with
  | call drive lba numsects edi =>
      rw [Reader.next] at h
      split at h
      · rename_i err hidle
        exact .inl ⟨_, edi, err, hidle, (Option.some.inj h).symm⟩
      · cases h
  | step =>
      rw [Reader.next] at h
      split at h
      · rename_i p m hrun
        exact .inr (.inl ⟨p, m, hrun, (Option.some.inj h).symm⟩)
      · cases h
  | irq line =>
      rw [Reader.next] at h
      split at h
      · rename_i m hrun
        exact .inr (.inr ⟨line, m, rfl, hrun, (Option.some.inj h).symm⟩)
      · cases h

/-- A handler that is registered, or none. -/
theorem keepsFlag_registered {handler : Option (Drv Unit)} :
    (∀ x, handler = some x → KeepsFlag x) → KeepsFlag (match handler with
      | some handler => handler
      | none => return () : Drv Unit) := by
  intro hkeep
  cases handler with
  | none => exact .pure ()
  | some x => exact hkeep x rfl

/-- After any interrupt the flag is set. -/
theorem irqHandler_flag {intNo : UInt8} {m m' : Machine Ata}
    (hkeep : ∀ n handler, interruptHandlers n = some handler → KeepsFlag handler)
    (h : (irqHandler interruptHandlers intNo).run m = .ok () m') :
    m'.dev.ideIrqInvoked = 1 := by
  have hend : KeepsFlag (do
      portByteOut 0x20 0x20
      match interruptHandlers intNo with
      | some handler => handler
      | none => return () : Drv Unit) :=
    .bind (fun _ => rfl) fun _ => keepsFlag_registered (hkeep intNo)
  have hrest : KeepsFlag (do
      if 40 ≤ intNo then
        portByteOut 0xA0 0x20
      portByteOut 0x20 0x20
      match interruptHandlers intNo with
      | some handler => handler
      | none => return () : Drv Unit) := .ite (.bind (fun _ => rfl) fun _ => hend) hend
  obtain ⟨_, s, hirq, hrun⟩ := Exec.bind_inv h
  obtain ⟨-, rfl⟩ := EStateM.Result.ok.inj hirq
  exact hrest.of_ok hrun

/-- An interrupt of another device comes only while the flag is set, or outside
the waits. -/
def Timely (r : Reader) : ReaderEvent → Prop
  | .irq line => IsDrive line ∨ r.machine.dev.ideIrqInvoked ≠ 0 ∨ ¬ r.point.Waits
  | _ => True

instance (r : Reader) (e : ReaderEvent) : Decidable (Timely r e) := by
  cases e with
  | irq line => exact inferInstanceAs (Decidable (_ ∨ _ ∨ _))
  | call => exact isTrue trivial
  | step => exact isTrue trivial

/-- A set flag has an interrupt of the drive behind it, and every wait that
returned had one of its own. -/
structure Matched (r : Reader) : Prop where
  flag : r.point.Waits → r.machine.dev.ideIrqInvoked ≠ 0 → 1 ≤ r.fresh
  clearing : ∀ n edi, r.point = .clear n edi → r.machine.dev.ideIrqInvoked ≠ 0
  counts : r.point.Waits → r.returned + r.fresh ≤ r.raised
  total : r.returned ≤ r.raised

theorem matched_step (hkeep : ∀ n handler, interruptHandlers n = some handler → KeepsFlag handler)
    (hr : Matched r) (htime : Timely r e) (h : ReaderStep interruptHandlers r e r') :
    Matched r' := by
  rcases readerStep_cases h with ⟨c, edi, err, hidle, rfl⟩ | ⟨p, m, hrun, rfl⟩ |
    ⟨line, m, rfl, hrun, rfl⟩
  · exact ⟨fun h => h.elim, fun _ _ h0 => Point.noConfusion h0, fun h => h.elim, hr.total⟩
  · rcases atapiStep_ends hrun with ⟨edi, hp, rfl, hflag⟩ | ⟨n, edi, hp, rfl, hnext⟩ |
      ⟨n, edi, hp, hflag, hnext⟩ | ⟨hquiet, hflag⟩
    · have hcount : r.count = { r with raised := 0, fresh := 0, returned := 0 } := by
        rw [Reader.count, hp]
      rw [hcount]
      exact ⟨fun _ hne => absurd hflag hne, fun _ _ h0 => Point.noConfusion h0,
        fun _ => Nat.le_refl 0, Nat.le_refl 0⟩
    · have hcount : r.count = r := by rw [Reader.count, hp]
      have hwaits : r.point.Waits := by rw [hp]; trivial
      rw [hcount]
      rcases hnext with rfl | ⟨rfl, hset⟩
      · exact ⟨fun _ => hr.flag hwaits, fun _ _ h0 => Point.noConfusion h0,
          fun _ => hr.counts hwaits, hr.total⟩
      · exact ⟨fun _ => hr.flag hwaits, fun _ _ _ => hset, fun _ => hr.counts hwaits, hr.total⟩
    · have hcount : r.count = { r with fresh := 0, returned := r.returned + 1 } := by
        rw [Reader.count, hp]
      have hwaits : r.point.Waits := by rw [hp]; trivial
      have hfresh := hr.flag hwaits (hr.clearing n edi hp)
      have hcounts := hr.counts hwaits
      have htotal : r.returned + 1 ≤ r.raised := by omega
      have hclear : ∀ n edi, p ≠ .clear n edi := by
        rcases hnext with rfl | ⟨n', edi', rfl⟩
        · exact fun _ _ h0 => Point.noConfusion h0
        · exact fun _ _ h0 => Point.noConfusion h0
      rw [hcount]
      exact ⟨fun _ hne => absurd hflag hne, fun n edi h0 => absurd h0 (hclear n edi),
        fun _ => htotal, htotal⟩
    · rw [hquiet.count]
      refine ⟨fun hw hne => ?_, fun n edi h0 => ?_, fun hw => hr.counts (hquiet.from_waits hw),
        hr.total⟩
      · exact hr.flag (hquiet.from_waits hw) (hflag ▸ hne)
      · change p = .clear n edi at h0
        subst h0
        exact absurd hquiet Quiet.not_clear
  · have hset := irqHandler_flag hkeep hrun
    have hne : m.dev.ideIrqInvoked ≠ 0 := by rw [hset]; decide
    refine ⟨fun hw _ => ?_, fun _ _ _ => hne, fun hw => ?_, ?_⟩
    · change 1 ≤ r.fresh + if IsDrive line then 1 else 0
      rcases htime with hdrive | hflag | hout
      · rw [if_pos hdrive]
        omega
      · have := hr.flag hw hflag
        omega
      · exact absurd hw hout
    · have := hr.counts hw
      change r.returned + (r.fresh + _) ≤ r.raised + _
      omega
    · exact Nat.le_add_right_of_le hr.total

/-- In every run in which the interrupts of the other devices come at such
times, whatever the order, no more waits have returned in a call than the drive
has raised interrupts since the flag was reset at its start; and when a wait
returns, the drive has raised one since the flag was last cleared. -/
theorem wait_run {r₀ : Reader} {err : UInt8} {tr : List ReaderEvent}
    (hkeep : ∀ n handler, interruptHandlers n = some handler → KeepsFlag handler)
    (hidle : r₀.point = .idle err) (hzero : r₀.returned = 0)
    (hrun : Run (Guarded (ReaderStep interruptHandlers) Timely) r₀ tr r) :
    r.returned ≤ r.raised ∧
      ∀ n edi r', r.point = .clear n edi → ReaderStep interruptHandlers r .step r' →
        1 ≤ r.fresh ∧ r'.returned = r.returned + 1 ∧ r'.returned ≤ r.raised := by
  have hout : ¬ r₀.point.Waits := by
    rw [hidle]
    exact id
  have hstart : Matched r₀ := by
    refine ⟨fun hw => absurd hw hout, fun n edi h0 => ?_, fun hw => absurd hw hout, ?_⟩
    · rw [hidle] at h0
      cases h0
    · rw [hzero]
      exact Nat.zero_le _
  have hmatched : Matched r := hrun.invariant hstart
    fun s i s' hs ⟨htime, hstep⟩ => matched_step hkeep hs htime hstep
  refine ⟨hmatched.total, fun n edi r' hclear hstep => ?_⟩
  have hwaits : r.point.Waits := by rw [hclear]; trivial
  have hfresh := hmatched.flag hwaits (hmatched.clearing n edi hclear)
  have hcounts := hmatched.counts hwaits
  rcases readerStep_cases hstep with ⟨c, edi, err, hpoint, -⟩ | ⟨p, m, -, rfl⟩ |
    ⟨line, m, hevent, -⟩
  · rw [hclear] at hpoint
    cases hpoint
  · have hcount : r.count = { r with fresh := 0, returned := r.returned + 1 } := by
      rw [Reader.count, hclear]
    rw [hcount]
    exact ⟨hfresh, rfl, show r.returned + 1 ≤ r.raised by omega⟩
  · cases hevent

/-- The events one after the other, as long as each is allowed. -/
def Reader.follow (interruptHandlers : UInt8 → Option (Drv Unit))
    (G : Reader → ReaderEvent → Prop) [∀ r e, Decidable (G r e)] :
    List ReaderEvent → Reader → Option Reader
  | [], r => some r
  | e :: es, r =>
      if G r e then
        (r.next interruptHandlers e).bind (Reader.follow interruptHandlers G es)
      else none

theorem run_of_follow {G : Reader → ReaderEvent → Prop} [∀ r e, Decidable (G r e)]
    {tr : List ReaderEvent} (h : r.follow interruptHandlers G tr = some r') :
    Run (Guarded (ReaderStep interruptHandlers) G) r tr r' := by
  induction tr generalizing r with
  | nil =>
      obtain rfl := Option.some.inj h
      exact .nil
  | cons e es ih =>
      rw [Reader.follow] at h
      split at h
      · rename_i hallowed
        obtain ⟨s, hnext, hrest⟩ := Option.bind_eq_some_iff.mp h
        exact .cons ⟨hallowed, hnext⟩ (ih hrest)
      · cases h

/-- What a list of events leads to, read off by running it. -/
theorem run_to {β : Type} {G : Reader → ReaderEvent → Prop} [∀ r e, Decidable (G r e)]
    {tr : List ReaderEvent} {view : Reader → β} {b : β}
    (h : (r.follow interruptHandlers G tr).map view = some b) :
    ∃ r', Run (Guarded (ReaderStep interruptHandlers) G) r tr r' ∧ view r' = b := by
  obtain ⟨r', hfollow, hview⟩ := Option.map_eq_some_iff.mp h
  exact ⟨r', run_of_follow hfollow, hview⟩

end

/-- A drive that is ready for the packet, and a reader about to be called. -/
def atapiBoot : Reader where
  machine := ataBoot ⟨1, ataPrimary, ataMaster, .atapi, 0, 0, []⟩
    [0, 0, 0, 0, 0, 0, 0, 0, 0x08, 0x08]
  call := ⟨ataPrimary, ataMaster, 0, 0, 0⟩
  point := .idle 0
  raised := 0
  fresh := 0
  returned := 0

/-- A call up to its first wait, the interrupt `line`, and the return. -/
def firstWait (line : Fin 16) : List ReaderEvent :=
  .call 0 0 1 0x1000 :: (List.replicate 10 .step ++ [.irq line, .step, .step])

theorem keepsFlag_portHandlers (n : UInt8) (handler : Drv Unit)
    (h : portHandlers n = some handler) : KeepsFlag handler := by
  rcases irqHandlers_cases h with rfl | rfl
  · exact .pure ()
  · exact .bind (keepsFlag_portByteIn 0x60) fun _ => .pure ()

/-- The timer ticks before the call, a key is pressed before the flag is reset, and both come
again when the drive has raised its interrupt. -/
def busyWait (timer keyboard drive : Fin 16) : List ReaderEvent :=
  .irq timer :: .call 0 0 1 0x1000 :: .irq keyboard ::
    (List.replicate 10 .step ++ [.irq drive, .irq timer, .irq keyboard, .step, .step])

/-- The same reader, with a key to read before the drive and one behind it. -/
def keyedReader : Reader :=
  { atapiBoot with machine.dev.inbox := 0x1E :: (atapiBoot.machine.dev.inbox ++ [0x9E]) }

/-- The first wait returns, for the interrupt of the drive. -/
theorem wait_run_busy : ∃ r,
    Run (Guarded (ReaderStep portHandlers) Timely) keyedReader (busyWait 0 1 14) r ∧
      r.returned = 1 ∧ r.raised = 1 ∧ r.returned ≤ r.raised := by
  have hview : (keyedReader.follow portHandlers Timely (busyWait 0 1 14)).map
      (fun r => (r.returned, r.raised)) = some (1, 1) := by decide +kernel
  obtain ⟨r, hrun, hcounts⟩ := run_to hview
  obtain ⟨hreturned, hraised⟩ := Prod.ext_iff.mp hcounts
  exact ⟨r, hrun, hreturned, hraised, (wait_run keepsFlag_portHandlers rfl rfl hrun).1⟩

/-- The timer ticks instead, and the first wait returns as well. -/
theorem wait_timer : ∃ r, Run (ReaderStep fun _ => none) atapiBoot (firstWait 0) r ∧
    r.returned = 1 ∧ r.raised = 0 := by
  have hview : (atapiBoot.follow (fun _ => none) (fun _ _ => True) (firstWait 0)).map
      (fun r => (r.returned, r.raised)) = some (1, 0) := by decide +kernel
  obtain ⟨r, hrun, hcounts⟩ := run_to hview
  exact ⟨r, hrun.of_guarded, Prod.ext_iff.mp hcounts⟩

end Bedrock
