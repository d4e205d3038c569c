import Bedrock.Cpu.Isr
import Bedrock.Lib.Run
import Bedrock.Proofs.SegmentTables

/-!
# The interrupts of the devices, from line to handler

Devices ask on their lines and take requests back, the processor asks the two
controllers for a vector, and `irq_handler` ends the interrupt before it calls the
handler. All of this comes in any order, a request may go away while the processor
is asking, and nothing is assumed about the controllers before `isr_install`.

What carries the proofs is that the controllers are idle between two events
(`PicPair.Idle`): the end of an interrupt that the handler sends is always the end
of the one that was taken, in one chip or in both (`bySlave_iff`). So the run is a
run of the sets of requests alone (`interrupts_step`), and the accounts of a line
are kept there.
-/

namespace Bedrock

open Lib

/-! ## The controllers after `isr_install` -/

/-- Whatever state the two chips are in, "Remap the PIC" leaves them idle, with their vectors
behind the exceptions. -/
theorem hearPorts_remapWords (p : PicPair) :
    ∃ q, hearPorts p remapWords = some q ∧ q.Idle 0x20 0x28 ∧ q.lines = ⟨∅, ∅⟩ := by
  have hmask : inputsOf 0 = ∅ := by decide
  refine ⟨_, rfl, ⟨⟨rfl, rfl, rfl, rfl, hmask, rfl⟩, ⟨rfl, rfl, rfl, rfl, hmask, rfl⟩, ?_⟩, rfl⟩
  exact Finset.notMem_empty _

/-! ## What the handlers leave alone -/

/-- An access to a port that is not one of the controllers'. -/
def PortEvent.SparesPics : PortEvent → Prop
  | .outb port _ => port ∉ picPorts
  | .outsw port _ => port ∉ picPorts
  | .inb _ _ => True
  | .insw _ _ => True

theorem hearPort_spares {e : PortEvent} (h : e.SparesPics) (p : PicPair) :
    hearPort p e = some p := by
  cases e with
  | outb port data =>
      have hport : port ≠ 0x20 ∧ port ≠ 0x21 ∧ port ≠ 0xA0 ∧ port ≠ 0xA1 := by
        simpa [PortEvent.SparesPics, picPorts] using h
      obtain ⟨h0, h1, h2, h3⟩ := hport
      rw [hearPort, if_neg h0, if_neg h1, if_neg h2, if_neg h3]
  | outsw port data => exact if_neg h
  | inb port data => rfl
  | insw port words => rfl

theorem hearPorts_spares {es : List PortEvent} (h : ∀ e ∈ es, e.SparesPics) (p : PicPair) :
    hearPorts p es = some p := by
  induction es with
  | nil => rfl
  | cons e es ih =>
      rw [hearPorts, List.foldlM_cons, hearPort_spares (h e List.mem_cons_self)]
      exact ih fun e' he' => h e' (List.mem_cons_of_mem e he')

theorem hearPorts_append (p : PicPair) (es fs : List PortEvent) :
    hearPorts p (es ++ fs) = (hearPorts p es).bind fun q => hearPorts q fs :=
  List.foldlM_append

/-- Code that leaves the controllers alone when it returns. -/
def SparesPics (x : Drv Unit) : Prop :=
  ∀ s s', x.run s = .ok () s' →
    ∃ es, s'.dev.log = s.dev.log ++ es ∧ ∀ e ∈ es, PortEvent.SparesPics e

/-- The end of an interrupt, as `irq_handler` sends it. -/
def endWords (intNo : UInt8) : List PortEvent :=
  if 40 ≤ intNo then [.outb 0xA0 0x20, .outb 0x20 0x20] else [.outb 0x20 0x20]

theorem hearPorts_endWords (p : PicPair) (intNo : UInt8) :
    hearPorts p (endWords intNo) = some (p.finish (40 ≤ intNo)) := by
  rw [endWords, PicPair.finish]
  by_cases h : 40 ≤ intNo
  · rw [if_pos h, decide_eq_true h]
    rfl
  · rw [if_neg h, decide_eq_false h]
    rfl

/-- The machine when `irq_handler` looks for a handler. -/
def irqEntered (v : UInt8) (s : Machine Ata) : Machine Ata :=
  withLog { s with dev.ideIrqInvoked := 1 } (endWords v)

theorem irqHandler_run (handlers : UInt8 → Option (Drv Unit)) (v : UInt8) (s : Machine Ata) :
    (irqHandler handlers v).run s =
      match handlers v with
      | some handler => handler.run (irqEntered v s)
      | none => .ok () (irqEntered v s) := by
  have hstart : ∀ s : Machine Ata, withLog s [] = s := fun s => by
    rw [withLog, List.append_nil]
  rw [irqHandler, Exec.bind_ok (show ideIrq.run s = .ok () (withLog _ []) by rw [hstart]; rfl),
    irqEntered, endWords]
  by_cases h : 40 ≤ v
  · rw [if_pos h, if_pos h, portByteOut_withLog, portByteOut_withLog]
    cases handlers v with
    | none => rfl
    | some handler => rfl
  · rw [if_neg h, if_neg h, portByteOut_withLog]
    cases handlers v with
    | none => rfl
    | some handler => rfl

/-- A return of `irq_handler` has sent the end of the interrupt, and has written nothing else
to the controllers. -/
theorem irqHandler_log {handlers : UInt8 → Option (Drv Unit)}
    (hspares : ∀ v h, handlers v = some h → SparesPics h) {v : UInt8} {s s' : Machine Ata}
    (h : (irqHandler handlers v).run s = .ok () s') :
    ∃ es, s'.dev.log = s.dev.log ++ (endWords v ++ es) ∧ ∀ e ∈ es, e.SparesPics := by
  have hentered : (irqEntered v s).dev.log = s.dev.log ++ endWords v := rfl
  rw [irqHandler_run] at h
  cases hv : handlers v with
  | none =>
      rw [hv] at h
      cases h
      refine ⟨[], ?_, fun e he => ?_⟩
      · rw [hentered, List.append_nil]
      · cases he
  | some handler =>
      rw [hv] at h
      obtain ⟨es, hlog, hes⟩ := hspares v handler hv _ _ h
      refine ⟨es, ?_, hes⟩
      rw [hlog, hentered, List.append_assoc]

/-! ## Interrupts one after the other -/

/-- The controllers, the machine, and the vectors that `irq_handler` was called for, newest
last. -/
structure Interrupts where
  chips : PicPair
  machine : Machine Ata
  handled : List UInt8

/-- The gates are interrupt gates and no handler enables interrupts: the next one is accepted
when the handler has returned. -/
def Interrupts.next (handlers : UInt8 → Option (Drv Unit)) (s : Interrupts) :
    LineEvent → Option Interrupts
  | .raise l => some { s with chips := s.chips.raise l }
  | .withdraw l => some { s with chips := s.chips.withdraw l }
  | .accept late =>
      match s.chips.acknowledge late with
      | none => none
      | some (v, chips) =>
          match (irqHandler handlers v).run s.machine with
          | .error _ _ => none
          | .ok _ machine =>
              (hearPorts chips (machine.dev.log.drop s.machine.dev.log.length)).map fun chips =>
                ⟨chips, machine, s.handled ++ [v]⟩

/-- The requests that wait, and the vectors that were handled, for an event. -/
def linesStep (a : Lines × List UInt8) (e : LineEvent) : Lines × List UInt8 :=
  match e with
  | .accept late => ((a.1.serve late).2, a.2 ++ [(a.1.serve late).1.vector 0x20 0x28])
  | e => (a.1.next e, a.2)

/-- What a vector says about the slave. -/
theorem bySlave_iff (r : Served) : r.bySlave = decide (40 ≤ r.vector 0x20 0x28) := by
  rcases r with (i | i) | slave
  · revert i
    decide
  · revert i
    decide
  · revert slave
    decide

section

variable {handlers : UInt8 → Option (Drv Unit)} {s : Interrupts}

/-- An answer of the controllers: if the handler returns, the step is taken, and the line that
was served is the first one that waited. -/
theorem accept_next (hspares : ∀ v h, handlers v = some h → SparesPics h)
    (hidle : s.chips.Idle 0x20 0x28) (late : Finset (Fin 8)) :
    ∃ chips, s.chips.acknowledge late =
        some ((s.chips.lines.serve late).1.vector 0x20 0x28, chips) ∧
      ∀ m, (irqHandler handlers ((s.chips.lines.serve late).1.vector 0x20 0x28)).run s.machine =
          .ok () m →
        ∃ s', s.next handlers (.accept late) = some s' ∧ s'.chips.Idle 0x20 0x28 ∧
          (s'.chips.lines, s'.handled) =
            linesStep (s.chips.lines, s.handled) (.accept late) := by
  obtain ⟨p, hack, hidle', hlines⟩ := hidle.acknowledge late
  refine ⟨p, hack, fun m hrun => ⟨⟨p.finish (s.chips.lines.serve late).1.bySlave, m,
    s.handled ++ [(s.chips.lines.serve late).1.vector 0x20 0x28]⟩, ?_, hidle',
    Prod.ext hlines rfl⟩⟩
  obtain ⟨es, hlog, hes⟩ := irqHandler_log hspares hrun
  rw [Interrupts.next, hack]
  dsimp only
  rw [hrun]
  dsimp only
  rw [hlog, List.drop_left, hearPorts_append, hearPorts_endWords, ← bySlave_iff,
    Option.bind_some, hearPorts_spares hes, Option.map_some]

theorem interrupts_step (hspares : ∀ v h, handlers v = some h → SparesPics h) {s' : Interrupts}
    {e : LineEvent} (hidle : s.chips.Idle 0x20 0x28) (h : s.next handlers e = some s') :
    s'.chips.Idle 0x20 0x28 ∧
      (s'.chips.lines, s'.handled) = linesStep (s.chips.lines, s.handled) e := by
  cases e with
  | raise l =>
      cases h
      exact ⟨(hidle.raise l).1, Prod.ext (hidle.raise l).2 rfl⟩
  | withdraw l =>
      cases h
      exact ⟨(hidle.withdraw l).1, Prod.ext (hidle.withdraw l).2 rfl⟩
  | accept late =>
      obtain ⟨p, hack, hnext⟩ := accept_next hspares hidle late
      cases hrun : (irqHandler handlers ((s.chips.lines.serve late).1.vector 0x20 0x28)).run
          s.machine with
      | error e m =>
          rw [Interrupts.next, hack] at h
          dsimp only at h
          rw [hrun] at h
          cases h
      | ok a m =>
          obtain ⟨s₁, hs₁, hgood⟩ := hnext m hrun
          obtain rfl : s₁ = s' := Option.some.inj (hs₁.symm.trans h)
          exact hgood

theorem interrupts_refine (hspares : ∀ v h, handlers v = some h → SparesPics h)
    {s₀ : Interrupts} {es : List LineEvent} (hidle : s₀.chips.Idle 0x20 0x28)
    (hrun : Run (fun s e s' => s.next handlers e = some s') s₀ es s) :
    s.chips.Idle 0x20 0x28 ∧
      (s.chips.lines, s.handled) = es.foldl linesStep (s₀.chips.lines, s₀.handled) :=
  hrun.refines (fun s => s.chips.Idle 0x20 0x28) (fun s => (s.chips.lines, s.handled)) linesStep
    hidle fun _ _ _ hidle h => interrupts_step hspares hidle h

/-- Handlers that return as long as there is something to read let every order of events go on
to its end. -/
theorem exists_run (hspares : ∀ v h, handlers v = some h → SparesPics h)
    (hreturns : ∀ v h, handlers v = some h → ∀ m : Machine Ata, m.dev.inbox ≠ [] →
      ∃ m', h.run m = .ok () m' ∧ m.dev.inbox.length ≤ m'.dev.inbox.length + 1)
    {s₀ : Interrupts} (hidle : s₀.chips.Idle 0x20 0x28) (es : List LineEvent)
    (hinbox : es.length ≤ s₀.machine.dev.inbox.length) :
    ∃ s, Run (fun s e s' => s.next handlers e = some s') s₀ es s ∧
      s₀.machine.dev.inbox.length ≤ s.machine.dev.inbox.length + es.length := by
  induction es using List.reverseRecOn with
  | nil => exact ⟨s₀, .nil, Nat.le_refl _⟩
  | append_singleton es e ih =>
      rw [List.length_append, List.length_singleton] at hinbox ⊢
      obtain ⟨s, hrun, hleft⟩ := ih (by omega)
      cases e with
      | raise l => exact ⟨_, hrun.snoc rfl, Nat.le_succ_of_le hleft⟩
      | withdraw l => exact ⟨_, hrun.snoc rfl, Nat.le_succ_of_le hleft⟩
      | accept late =>
          obtain ⟨hidle', -⟩ := interrupts_refine hspares hidle hrun
          obtain ⟨p, hack, hnext⟩ := accept_next hspares hidle' late
          obtain ⟨m, hm, hone⟩ : ∃ m, (irqHandler handlers
              ((s.chips.lines.serve late).1.vector 0x20 0x28)).run s.machine = .ok () m ∧
                s.machine.dev.inbox.length ≤ m.dev.inbox.length + 1 := by
            rw [irqHandler_run]
            cases hv : handlers ((s.chips.lines.serve late).1.vector 0x20 0x28) with
            | none => exact ⟨_, rfl, Nat.le_succ _⟩
            | some handler =>
                refine hreturns _ _ hv _ fun hnone => ?_
                rw [show s.machine.dev.inbox = [] from hnone] at hleft
                rw [List.length_nil] at hleft
                omega
          obtain ⟨s', hs', -⟩ := hnext m hm
          have hmachine : s'.machine = m := by
            rw [Interrupts.next, hack] at hs'
            dsimp only at hs'
            rw [hm] at hs'
            obtain ⟨q, -, rfl⟩ := Option.map_eq_some_iff.mp hs'
            rfl
          refine ⟨s', hrun.snoc hs', ?_⟩
          rw [hmachine]
          omega

end

theorem fst_linesStep (es : List LineEvent) (a : Lines × List UInt8) :
    (es.foldl linesStep a).1 = es.foldl Lines.next a.1 := by
  induction es generalizing a with
  | nil => rfl
  | cons e es ih =>
      have hstep : (linesStep a e).1 = a.1.next e := by
        cases e with
        | raise l => rfl
        | withdraw l => rfl
        | accept late => rfl
      rw [List.foldl_cons, List.foldl_cons, ih, hstep]

/-- The state after `isr_install`, of a machine and its controllers. -/
structure Installed [TableLayout] (entry : Fin 48 → UInt32) (p : PicPair) (m : Machine Ata)
    (s : Interrupts) : Prop where
  run : ∃ idtr, (installIsrs entry).run m = .ok idtr s.machine
  heard : hearPorts p (s.machine.dev.log.drop m.dev.log.length) = some s.chips
  handled : s.handled = []

section

variable [TableLayout]

theorem Installed.idle {entry : Fin 48 → UInt32} {p : PicPair} {m : Machine Ata}
    {s : Interrupts} (h : Installed entry p m s) :
    s.chips.Idle 0x20 0x28 ∧ s.chips.lines = ⟨∅, ∅⟩ := by
  obtain ⟨idtr, hrun⟩ := h.run
  obtain ⟨mem, hrun', -⟩ := installIsrs_run entry m
  rw [hrun] at hrun'
  injection hrun' with _ hmachine
  have hheard := h.heard
  rw [hmachine, withLog, List.drop_left] at hheard
  obtain ⟨q, hq, hidle, hlines⟩ := hearPorts_remapWords p
  obtain rfl : q = s.chips := Option.some.inj (hq.symm.trans hheard)
  exact ⟨hidle, hlines⟩

theorem exists_installed (entry : Fin 48 → UInt32) (p : PicPair) (m : Machine Ata) :
    ∃ s, Installed entry p m s := by
  obtain ⟨mem, hrun, -⟩ := installIsrs_run entry m
  obtain ⟨q, hq, -⟩ := hearPorts_remapWords p
  refine ⟨⟨q, withLog { m with mem := mem } remapWords, []⟩, ⟨setIdt, hrun⟩, ?_, rfl⟩
  rw [withLog, List.drop_left]
  exact hq

omit [TableLayout] in
theorem vector_range (r : Served) :
    32 ≤ r.vector 0x20 0x28 ∧ r.vector 0x20 0x28 < 48 := by
  rcases r with (i | i) | slave
  · revert i
    decide
  · revert i
    decide
  · revert slave
    decide

/-- Whatever state the controllers were in before `isr_install`, and in whatever order the
devices ask, take their requests back and are answered: the lines that wait and the vectors
that are handled are those of the requests alone. No line is ever held back, every question of
the processor is answered with a vector that has a gate, and the controllers are ready for the
next one when the handler has returned. -/
theorem interrupts_run (entry : Fin 48 → UInt32) {handlers : UInt8 → Option (Drv Unit)}
    (hspares : ∀ v h, handlers v = some h → SparesPics h) (p : PicPair) (m : Machine Ata) :
    ∃ s₀, Installed entry p m s₀ ∧ ∀ es s,
      Run (fun s e s' => s.next handlers e = some s') s₀ es s →
        (s.chips.lines, s.handled) = es.foldl linesStep (⟨∅, ∅⟩, []) ∧
        (s.chips.wired.pending.isSome ↔ ∃ l, s.chips.lines.Waits l) ∧
        ∀ late, ∃ v chips, s.chips.acknowledge late = some (v, chips) ∧ 32 ≤ v ∧ v < 48 ∧
          ∀ m', (irqHandler handlers v).run s.machine = .ok () m' →
            (s.next handlers (.accept late)).isSome := by
  obtain ⟨s₀, hinstalled⟩ := exists_installed entry p m
  obtain ⟨hidle₀, hlines₀⟩ := hinstalled.idle
  refine ⟨s₀, hinstalled, fun es s hrun => ?_⟩
  obtain ⟨hidle, hrefine⟩ := interrupts_refine hspares hidle₀ hrun
  rw [hlines₀, hinstalled.handled] at hrefine
  refine ⟨hrefine, hidle.asks, fun late => ?_⟩
  obtain ⟨chips, hack, hnext⟩ := accept_next hspares hidle late
  refine ⟨_, chips, hack, (vector_range _).1, (vector_range _).2, fun m' hm => ?_⟩
  obtain ⟨s', hs', -⟩ := hnext m' hm
  rw [hs', Option.isSome_some]

theorem Installed.inbox {entry : Fin 48 → UInt32} {p : PicPair} {m : Machine Ata}
    {s : Interrupts} (h : Installed entry p m s) : s.machine.dev.inbox = m.dev.inbox := by
  obtain ⟨idtr, hrun⟩ := h.run
  obtain ⟨mem, hrun', -⟩ := installIsrs_run entry m
  rw [hrun] at hrun'
  injection hrun' with _ hmachine
  rw [hmachine]
  rfl

omit [TableLayout] in
/-- Reading the scancode. -/
theorem portByteIn_inv {port : UInt16} {s s' : Machine Ata}
    (h : (do let _ ← portByteIn port : Drv Unit).run s = .ok () s') :
    ∃ b, s.dev.inbox = b :: s'.dev.inbox ∧ s'.dev.log = s.dev.log ++ [.inb port b] := by
  obtain ⟨b, s₁, hread, hrest⟩ := Exec.bind_inv h
  cases hrest
  rw [portByteIn, Exec.bind_ok (EStateM.run_get s)] at hread
  cases hinbox : s.dev.inbox with
  | nil =>
      rw [hinbox] at hread
      cases hread
  | cons b rest =>
      rw [hinbox] at hread
      cases hread
      exact ⟨b, rfl, rfl⟩

omit [TableLayout] in
theorem portHandlers_spares : ∀ v h, portHandlers v = some h → SparesPics h := by
  intro v h hv s s' hrun
  rcases irqHandlers_cases hv with rfl | rfl
  · cases hrun
    exact ⟨[], (List.append_nil _).symm, fun e he => by cases he⟩
  · obtain ⟨b, -, hlog⟩ := portByteIn_inv hrun
    exact ⟨[.inb 0x60 b], hlog, fun e he => by rw [List.mem_singleton.mp he]; trivial⟩

omit [TableLayout] in
theorem portHandlers_return : ∀ v h, portHandlers v = some h → ∀ m : Machine Ata,
    m.dev.inbox ≠ [] → ∃ m', h.run m = .ok () m' ∧
      m.dev.inbox.length ≤ m'.dev.inbox.length + 1 := by
  intro v h hv m hne
  rcases irqHandlers_cases hv with rfl | rfl
  · exact ⟨m, rfl, Nat.le_succ _⟩
  · obtain ⟨b, rest, hinbox⟩ := List.exists_cons_of_ne_nil hne
    refine ⟨{ m with dev.inbox := rest, dev.log := m.dev.log ++ [.inb 0x60 b] }, ?_, ?_⟩
    · refine (Exec.bind_ok (a := b) ?_).trans rfl
      rw [portByteIn, Exec.bind_ok (EStateM.run_get m), hinbox]
      rfl
    · rw [hinbox]
      exact Nat.le_refl _

/-- The controllers as a BIOS leaves them: their vectors are those of exceptions. -/
def biosPics : PicPair where
  master := ⟨.ready, false, true, 0x08, 0x04, false, ∅, ∅, ∅⟩
  slave := ⟨.ready, false, true, 0x70, 0x02, false, ∅, ∅, ∅⟩

/-- A drive of the slave, the timer and a key ask. When the drive's turn has come its request
is gone; it asks again, the key is pressed twice more, and the second time is not looked at. -/
def busyEvents (timer key drive : Fin 8) : List LineEvent :=
  [.raise (.slave drive), .raise (.master timer), .raise (.master key), .accept ∅, .accept ∅,
    .accept {drive}, .raise (.slave drive), .raise (.master key), .accept ∅, .accept ∅,
    .raise (.master key)]

/-- The boot with keys to read. -/
def keyedBoot : Machine Ata :=
  ataBoot ⟨0, ataPrimary, ataMaster, .ata, 0, 0, []⟩ (List.replicate 20 0x1E)

omit [TableLayout] in
theorem interrupts_run_busy : ∃ (_ : TableLayout) (s₀ s : Interrupts),
    Installed (fun v => UInt32.ofNat (0xC0010000 + 16 * v.val)) biosPics keyedBoot s₀ ∧
    Run (fun s e s' => s.next portHandlers e = some s') s₀ (busyEvents 0 1 6) s ∧
    s.chips.lines = ⟨{1}, ∅⟩ ∧ s.handled = [32, 33, 47, 33, 46] ∧
    s.chips.wired.pending.isSome := by
  let _ := bootTables
  obtain ⟨s₀, hinstalled, hall⟩ := interrupts_run
    (fun v => UInt32.ofNat (0xC0010000 + 16 * v.val)) portHandlers_spares biosPics keyedBoot
  obtain ⟨s, hrun, -⟩ := exists_run portHandlers_spares portHandlers_return hinstalled.idle.1
    (busyEvents 0 1 6) (by rw [hinstalled.inbox]; decide)
  obtain ⟨hlines, hasks, -⟩ := hall (busyEvents 0 1 6) s hrun
  have hend : (busyEvents 0 1 6).foldl linesStep (⟨∅, ∅⟩, []) =
      (⟨{1}, ∅⟩, [32, 33, 47, 33, 46]) := by
    decide
  obtain ⟨hwait, hhandled⟩ := Prod.mk.inj (hlines.trans hend)
  refine ⟨bootTables, s₀, s, hinstalled, hrun, hwait, hhandled, hasks.mpr ⟨.master 1, ?_⟩⟩
  rw [hwait]
  decide

end

/-! ## No request is lost and none is handled twice -/

/-- The vectors of the lines are different, but for the two inputs with the number 7, whose
vectors the controllers also use for a request that has gone away. -/
theorem vector_eq_iff (r : Served) {l : Line} (hm : l ≠ .master 7) (hs : l ≠ .slave 7) :
    r.vector 0x20 0x28 = (Served.line l).vector 0x20 0x28 ↔ r = .line l := by
  rcases r with (i | i) | slave
  · rcases l with j | j
    · revert i j
      decide
    · revert i j
      decide
  · rcases l with j | j
    · revert i j
      decide
    · revert i j
      decide
  · rcases l with j | j
    · revert slave j
      decide
    · revert slave j
      decide

/-- The calls of `irq_handler` for a line are the times that it was served. -/
theorem count_handled {l : Line} (hm : l ≠ .master 7) (hs : l ≠ .slave 7) (es : List LineEvent)
    (a : Lines × List UInt8) (c : Account) :
    (es.foldl linesStep a).2.count ((Served.line l).vector 0x20 0x28) + c.served =
      a.2.count ((Served.line l).vector 0x20 0x28) + (account l es a.1 c).served := by
  induction es generalizing a c with
  | nil => rfl
  | cons e es ih =>
      have hrest := ih (linesStep a e) (c.next l a.1 e)
      have hstep : (linesStep a e).1 = a.1.next e ∧
          (linesStep a e).2.count ((Served.line l).vector 0x20 0x28) + c.served =
            a.2.count ((Served.line l).vector 0x20 0x28) + (c.next l a.1 e).served := by
        cases e with
        | raise m =>
            refine ⟨rfl, ?_⟩
            rw [Account.next]
            split <;> rfl
        | withdraw m =>
            refine ⟨rfl, ?_⟩
            rw [Account.next]
            split <;> rfl
        | accept late =>
            refine ⟨rfl, ?_⟩
            rw [linesStep, List.count_append, List.count_singleton, Account.next]
            by_cases hserved : (a.1.serve late).1 = .line l
            · rw [if_pos hserved, hserved, if_pos (beq_self_eq_true _)]
              exact Nat.add_right_comm _ _ _
            · have hother := mt (vector_eq_iff _ hm hs).mp hserved
              rw [if_neg hserved, if_neg (by simpa using hother)]
              split <;> rfl
      rw [hstep.1] at hrest
      rw [List.foldl_cons, account]
      omega

section

variable [TableLayout]

/-- For every line but the two inputs 7, over every run: each request that the controllers have
latched was handled once, or was withdrawn before its turn, or still waits. -/
theorem interrupts_account (entry : Fin 48 → UInt32) {handlers : UInt8 → Option (Drv Unit)}
    (hspares : ∀ v h, handlers v = some h → SparesPics h) (p : PicPair) (m : Machine Ata) :
    ∃ s₀, Installed entry p m s₀ ∧ ∀ es s,
      Run (fun s e s' => s.next handlers e = some s') s₀ es s →
        ∀ l, l ≠ .master 7 → l ≠ .slave 7 →
          (account l es ⟨∅, ∅⟩ ⟨0, 0, 0⟩).latched =
            s.handled.count ((Served.line l).vector 0x20 0x28) +
              (account l es ⟨∅, ∅⟩ ⟨0, 0, 0⟩).withdrawn + s.chips.lines.waiting l := by
  obtain ⟨s₀, hinstalled⟩ := exists_installed entry p m
  obtain ⟨hidle₀, hlines₀⟩ := hinstalled.idle
  refine ⟨s₀, hinstalled, fun es s hrun l hm hs => ?_⟩
  obtain ⟨-, hrefine⟩ := interrupts_refine hspares hidle₀ hrun
  rw [hlines₀, hinstalled.handled] at hrefine
  have hcount := count_handled hm hs es (⟨∅, ∅⟩, []) ⟨0, 0, 0⟩
  have hbalance := account_balanced l es ⟨∅, ∅⟩ ⟨0, 0, 0⟩
  have hlines := fst_linesStep es (⟨∅, ∅⟩, [])
  rw [← hrefine] at hcount hlines
  have hstart : Lines.waiting ⟨∅, ∅⟩ l = 0 := by
    cases l with
    | master i => rfl
    | slave i => rfl
  rw [← hlines, hstart] at hbalance
  simp only [List.count_nil] at hcount
  dsimp only at hbalance hcount
  omega

omit [TableLayout] in
/-- Three presses of the key are two calls and one that waits; of the two requests of the drive
one went away. -/
theorem interrupts_account_busy : ∃ (_ : TableLayout) (s₀ s : Interrupts),
    Installed (fun v => UInt32.ofNat (0xC0010000 + 16 * v.val)) biosPics keyedBoot s₀ ∧
    Run (fun s e s' => s.next portHandlers e = some s') s₀ (busyEvents 0 1 6) s ∧
    3 = s.handled.count 33 + s.chips.lines.waiting (.master 1) ∧
    2 = s.handled.count 46 + 1 + s.chips.lines.waiting (.slave 6) := by
  let _ := bootTables
  obtain ⟨s₀, hinstalled, hall⟩ := interrupts_account
    (fun v => UInt32.ofNat (0xC0010000 + 16 * v.val)) portHandlers_spares biosPics keyedBoot
  obtain ⟨s, hrun, -⟩ := exists_run portHandlers_spares portHandlers_return hinstalled.idle.1
    (busyEvents 0 1 6) (by rw [hinstalled.inbox]; decide)
  have hkey := hall _ _ hrun (.master 1) (by decide) (by decide)
  have hdrive := hall _ _ hrun (.slave 6) (by decide) (by decide)
  rw [show account (.master 1) (busyEvents 0 1 6) ⟨∅, ∅⟩ ⟨0, 0, 0⟩ = ⟨3, 2, 0⟩ by decide] at hkey
  rw [show account (.slave 6) (busyEvents 0 1 6) ⟨∅, ∅⟩ ⟨0, 0, 0⟩ = ⟨2, 1, 1⟩ by decide] at hdrive
  exact ⟨bootTables, s₀, s, hinstalled, hrun, hkey, hdrive⟩

/-- Once the devices are quiet, fifteen interrupts serve every line that waits. -/
theorem interrupts_drained (entry : Fin 48 → UInt32) {handlers : UInt8 → Option (Drv Unit)}
    (hspares : ∀ v h, handlers v = some h → SparesPics h) (p : PicPair) (m : Machine Ata) :
    ∃ s₀, Installed entry p m s₀ ∧ ∀ es s,
      Run (fun s e s' => s.next handlers e = some s') s₀
        (es ++ List.replicate 15 (.accept ∅)) s → ∀ l, ¬ s.chips.lines.Waits l := by
  obtain ⟨s₀, hinstalled⟩ := exists_installed entry p m
  obtain ⟨hidle₀, hlines₀⟩ := hinstalled.idle
  refine ⟨s₀, hinstalled, fun es s hrun l => ?_⟩
  obtain ⟨-, hrefine⟩ := interrupts_refine hspares hidle₀ hrun
  rw [hlines₀, hinstalled.handled] at hrefine
  have hlines := fst_linesStep (es ++ List.replicate 15 (.accept ∅)) (⟨∅, ∅⟩, [])
  rw [← hrefine] at hlines
  dsimp only at hlines
  rw [hlines]
  exact quiet_drained es (Finset.notMem_empty _) l

omit [TableLayout] in
/-- A key, the timer and both drives ask. -/
theorem interrupts_drained_busy : ∃ (_ : TableLayout) (s₀ s : Interrupts),
    Installed (fun v => UInt32.ofNat (0xC0010000 + 16 * v.val)) biosPics keyedBoot s₀ ∧
    Run (fun s e s' => s.next portHandlers e = some s') s₀
      ([.raise (.master 1), .raise (.master 0), .raise (.slave 6), .raise (.slave 7)] ++
        List.replicate 15 (.accept ∅)) s ∧
    ∀ l, ¬ s.chips.lines.Waits l := by
  let _ := bootTables
  obtain ⟨s₀, hinstalled, hall⟩ := interrupts_drained
    (fun v => UInt32.ofNat (0xC0010000 + 16 * v.val)) portHandlers_spares biosPics keyedBoot
  obtain ⟨s, hrun, -⟩ := exists_run portHandlers_spares portHandlers_return hinstalled.idle.1
    ([.raise (.master 1), .raise (.master 0), .raise (.slave 6), .raise (.slave 7)] ++
      List.replicate 15 (.accept ∅)) (by rw [hinstalled.inbox]; decide)
  exact ⟨bootTables, s₀, s, hinstalled, hrun, hall _ _ hrun⟩

end

end Bedrock
