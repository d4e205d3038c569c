import Mathlib.Data.Finset.Max
import Mathlib.Data.Fintype.Card
import Mathlib.Order.Fin.Basic

/-!
# A pair of 8259 interrupt controllers

A chip collects the requests of its eight inputs and passes them on in the
order of their numbers: an input in service holds back itself and all inputs
behind it, until an end of interrupt is written. Two chips form a pair, the
second one behind an input of the first: `PicPair.acknowledge` is what the
processor gets when it asks the pair for a vector.

Requests are edges, and the order of the inputs is fixed. The command words
for level mode, rotating priorities, polling and special masks are not part of
the model: a chip that is given one has no next state.

The abstract pair is the two sets of requests alone (`Lines`).
-/

namespace Bedrock.Lib

/-- The inputs whose bits are set. -/
def inputsOf (v : UInt8) : Finset (Fin 8) := Finset.univ.filter fun i => v.toNat.testBit i.val

/-- The input of highest priority. -/
def firstInput (s : Finset (Fin 8)) : Option (Fin 8) :=
  if h : s.Nonempty then some (s.min' h) else none

theorem firstInput_eq_none {s : Finset (Fin 8)} : firstInput s = none ↔ s = ∅ := by
  rw [firstInput, ← Finset.not_nonempty_iff_eq_empty]
  split
  · next h => simp [h]
  · next h => simp [h]

theorem firstInput_mem {s : Finset (Fin 8)} {i : Fin 8} (h : firstInput s = some i) : i ∈ s := by
  rw [firstInput] at h
  split at h
  · cases h
    exact s.min'_mem _
  · cases h

theorem firstInput_singleton (i : Fin 8) : firstInput {i} = some i := by
  rw [firstInput, dif_pos (Finset.singleton_nonempty i), Finset.min'_singleton]

/-! ## One chip -/

/-- The initialization word that is expected next, if one is. -/
inductive PicPhase where
  | ready
  | icw2
  | icw3
  | icw4
deriving DecidableEq, Repr

structure Pic where
  phase : PicPhase
  single : Bool
  needsIcw4 : Bool
  base : UInt8
  wiring : UInt8
  autoEoi : Bool
  masked : Finset (Fin 8)
  requests : Finset (Fin 8)
  service : Finset (Fin 8)
deriving DecidableEq

namespace Pic

/-- The input whose request is passed on. -/
def pending (p : Pic) : Option (Fin 8) :=
  if p.phase ≠ .ready then none
  else
    (firstInput (p.requests \ p.masked)).filter fun i => decide (∀ j ∈ p.service, i < j)

/-- The request of input `i` is taken. -/
def take (p : Pic) (i : Fin 8) : Pic :=
  { p with
    requests := p.requests.erase i
    service := if p.autoEoi then p.service else insert i p.service }

/-- An end of interrupt that does not name its input. -/
def endOfInterrupt (p : Pic) : Pic :=
  match firstInput p.service with
  | some i => { p with service := p.service.erase i }
  | none => p

/-- A write to the command port. -/
def command (p : Pic) (v : UInt8) : Option Pic :=
  if v &&& 0x10 ≠ 0 then
    if v &&& 0x08 ≠ 0 then none
    else
      some { p with
        phase := .icw2
        single := v &&& 0x02 ≠ 0
        needsIcw4 := v &&& 0x01 ≠ 0
        autoEoi := false
        masked := ∅
        requests := ∅
        service := ∅ }
  else if v = 0x20 then some p.endOfInterrupt
  else none

/-- A write to the data port. -/
def data (p : Pic) (v : UInt8) : Option Pic :=
  let last := if p.needsIcw4 then PicPhase.icw4 else .ready
  match p.phase with
  | .ready => some { p with masked := inputsOf v }
  | .icw2 => some { p with base := v &&& 0xF8, phase := if p.single then last else .icw3 }
  | .icw3 => some { p with wiring := v, phase := last }
  | .icw4 =>
      if v &&& 0x1D = 0x01 then some { p with autoEoi := v &&& 0x02 ≠ 0, phase := .ready }
      else none

end Pic

/-! ## Two chips -/

/-- An input of one of the two chips. -/
inductive Line where
  | master (i : Fin 8)
  | slave (i : Fin 8)
deriving DecidableEq, Repr

structure PicPair where
  master : Pic
  slave : Pic
deriving DecidableEq

/-- The input of the master that the slave is wired to. -/
def cascadeInput : Fin 8 := 2

namespace PicPair

/-- A device asks on its line. The cascade input has no device. -/
def raise (p : PicPair) : Line → PicPair
  | .master i =>
      if i = cascadeInput then p
      else { p with master.requests := insert i p.master.requests }
  | .slave i => { p with slave.requests := insert i p.slave.requests }

/-- A device takes its request back. -/
def withdraw (p : PicPair) : Line → PicPair
  | .master i => { p with master.requests := p.master.requests.erase i }
  | .slave i => { p with slave.requests := p.slave.requests.erase i }

/-- The master as it sees its inputs. -/
def wired (p : PicPair) : Pic :=
  if p.slave.pending.isSome then
    { p.master with requests := insert cascadeInput p.master.requests }
  else p.master

/-- The two pulses with which the processor asks for a vector. The requests
`late` at the slave go away between the first and the second. Where nothing is
pending a chip answers with its last vector and takes nothing into service; no
answer comes if the master refers to a slave that does not take itself for it. -/
def acknowledge (p : PicPair) (late : Finset (Fin 8)) : Option (UInt8 × PicPair) :=
  match p.wired.pending with
  | none => some (p.master.base ||| 7, p)
  | some i =>
      let master := p.master.take i
      if i ∈ inputsOf p.master.wiring then
        if p.slave.wiring = UInt8.ofNat i.val then
          let slave := { p.slave with requests := p.slave.requests \ late }
          match slave.pending with
          | none => some (slave.base ||| 7, ⟨master, slave⟩)
          | some j => some (slave.base ||| UInt8.ofNat j.val, ⟨master, slave.take j⟩)
        else none
      else some (p.master.base ||| UInt8.ofNat i.val, ⟨master, p.slave⟩)

end PicPair

/-! ## The requests alone -/

/-- The requests that wait at the two chips. -/
structure Lines where
  master : Finset (Fin 8)
  slave : Finset (Fin 8)
deriving DecidableEq

/-- How the processor's question ends: with a line, or with a vector that no
line has asked for. -/
inductive Served where
  | line (l : Line)
  | spurious (slave : Bool)
deriving DecidableEq, Repr

namespace Lines

def Waits (ls : Lines) : Line → Prop
  | .master i => i ∈ ls.master
  | .slave i => i ∈ ls.slave

instance (ls : Lines) (l : Line) : Decidable (ls.Waits l) :=
  match l with
  | .master i => inferInstanceAs (Decidable (i ∈ ls.master))
  | .slave i => inferInstanceAs (Decidable (i ∈ ls.slave))

def raise (ls : Lines) : Line → Lines
  | .master i => if i = cascadeInput then ls else { ls with master := insert i ls.master }
  | .slave i => { ls with slave := insert i ls.slave }

def withdraw (ls : Lines) : Line → Lines
  | .master i => { ls with master := ls.master.erase i }
  | .slave i => { ls with slave := ls.slave.erase i }

/-- The master's inputs. -/
def wired (ls : Lines) : Finset (Fin 8) :=
  if ls.slave.Nonempty then insert cascadeInput ls.master else ls.master

/-- The first line that waits is served, the slave's in the place of the input
it is wired to. -/
def serve (ls : Lines) (late : Finset (Fin 8)) : Served × Lines :=
  match firstInput ls.wired with
  | none => (.spurious false, ls)
  | some i =>
      if i = cascadeInput then
        match firstInput (ls.slave \ late) with
        | none => (.spurious true, { ls with slave := ls.slave \ late })
        | some j => (.line (.slave j), { ls with slave := (ls.slave \ late).erase j })
      else (.line (.master i), { ls with master := ls.master.erase i })

end Lines

/-! ## The pair serves its lines -/

def PicPair.lines (p : PicPair) : Lines := ⟨p.master.requests, p.slave.requests⟩

/-- The pair ends the service it is in: at the slave as well if it took part. -/
def PicPair.finish (p : PicPair) (slave : Bool) : PicPair :=
  { master := p.master.endOfInterrupt
    slave := if slave then p.slave.endOfInterrupt else p.slave }

/-- The vector that the processor gets, for the bases of the two chips. -/
def Served.vector (masterBase slaveBase : UInt8) : Served → UInt8
  | .line (.master i) => masterBase ||| UInt8.ofNat i.val
  | .line (.slave i) => slaveBase ||| UInt8.ofNat i.val
  | .spurious false => masterBase ||| 7
  | .spurious true => slaveBase ||| 7

/-- Whether the slave took part. -/
def Served.bySlave : Served → Bool
  | .line (.master _) => false
  | .line (.slave _) => true
  | .spurious slave => slave

/-- A chip that passes on every request. -/
structure Pic.Idle (p : Pic) (base wiring : UInt8) : Prop where
  phase : p.phase = .ready
  base : p.base = base
  wiring : p.wiring = wiring
  autoEoi : p.autoEoi = false
  masked : p.masked = ∅
  service : p.service = ∅

/-- A pair that is wired up and has nothing in service. -/
structure PicPair.Idle (p : PicPair) (masterBase slaveBase : UInt8) : Prop where
  master : p.master.Idle masterBase 0x04
  slave : p.slave.Idle slaveBase 0x02
  cascade : cascadeInput ∉ p.master.requests

section

variable {p : Pic} {base wiring : UInt8}

theorem Pic.Idle.pending (h : p.Idle base wiring) : p.pending = firstInput p.requests := by
  rw [Pic.pending, if_neg (not_not.mpr h.phase), h.masked, h.service, Finset.sdiff_empty]
  cases firstInput p.requests with
  | none => rfl
  | some i => simp

theorem Pic.Idle.requests (h : p.Idle base wiring) (s : Finset (Fin 8)) :
    { p with requests := s }.Idle base wiring :=
  ⟨h.phase, h.base, h.wiring, h.autoEoi, h.masked, h.service⟩

theorem Pic.Idle.endOfInterrupt (h : p.Idle base wiring) : p.endOfInterrupt = p := by
  rw [Pic.endOfInterrupt, h.service, firstInput_eq_none.mpr rfl]

/-- What is taken into service by an idle chip is what the next end of interrupt
ends. -/
theorem Pic.Idle.take_end (h : p.Idle base wiring) (i : Fin 8) :
    (p.take i).endOfInterrupt = { p with requests := p.requests.erase i } := by
  have hservice : (p.take i).service = {i} := by
    rw [Pic.take, h.autoEoi, h.service]
    rfl
  rw [Pic.endOfInterrupt, hservice, firstInput_singleton]
  simp only [Pic.take, Finset.erase_singleton, h.service]

end

section

variable {p : PicPair} {masterBase slaveBase : UInt8}

theorem PicPair.Idle.wired (h : p.Idle masterBase slaveBase) :
    p.wired.pending = firstInput p.lines.wired := by
  have hsome : p.slave.pending.isSome ↔ p.lines.slave.Nonempty := by
    rw [h.slave.pending, Option.isSome_iff_ne_none, ne_eq, firstInput_eq_none,
      ← Finset.not_nonempty_iff_eq_empty, not_not]
    rfl
  rw [PicPair.wired, Lines.wired]
  by_cases hslave : p.lines.slave.Nonempty
  · rw [if_pos (hsome.mpr hslave), if_pos hslave, (h.master.requests _).pending]
    rfl
  · rw [if_neg (mt hsome.mp hslave), if_neg hslave, h.master.pending]
    rfl

/-- The inputs of an idle pair's master: the cascade input is the only one that
leads to a slave. -/
theorem mem_inputsOf_wiring (i : Fin 8) : i ∈ inputsOf 0x04 ↔ i = cascadeInput := by
  revert i
  decide

/-- The cascade input carries no request of its own. -/
theorem PicPair.Idle.take_cascade (h : p.Idle masterBase slaveBase) :
    (p.master.take cascadeInput).endOfInterrupt = p.master := by
  rw [h.master.take_end, Finset.erase_eq_of_notMem h.cascade]

theorem PicPair.Idle.withSlave (h : p.Idle masterBase slaveBase) (s : Finset (Fin 8)) :
    PicPair.Idle ⟨p.master, { p.slave with requests := s }⟩ masterBase slaveBase :=
  ⟨h.master, h.slave.requests s, h.cascade⟩

/-- One question of the processor and the ends of interrupt that follow: the
pair answers with the line that is served, and is idle again. -/
theorem PicPair.Idle.acknowledge (h : p.Idle masterBase slaveBase) (late : Finset (Fin 8)) :
    ∃ p', p.acknowledge late = some ((p.lines.serve late).1.vector masterBase slaveBase, p') ∧
      (p'.finish (p.lines.serve late).1.bySlave).Idle masterBase slaveBase ∧
      (p'.finish (p.lines.serve late).1.bySlave).lines = (p.lines.serve late).2 := by
  rw [PicPair.acknowledge, h.wired, Lines.serve]
  cases hfirst : firstInput p.lines.wired with
  | none =>
      refine ⟨p, by rw [h.master.base]; rfl, ?_⟩
      rw [PicPair.finish, h.master.endOfInterrupt]
      exact ⟨h, rfl⟩
  | some i =>
      by_cases hi : i = cascadeInput
      · -- the second pulse goes to the slave
        subst hi
        have hcascade : cascadeInput ∈ inputsOf p.master.wiring := by
          rw [h.master.wiring, mem_inputsOf_wiring]
        have hslave := h.slave.requests (p.slave.requests \ late)
        have hwired : p.slave.wiring = UInt8.ofNat cascadeInput.val := h.slave.wiring
        simp only [if_pos hcascade, if_pos hwired, if_true, hslave.pending]
        have hend := h.withSlave
        cases hsecond : firstInput (p.slave.requests \ late) with
        | none =>
            have hserve : firstInput (p.lines.slave \ late) = none := hsecond
            rw [hserve]
            have hbase : p.slave.base ||| 7 = slaveBase ||| 7 := by rw [h.slave.base]
            refine ⟨_, congrArg some (Prod.ext hbase rfl), ?_⟩
            simp only [PicPair.finish, Served.bySlave, h.take_cascade, if_true,
              hslave.endOfInterrupt]
            exact ⟨hend _, rfl⟩
        | some j =>
            have hserve : firstInput (p.lines.slave \ late) = some j := hsecond
            rw [hserve]
            have hbase : p.slave.base ||| UInt8.ofNat j.val = slaveBase ||| UInt8.ofNat j.val := by
              rw [h.slave.base]
            refine ⟨_, congrArg some (Prod.ext hbase rfl), ?_⟩
            simp only [PicPair.finish, Served.bySlave, h.take_cascade, if_true,
              hslave.take_end]
            exact ⟨hend _, rfl⟩
      · have hcascade : i ∉ inputsOf p.master.wiring := by
          rwa [h.master.wiring, mem_inputsOf_wiring]
        simp only [if_neg hcascade, if_neg hi]
        refine ⟨_, by rw [h.master.base]; rfl, ?_⟩
        simp only [PicPair.finish, Served.bySlave, h.master.take_end, Bool.false_eq_true, if_false]
        refine ⟨⟨h.master.requests _, h.slave, ?_⟩, rfl⟩
        exact fun hmem => h.cascade (Finset.mem_of_mem_erase hmem)

/-- Nothing is held back: the pair asks for the processor as soon as a line waits. -/
theorem PicPair.Idle.asks (h : p.Idle masterBase slaveBase) :
    p.wired.pending.isSome ↔ ∃ l, p.lines.Waits l := by
  have hany : (∃ l, p.lines.Waits l) ↔ p.lines.wired.Nonempty := by
    constructor
    · rintro ⟨l, hl⟩
      rw [Lines.wired]
      split
      · exact Finset.insert_nonempty _ _
      · next hnone =>
          cases l with
          | master i => exact ⟨i, hl⟩
          | slave i => exact absurd ⟨i, hl⟩ hnone
    · rintro ⟨i, hi⟩
      rw [Lines.wired] at hi
      split at hi
      · next hslave => exact ⟨.slave hslave.choose, hslave.choose_spec⟩
      · exact ⟨.master i, hi⟩
  rw [h.wired, hany, Option.isSome_iff_ne_none, ne_eq, firstInput_eq_none,
    ← Finset.not_nonempty_iff_eq_empty, not_not]

theorem PicPair.Idle.raise (h : p.Idle masterBase slaveBase) (l : Line) :
    (p.raise l).Idle masterBase slaveBase ∧ (p.raise l).lines = p.lines.raise l := by
  cases l with
  | master i =>
      rw [PicPair.raise, Lines.raise]
      split
      · exact ⟨h, rfl⟩
      · next hi =>
          refine ⟨⟨h.master.requests _, h.slave, fun hmem => ?_⟩, rfl⟩
          exact (Finset.mem_insert.mp hmem).elim (fun heq => hi heq.symm) h.cascade
  | slave i => exact ⟨⟨h.master, h.slave.requests _, h.cascade⟩, rfl⟩

theorem PicPair.Idle.withdraw (h : p.Idle masterBase slaveBase) (l : Line) :
    (p.withdraw l).Idle masterBase slaveBase ∧ (p.withdraw l).lines = p.lines.withdraw l := by
  cases l with
  | master i =>
      refine ⟨⟨h.master.requests _, h.slave, fun hmem => ?_⟩, rfl⟩
      exact h.cascade (Finset.mem_of_mem_erase hmem)
  | slave i => exact ⟨⟨h.master, h.slave.requests _, h.cascade⟩, rfl⟩

end

/-! ## Keeping account of a line -/

/-- What happens to the pair between the processor's instructions. -/
inductive LineEvent where
  | raise (l : Line)
  | withdraw (l : Line)
  | accept (late : Finset (Fin 8))
deriving DecidableEq

def Lines.next (ls : Lines) : LineEvent → Lines
  | .raise l => ls.raise l
  | .withdraw l => ls.withdraw l
  | .accept late => (ls.serve late).2

/-- The request of a line that the processor's question came too late for. -/
def Lines.Misses (ls : Lines) (late : Finset (Fin 8)) : Line → Prop
  | .master _ => False
  | .slave i => firstInput ls.wired = some cascadeInput ∧ i ∈ late

instance (ls : Lines) (late : Finset (Fin 8)) (l : Line) : Decidable (ls.Misses late l) :=
  match l with
  | .master _ => isFalse id
  | .slave i => inferInstanceAs (Decidable (_ ∧ i ∈ late))

/-- The requests of one line so far: those that were latched, those that were
served, and those that went away. -/
structure Account where
  latched : Nat
  served : Nat
  withdrawn : Nat
deriving DecidableEq, Repr

def Account.next (l : Line) (ls : Lines) (a : Account) : LineEvent → Account
  | .raise m =>
      if m = l ∧ m ≠ .master cascadeInput ∧ ¬ ls.Waits l then
        { a with latched := a.latched + 1 }
      else a
  | .withdraw m =>
      if m = l ∧ ls.Waits l then { a with withdrawn := a.withdrawn + 1 } else a
  | .accept late =>
      if (ls.serve late).1 = .line l then { a with served := a.served + 1 }
      else if ls.Waits l ∧ ls.Misses late l then { a with withdrawn := a.withdrawn + 1 }
      else a

/-- The lines and the account of one of them after some events. -/
def account (l : Line) : List LineEvent → Lines → Account → Account
  | [], _, a => a
  | e :: es, ls, a => account l es (ls.next e) (a.next l ls e)

/-- 1 for a line that waits. -/
def Lines.waiting (ls : Lines) (l : Line) : Nat := if ls.Waits l then 1 else 0

theorem waits_raise {ls : Lines} {l m : Line} :
    (ls.raise m).Waits l ↔ ls.Waits l ∨ (m = l ∧ m ≠ .master cascadeInput) := by
  cases m with
  | master i =>
      rw [Lines.raise]
      cases l with
      | master j =>
          split
          · next hi => simp [hi]
          · next hi => simp [Lines.Waits, hi, or_comm, eq_comm]
      | slave j => split <;> simp [Lines.Waits]
  | slave i => cases l <;> simp [Lines.raise, Lines.Waits, or_comm, eq_comm]

theorem waits_withdraw {ls : Lines} {l m : Line} :
    (ls.withdraw m).Waits l ↔ ls.Waits l ∧ m ≠ l := by
  cases m <;> cases l <;> simp [Lines.withdraw, Lines.Waits, and_comm, eq_comm]

/-- The ways a question of the processor ends. -/
theorem serve_cases (ls : Lines) (late : Finset (Fin 8)) :
    (firstInput ls.wired = none ∧ ls.serve late = (.spurious false, ls)) ∨
    (∃ i, firstInput ls.wired = some i ∧ i ≠ cascadeInput ∧
      ls.serve late = (.line (.master i), { ls with master := ls.master.erase i })) ∨
    (firstInput ls.wired = some cascadeInput ∧ firstInput (ls.slave \ late) = none ∧
      ls.serve late = (.spurious true, { ls with slave := ls.slave \ late })) ∨
    (∃ j, firstInput ls.wired = some cascadeInput ∧ firstInput (ls.slave \ late) = some j ∧
      ls.serve late = (.line (.slave j), { ls with slave := (ls.slave \ late).erase j })) := by
  rw [Lines.serve]
  cases hfirst : firstInput ls.wired with
  | none => exact .inl ⟨rfl, rfl⟩
  | some i =>
      right
      by_cases hi : i = cascadeInput
      · right
        subst hi
        simp only [if_true]
        cases hsecond : firstInput (ls.slave \ late) with
        | none => exact .inl ⟨trivial, rfl, rfl⟩
        | some j => exact .inr ⟨j, trivial, rfl, rfl⟩
      · simp only [if_neg hi]
        exact .inl ⟨i, rfl, hi, rfl⟩

/-- The input that is first at the master belongs to a line that waits. -/
theorem mem_of_wired {ls : Lines} {i : Fin 8} (h : firstInput ls.wired = some i)
    (hi : i ≠ cascadeInput) : i ∈ ls.master := by
  have hmem := firstInput_mem h
  rw [Lines.wired] at hmem
  split at hmem
  · exact (Finset.mem_insert.mp hmem).resolve_left hi
  · exact hmem

/-- A line that is served was waiting, and did not miss its turn. -/
theorem served_waits {ls : Lines} {late : Finset (Fin 8)} {l : Line}
    (h : (ls.serve late).1 = .line l) : ls.Waits l ∧ ¬ ls.Misses late l := by
  rcases serve_cases ls late with ⟨-, hs⟩ | ⟨i, hfirst, hi, hs⟩ | ⟨-, -, hs⟩ |
    ⟨j, -, hsecond, hs⟩
  · rw [hs] at h
    cases h
  · rw [hs] at h
    cases h
    exact ⟨mem_of_wired hfirst hi, id⟩
  · rw [hs] at h
    cases h
  · rw [hs] at h
    cases h
    have hmem := Finset.mem_sdiff.mp (firstInput_mem hsecond)
    exact ⟨hmem.1, fun hmiss => hmem.2 hmiss.2⟩

/-- A line waits on unless it is served or misses its turn. -/
theorem waits_serve {ls : Lines} {late : Finset (Fin 8)} {l : Line} :
    (ls.serve late).2.Waits l ↔
      ls.Waits l ∧ (ls.serve late).1 ≠ .line l ∧ ¬ ls.Misses late l := by
  rcases serve_cases ls late with ⟨hfirst, hs⟩ | ⟨i, hfirst, hi, hs⟩ | ⟨hfirst, -, hs⟩ |
    ⟨j, hfirst, -, hs⟩
  · rw [hs]
    cases l <;> simp [Lines.Misses, hfirst]
  · rw [hs]
    cases l with
    | master k => simp [Lines.Waits, Lines.Misses, and_comm, eq_comm]
    | slave k => simp [Lines.Waits, Lines.Misses, hfirst, hi]
  · rw [hs]
    cases l <;> simp [Lines.Waits, Lines.Misses, hfirst]
  · rw [hs]
    cases l with
    | master k => simp [Lines.Waits, Lines.Misses]
    | slave k => simp [Lines.Waits, Lines.Misses, hfirst, and_assoc, and_comm, eq_comm]

/-- One event: what is latched is served, withdrawn or still waits. -/
theorem account_next (l : Line) (ls : Lines) (a : Account) (e : LineEvent) :
    (a.next l ls e).latched + a.served + a.withdrawn + ls.waiting l =
      a.latched + (a.next l ls e).served + (a.next l ls e).withdrawn +
        (ls.next e).waiting l := by
  cases e with
  | raise m =>
      rw [Account.next, Lines.waiting, Lines.waiting, Lines.next]
      simp only [waits_raise]
      by_cases hm : m = l ∧ m ≠ .master cascadeInput
      · by_cases hw : ls.Waits l
        · simp [hm, hw]
        · rw [if_pos ⟨hm.1, hm.2, hw⟩, if_neg hw, if_pos (Or.inr hm)]
          show a.latched + 1 + a.served + a.withdrawn + 0 =
            a.latched + a.served + a.withdrawn + 1
          omega
      · rw [if_neg fun h => hm ⟨h.1, h.2.1⟩]
        simp [hm]
  | withdraw m =>
      rw [Account.next, Lines.waiting, Lines.waiting, Lines.next]
      simp only [waits_withdraw]
      by_cases hw : ls.Waits l
      · by_cases hm : m = l
        · simp only [hm, hw, and_self, if_true, ne_eq, not_true_eq_false, and_false, if_false]
          omega
        · simp [hm, hw]
      · simp [hw]
  | accept late =>
      rw [Account.next, Lines.waiting, Lines.waiting, Lines.next]
      simp only [waits_serve]
      by_cases hserved : (ls.serve late).1 = .line l
      · have hw := (served_waits hserved).1
        simp only [hserved, hw, if_true, ne_eq, not_true_eq_false, false_and, and_false, if_false]
        omega
      · rw [if_neg hserved]
        by_cases hw : ls.Waits l
        · by_cases hmiss : ls.Misses late l
          · simp only [hw, hmiss, and_self, if_true, not_true_eq_false, and_false, if_false]
            omega
          · simp [hw, hmiss, hserved]
        · simp [hw]

/-- Every request that was latched is served once, or was withdrawn, or waits. -/
theorem account_balanced (l : Line) (es : List LineEvent) (ls : Lines) (a : Account) :
    (account l es ls a).latched + a.served + a.withdrawn + ls.waiting l =
      a.latched + (account l es ls a).served + (account l es ls a).withdrawn +
        (es.foldl Lines.next ls).waiting l := by
  induction es generalizing ls a with
  | nil => rfl
  | cons e es ih =>
      have hstep := account_next l ls a e
      have hrest := ih (ls.next e) (a.next l ls e)
      rw [account, List.foldl_cons]
      omega

/-! ## Quiet devices -/

/-- The number of lines that wait. -/
def Lines.size (ls : Lines) : Nat := ls.master.card + ls.slave.card

theorem size_eq_zero {ls : Lines} : ls.size = 0 ↔ ∀ l, ¬ ls.Waits l := by
  rw [Lines.size, Nat.add_eq_zero_iff, Finset.card_eq_zero, Finset.card_eq_zero]
  constructor
  · rintro ⟨hm, hs⟩ (i | i) hl
    · rw [Lines.Waits, hm] at hl
      exact Finset.notMem_empty i hl
    · rw [Lines.Waits, hs] at hl
      exact Finset.notMem_empty i hl
  · intro h
    exact ⟨Finset.eq_empty_of_forall_notMem fun i => h (.master i),
      Finset.eq_empty_of_forall_notMem fun i => h (.slave i)⟩

/-- One question of the processor serves one line, if any waits. -/
theorem size_serve {ls : Lines} (hcascade : cascadeInput ∉ ls.master) :
    (ls.serve ∅).2.size = ls.size - 1 ∧ cascadeInput ∉ (ls.serve ∅).2.master := by
  rcases serve_cases ls ∅ with ⟨hfirst, hs⟩ | ⟨i, hfirst, hi, hs⟩ | ⟨hfirst, hsecond, -⟩ |
    ⟨j, -, hsecond, hs⟩
  · rw [hs]
    refine ⟨?_, hcascade⟩
    have hempty := firstInput_eq_none.mp hfirst
    have hzero : ls.size = 0 := by
      rw [Lines.wired] at hempty
      split at hempty
      · exact absurd hempty (Finset.insert_ne_empty _ _)
      · next hslave => rw [Lines.size, hempty, Finset.not_nonempty_iff_eq_empty.mp hslave]; rfl
    rw [hzero]
  · rw [hs]
    refine ⟨?_, fun h => hcascade (Finset.mem_of_mem_erase h)⟩
    have hmem := mem_of_wired hfirst hi
    have hpos := Finset.card_pos.mpr ⟨i, hmem⟩
    simp only [Lines.size, Finset.card_erase_of_mem hmem]
    omega
  · -- the cascade input asks only for a line of the slave
    rw [Finset.sdiff_empty] at hsecond
    have hempty := firstInput_eq_none.mp hsecond
    have hmem := firstInput_mem hfirst
    rw [Lines.wired, hempty, if_neg Finset.not_nonempty_empty] at hmem
    exact absurd hmem hcascade
  · rw [hs]
    refine ⟨?_, hcascade⟩
    rw [Finset.sdiff_empty] at hsecond ⊢
    have hmem := firstInput_mem hsecond
    have hpos := Finset.card_pos.mpr ⟨j, hmem⟩
    simp only [Lines.size, Finset.card_erase_of_mem hmem]
    omega

/-- As many questions as lines wait serve them all. -/
theorem drained (n : Nat) {ls : Lines} (hcascade : cascadeInput ∉ ls.master) :
    ((List.replicate n (LineEvent.accept ∅)).foldl Lines.next ls).size = ls.size - n := by
  induction n generalizing ls with
  | zero => rfl
  | succ n ih =>
      obtain ⟨hsize, hcascade'⟩ := size_serve hcascade
      have hrest := ih hcascade'
      rw [hsize] at hrest
      rw [List.replicate_succ, List.foldl_cons]
      exact hrest.trans (by omega)

theorem cascade_next {ls : Lines} (h : cascadeInput ∉ ls.master) (e : LineEvent) :
    cascadeInput ∉ (ls.next e).master := by
  cases e with
  | raise l =>
      cases l with
      | master i =>
          rw [Lines.next, Lines.raise]
          split
          · exact h
          · next hi =>
              exact fun hmem => (Finset.mem_insert.mp hmem).elim (fun heq => hi heq.symm) h
      | slave i => exact h
  | withdraw l =>
      cases l with
      | master i => exact fun hmem => h (Finset.mem_of_mem_erase hmem)
      | slave i => exact h
  | accept late =>
      rw [Lines.next]
      rcases serve_cases ls late with ⟨-, hs⟩ | ⟨i, -, -, hs⟩ | ⟨-, -, hs⟩ | ⟨j, -, -, hs⟩
      · rw [hs]
        exact h
      · rw [hs]
        exact fun hmem => h (Finset.mem_of_mem_erase hmem)
      · rw [hs]
        exact h
      · rw [hs]
        exact h

/-- There are fifteen lines. -/
theorem size_le {ls : Lines} (h : cascadeInput ∉ ls.master) : ls.size ≤ 15 := by
  have hmaster : ls.master.card ≤ (Finset.univ.erase cascadeInput).card :=
    Finset.card_le_card fun i hi =>
      Finset.mem_erase.mpr ⟨fun heq => h (heq ▸ hi), Finset.mem_univ i⟩
  have hslave : ls.slave.card ≤ 8 := Finset.card_le_univ ls.slave
  have hseven : (Finset.univ.erase cascadeInput).card = 7 := by decide
  rw [Lines.size]
  omega

/-- Once the devices are quiet, fifteen questions serve every line. -/
theorem quiet_drained (es : List LineEvent) {ls : Lines} (hcascade : cascadeInput ∉ ls.master)
    (l : Line) :
    ¬ ((es ++ List.replicate 15 (LineEvent.accept ∅)).foldl Lines.next ls).Waits l := by
  rw [List.foldl_append]
  induction es generalizing ls with
  | nil =>
      rw [List.foldl_nil]
      have hsize := drained 15 hcascade
      rw [Nat.sub_eq_zero_of_le (size_le hcascade)] at hsize
      exact size_eq_zero.mp hsize l
  | cons e es ih => exact ih (cascade_next hcascade e)

end Bedrock.Lib
