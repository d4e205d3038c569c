import Bedrock.Proofs.AtaRange

/-!
# Errors during a write

A drive reports an error by the status it shows once it is no longer busy. The
write path of `ide_ata_access` polls before each block and after the flush, but
drops what it learns there. So a write is reported right in two cases: where it
is refused before it begins, and where there is nothing to report.
-/

namespace Bedrock

open Lib

/-- ERR or DF. -/
def faulty (status : UInt8) : Bool := status &&& 0x21 ≠ 0

/-! ## The polling points in a log -/

/-- The statuses that ended the polls of a write: those right before a block goes
out, and the last. -/
def pollStatuses : List PortEvent → List UInt8
  | [] => []
  | [.inb _ b] => [b]
  | .inb _ b :: .outsw _ _ :: es => b :: pollStatuses es
  | _ :: es => pollStatuses es

/-- A log that goes on with something other than a block. -/
def StartsQuiet (es : List PortEvent) : Prop :=
  ∃ e rest, es = e :: rest ∧ ¬ e.IsBlock

theorem pollStatuses_cons {e : PortEvent} {es : List PortEvent} (hes : StartsQuiet es) :
    pollStatuses (e :: es) = pollStatuses es := by
  obtain ⟨e', rest, rfl, hblock⟩ := hes
  cases e with
  | inb port data =>
      cases e' with
      | inb port' data' => rfl
      | outb port' data' => rfl
      | insw port' words => rfl
      | outsw port' words => exact absurd trivial hblock
  | outb port data => rfl
  | insw port words => rfl
  | outsw port words => rfl

theorem StartsQuiet.append {pre es : List PortEvent} (hpre : ∀ e ∈ pre, ¬ e.IsBlock)
    (hes : StartsQuiet es) : StartsQuiet (pre ++ es) := by
  cases pre with
  | nil => exact hes
  | cons e pre => exact ⟨e, pre ++ es, rfl, hpre e List.mem_cons_self⟩

/-- What comes before a poll ends is no polling point. -/
theorem pollStatuses_append {pre es : List PortEvent} (hpre : ∀ e ∈ pre, ¬ e.IsBlock)
    (hes : StartsQuiet es) : pollStatuses (pre ++ es) = pollStatuses es := by
  induction pre with
  | nil => rfl
  | cons e pre ih =>
      have hpre' : ∀ e' ∈ pre, ¬ e'.IsBlock := fun e' h => hpre e' (List.mem_cons_of_mem e h)
      rw [List.cons_append, pollStatuses_cons (hes.append hpre'), ih hpre']

/-! ## The polling points on the tape -/

/-- The statuses that end the next `n` polls. -/
def polls : Nat → List UInt8 → List UInt8
  | 0, _ => []
  | n + 1, tape =>
      match pollTape tape with
      | [] => []
      | b :: rest => b :: polls n rest

theorem polls_succ {n : Nat} {tape rest : List UInt8} {b : UInt8}
    (h : pollTape tape = b :: rest) : polls (n + 1) tape = b :: polls n rest := by
  rw [polls, h]

/-- The statuses the drive presents at the polling points of a write of `n`
sectors, given the tape at the call: first the driver waits until the drive
takes commands, then it polls once for each block and once for the flush. -/
def presented (n : Nat) (tape : List UInt8) : List UInt8 :=
  polls (n + 1) (tape.dropWhile (masked 0x80)).tail

section

variable {channel : Fin 2} {bus : UInt16} {edi : UInt32} {n : Nat} {s t : Machine Ata}

theorem pioWrite_polls (h : (pioWrite channel bus n edi).run s = .ok () t) :
    ∃ log statuses, t.dev.log = s.dev.log ++ log ∧
      (∀ k, polls (n + k) s.dev.inbox = statuses ++ polls k t.dev.inbox) ∧
      ∀ es, StartsQuiet es → StartsQuiet (log ++ es) ∧
        pollStatuses (log ++ es) = statuses ++ pollStatuses es := by
  induction n generalizing s edi with
  | zero =>
      obtain ⟨-, rfl⟩ := Exec.pure_inv h
      refine ⟨[], [], (List.append_nil _).symm, fun k => ?_, fun es hes => ⟨hes, rfl⟩⟩
      rw [Nat.zero_add, List.nil_append]
  | succ n ih =>
      rw [pioWrite] at h
      obtain ⟨_, s₁, hpoll, h⟩ := Exec.bind_inv h
      obtain ⟨_, _, hget, h⟩ := Exec.bind_inv h
      cases hget
      obtain ⟨_, s₂, hout, h⟩ := Exec.bind_inv h
      obtain ⟨log, statuses, hlog, hpolls, htail⟩ := ih h
      obtain ⟨es, port, b, rest, htape, hread, rfl⟩ := idePolling_inv hpoll
      cases hout
      let block := PortEvent.outsw bus (wordsAt s.mem edi 256)
      refine ⟨es ++ .inb port b :: block :: log, b :: statuses, ?_, fun k => ?_,
        fun es' hes' => ?_⟩
      · rw [hlog]
        show s.dev.log ++ (es ++ [.inb port b]) ++ [block] ++ log = _
        simp only [List.append_assoc, List.cons_append, List.nil_append]
      · rw [Nat.add_right_comm, polls_succ htape, List.cons_append]
        exact congrArg _ (hpolls k)
      · have hnone : ∀ e ∈ es, ¬ e.IsBlock := fun e he => (hread e he).notBlock
        have hinb : StartsQuiet (.inb port b :: block :: (log ++ es')) := ⟨_, _, rfl, id⟩
        rw [List.append_assoc, List.cons_append, List.cons_append]
        refine ⟨hinb.append hnone, ?_⟩
        rw [pollStatuses_append hnone hinb, List.cons_append, ← (htail es' hes').2]
        rfl

/-- The log of a write that got through shows at its polling points what the tape
held there. -/
theorem ataTransfer_polls {lbaMode : LbaMode} {r : UInt8}
    (h : (ataTransfer .write channel bus lbaMode n edi).run s = .ok r t) :
    ∃ log, t.dev.log = s.dev.log ++ log ∧ StartsQuiet log ∧
      pollStatuses log = polls (n + 1) s.dev.inbox := by
  obtain ⟨s₁, _, hpio, hpoll⟩ := ataTransfer_write_inv h
  obtain ⟨log, statuses, hlog, hpolls, htail⟩ := pioWrite_polls hpio
  obtain ⟨es, port, b, rest, htape, hread, rfl⟩ := idePolling_inv hpoll
  let sent := writeEvents (s₁.dev.channels channel) 0x07 (flushOf lbaMode)
  have hnone : ∀ e ∈ sent ++ es, ¬ e.IsBlock := List.forall_mem_append.mpr
    ⟨writeEvents_notBlock _ _ _, fun e he => (hread e he).notBlock⟩
  have hlast : StartsQuiet [PortEvent.inb port b] := ⟨_, _, rfl, id⟩
  obtain ⟨hquiet, hstatuses⟩ := htail (sent ++ es ++ [.inb port b]) (hlast.append hnone)
  refine ⟨log ++ (sent ++ es ++ [.inb port b]), ?_, hquiet, ?_⟩
  · rw [heard_log, loggedAll_log, hlog, List.append_assoc, List.append_assoc,
      List.append_assoc]
  · rw [loggedAll_inbox] at htape
    rw [hstatuses, hpolls 1, pollStatuses_append hnone hlast, polls_succ htape]
    rfl

end

/-! ## Main result -/

/-- A call of `ide_write_sectors` from `s` to `t` that returned `r` did not return
0 over an error the drive reported at one of its polling points. -/
def ErrorsReported (s t : Machine Ata) (r : Int32) : Prop :=
  r = 0 → ∀ log, t.dev.log = s.dev.log ++ log → ∀ b ∈ pollStatuses log, ¬ faulty b

section

variable {s t : Machine Ata} {drive numsects : UInt8} {lba : UInt32} {es : UInt16}
  {edi : UInt32} {r : Int32}

theorem ideWriteSectors_refused (hpresent : ¬ DriveAbsent s.dev drive)
    (hrange : OutOfRange s.dev drive lba numsects) :
    (ideWriteSectors drive numsects lba es edi).run s =
      .ok 2 { s with dev.package0 := 2 } := by
  rw [ideWriteSectors, Exec.bind_ok (EStateM.run_get s)]
  simp only [if_neg hpresent, if_pos hrange]
  rfl

/-- An accepted write that returns, returns 0, and its log shows the statuses of
the tape. -/
theorem ideWriteSectors_accepted_inv (haccepted : Accepted s.dev drive numsects lba)
    (h : (ideWriteSectors drive numsects lba es edi).run s = .ok r t) :
    r = 0 ∧ ∃ log, t.dev.log = s.dev.log ++ log ∧
      pollStatuses log = presented numsects.toNat s.dev.inbox := by
  rw [ideWriteSectors_accepted haccepted] at h
  obtain ⟨err, u, haccess, h⟩ := Exec.bind_inv h
  rw [ideAtaAccess_write_zero haccess, idePrintError_zero, pure_bind] at h
  have hend : r = 0 ∧ t.dev.log = u.dev.log := by
    cases h
    exact ⟨rfl, rfl⟩
  refine ⟨hend.1, ?_⟩
  obtain ⟨waited, hwaited, ⟨-, _, hrun, -⟩ |
      ⟨b, rest, v, hready, hrun, hinbox, -, -, -, -, hlog⟩⟩ :=
    ideAtaAccess_cases s .write drive lba numsects es edi rfl rfl
  · rw [hrun] at haccess
    cases haccess
  · rw [hrun] at haccess
    obtain ⟨log, hlog', hquiet, hstatuses⟩ := ataTransfer_polls haccess
    refine ⟨_, by rw [hend.2, hlog', hlog, List.append_assoc], ?_⟩
    rw [pollStatuses_append (sent_notBlock hwaited _ _ _ _) hquiet, hstatuses, presented,
      hready, hinbox, List.tail_cons]

/-- A returning write reports the errors of its drive exactly when it was refused or
there were none. -/
theorem ideWriteSectors_reported_iff (hpresent : ¬ DriveAbsent s.dev drive)
    (hata : (s.dev.ideDevices drive).type = .ata)
    (h : (ideWriteSectors drive numsects lba es edi).run s = .ok r t) :
    ErrorsReported s t r ↔
      OutOfRange s.dev drive lba numsects ∨
        ∀ b ∈ presented numsects.toNat s.dev.inbox, ¬ faulty b := by
  by_cases hrange : OutOfRange s.dev drive lba numsects
  · rw [ideWriteSectors_refused hpresent hrange] at h
    injection h with hr
    refine ⟨fun _ => .inl hrange, fun _ hzero => ?_⟩
    rw [← hr] at hzero
    cases hzero
  · obtain ⟨hr, log, hlog, hstatuses⟩ :=
      ideWriteSectors_accepted_inv ⟨hpresent, hata, hrange⟩ h
    constructor
    · intro hreported
      exact .inr (hstatuses ▸ hreported hr log hlog)
    · rintro (hoor | hclean) _ log' hlog'
      · exact absurd hoor hrange
      · rw [← List.append_cancel_left (hlog.symm.trans hlog'), hstatuses]
        exact hclean

end

/-- One sector and nothing wrong. -/
theorem ideWriteSectors_reported_iff_one :
    let s := ataBoot ⟨1, 0, 0, .ata, 0x200, 1000, []⟩ (List.replicate 11 0x50)
    ∃ r t, (ideWriteSectors 0 1 0 0 0x5000).run s = .ok r t ∧
      (ErrorsReported s t r ↔ OutOfRange s.dev 0 0 1 ∨
        ∀ b ∈ presented 1 s.dev.inbox, ¬ faulty b) := by
  intro s
  have hrun : (ideWriteSectors 0 1 0 0 0x5000).run s = .ok 0 _ :=
    Exec.ok_of_answer (by decide +kernel)
  exact ⟨_, _, hrun, ideWriteSectors_reported_iff (by decide) rfl hrun⟩

/-- The drive takes the block with ERR set and the caller is told 0. -/
theorem ideWriteSectors_silent :
    let s := ataBoot ⟨1, 0, 0, .ata, 0x200, 1000, []⟩
      [0x50, 0x50, 0x50, 0x50, 0x50, 0x51, 0x50, 0x50, 0x50, 0x50, 0x50]
    ∃ t, (ideWriteSectors 0 1 0 0 0x5000).run s = .ok 0 t ∧ ¬ ErrorsReported s t 0 := by
  intro s
  have hrun : (ideWriteSectors 0 1 0 0 0x5000).run s = .ok 0 _ :=
    Exec.ok_of_answer (by decide +kernel)
  have hstatus : 0x51 ∈ pollStatuses
      (Exec.final ((ideWriteSectors 0 1 0 0 0x5000).run s)).dev.log := by
    decide +kernel
  exact ⟨_, hrun, fun h => h rfl _ rfl 0x51 hstatus (by decide)⟩

end Bedrock
