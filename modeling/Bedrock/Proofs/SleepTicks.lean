import Mathlib.Algebra.Group.Nat.Defs
import Mathlib.Data.Nat.Find
import Mathlib.Order.Bounds.Basic
import Bedrock.Cpu.Timer
import Bedrock.Lib.Laps
import Bedrock.Lib.Run

/-!
# How long a sleep lasts

`sleep` compares two products of 32 bits, and the difference of ticks in one of them is cut
to 32 bits too. The difference does no harm, whatever `tick` was at the call: what counts is
the number of ticks since then, modulo `2 ^ 32`. The products are what is left of the exact
ones, and they decide as those do up to the tick the sleep should end at just where the laps
of the products allow it (`AgreesToFirst`).

The runs are those in which the condition is tested in every tick of the sleep. Where the
loop does not get to run for a tick, it cannot end at it.

`Paced` is the invariant of these runs, and says that the sleep is where the condition has
let it come. What the condition makes of that is arithmetic, and ends in the list of the
durations for which the sleep is right (`SleepFits`).
-/

namespace Bedrock

open Lib

/-! ## The condition -/

/-- The ticks are enough. -/
def Due (milsec : UInt32) (e : Nat) : Prop := milsec.toNat * timerFreq.toNat ≤ e * 1000

/-- The loop goes on after `e` ticks. -/
def WaitsAt (milsec : UInt32) (e : Nat) : Prop :=
  e * 1000 % 2 ^ 32 < milsec.toNat * timerFreq.toNat % 2 ^ 32

section

variable {milsec tick : UInt32} {e n : Nat} {s : Sleeper}

instance : Decidable (Due milsec e) := inferInstanceAs (Decidable (_ ≤ _))

instance : Decidable (WaitsAt milsec e) := inferInstanceAs (Decidable (_ < _))

theorem not_due : ¬ Due milsec e ↔ e * 1000 < milsec.toNat * timerFreq.toNat := Nat.not_le

theorem exists_first_due (milsec : UInt32) : ∃ n, Due milsec n ∧ ∀ e < n, ¬ Due milsec e := by
  have hdue : ∃ e, Due milsec e :=
    ⟨milsec.toNat, Nat.mul_le_mul_left _ (show 50 ≤ 1000 by decide)⟩
  exact ⟨Nat.find hdue, Nat.find_spec hdue, fun e he => Nat.find_min hdue he⟩

theorem sleepWaits_iff (start : UInt32) :
    sleepWaits milsec start (start + UInt32.ofNat e) = true ↔ WaitsAt milsec e := by
  rw [sleepWaits, decide_eq_true_eq, UInt32.add_comm start, UInt32.add_sub_cancel,
    UInt32.lt_iff_toNat_lt, UInt32.toNat_mul, UInt32.toNat_mul, UInt32.toNat_ofNat', WaitsAt,
    show (1000 : UInt32).toNat = 1000 from rfl, Nat.mod_mul_mod]

/-! ## Runs -/

/-- A tick of the sleep comes only after the condition was tested since the last one. -/
def Watched (s : Sleeper) : SleepEvent → Prop
  | .tick => s.returned ∨ s.tested
  | .test => True

/-- The runs of `sleep(milsec)`, called at `tick`. -/
abbrev SleepRun (milsec tick : UInt32) : List SleepEvent → Sleeper → Prop :=
  Run (Guarded (fun s i s' => s.next i = s') Watched) (sleepCall milsec tick)

/-- A sleep that has returned did so at the first tick at which the ticks were enough, and
one that tested its condition in this tick and waits is before it. -/
structure Sleeper.OnTime (s : Sleeper) : Prop where
  returned : s.returned → IsLeast {e | Due s.milsec e} s.elapsed
  waiting : ¬ s.returned → s.tested → ¬ Due s.milsec s.elapsed

/-- From every starting tick the sleep is on time in every run, and there is a run in which
it returns. -/
def SleepsFor (milsec : UInt32) : Prop :=
  ∀ tick, (∀ tr s, SleepRun milsec tick tr s → s.OnTime) ∧
    ∃ tr s, SleepRun milsec tick tr s ∧ s.returned

/-- The loop waited at all ticks before this one, and where it was tested in this one, it
waits or returned as the condition says. -/
structure Paced (milsec : UInt32) (s : Sleeper) : Prop where
  call : s.milsec = milsec
  tick : ¬ s.returned → s.tick = s.startingTick + UInt32.ofNat s.elapsed
  before : ∀ e < s.elapsed, WaitsAt milsec e
  waiting : ¬ s.returned → s.tested → WaitsAt milsec s.elapsed
  returned : s.returned → ¬ WaitsAt milsec s.elapsed

theorem paced_call (milsec tick : UInt32) : Paced milsec (sleepCall milsec tick) where
  call := rfl
  tick _ := (UInt32.add_zero tick).symm
  before _ he := absurd he (Nat.not_lt_zero _)
  waiting _ htested := nomatch htested
  returned hyes := nomatch hyes

theorem paced_next {i : SleepEvent} (h : Paced milsec s) (hw : Watched s i) :
    Paced milsec (s.next i) := by
  by_cases hreturned : s.returned
  · -- nothing but `tick` changes any more
    cases i with
    | test =>
        rw [Sleeper.next, if_pos hreturned]
        exact h
    | tick =>
        rw [Sleeper.next, if_pos hreturned]
        exact ⟨h.call, fun hno => absurd hreturned hno, h.before, h.waiting, h.returned⟩
  · have htick := h.tick hreturned
    cases i with
    | test =>
        have hcond : sleepWaits s.milsec s.startingTick s.tick = true ↔
            WaitsAt milsec s.elapsed := by
          rw [htick, sleepWaits_iff, h.call]
        rw [Sleeper.next, if_neg hreturned]
        refine ⟨h.call, fun _ => htick, h.before, fun hwaits _ => ?_, fun hends => ?_⟩
        · exact hcond.mp (by simpa using hwaits)
        · exact mt hcond.mpr (by simpa using hends)
    | tick =>
        have hnow := h.waiting hreturned (hw.resolve_left hreturned)
        rw [Sleeper.next, if_neg hreturned]
        refine ⟨h.call, fun _ => ?_, fun e he => ?_, fun _ htested => ?_, fun hyes => ?_⟩
        · show timerCallback s.tick = s.startingTick + UInt32.ofNat (s.elapsed + 1)
          rw [timerCallback, htick, UInt32.add_assoc, UInt32.ofNat_add]
          rfl
        · rcases Nat.lt_succ_iff_lt_or_eq.mp he with hlt | rfl
          · exact h.before e hlt
          · exact hnow
        · exact nomatch htested
        · exact absurd hyes hreturned

theorem paced_run {tr : List SleepEvent} (h : SleepRun milsec tick tr s) : Paced milsec s := by
  refine h.invariant (paced_call milsec tick) ?_
  rintro s i _ hs ⟨hw, rfl⟩
  exact paced_next hs hw

/-! ## A run tick by tick -/

/-- The sleep at its tick `n`, before the condition is tested. -/
def sleepAt (milsec tick : UInt32) (n : Nat) : Sleeper :=
  ⟨tick + UInt32.ofNat n, milsec, tick, false, n, false⟩

theorem next_test (milsec tick : UInt32) (n : Nat) : (sleepAt milsec tick n).next .test =
    { sleepAt milsec tick n with returned := !decide (WaitsAt milsec n), tested := true } := by
  have hcond : sleepWaits milsec tick (tick + UInt32.ofNat n) = decide (WaitsAt milsec n) := by
    rw [Bool.eq_iff_iff, sleepWaits_iff, decide_eq_true_eq]
  rw [← hcond]
  rfl

theorem run_test {tr : List SleepEvent} (h : SleepRun milsec tick tr s) :
    SleepRun milsec tick (tr ++ [.test]) (s.next .test) :=
  .snoc h ⟨trivial, rfl⟩

theorem run_tick {tr : List SleepEvent} (h : SleepRun milsec tick tr s) (ht : s.tested) :
    SleepRun milsec tick (tr ++ [.tick]) (s.next .tick) :=
  .snoc h ⟨.inr ht, rfl⟩

/-- Where the condition says so, the sleep gets to its tick `n`. -/
theorem run_sleepAt (tick : UInt32) (h : ∀ e < n, WaitsAt milsec e) :
    ∃ tr, SleepRun milsec tick tr (sleepAt milsec tick n) := by
  induction n with
  | zero =>
      refine ⟨[], ?_⟩
      rw [sleepAt, show UInt32.ofNat 0 = 0 from rfl, UInt32.add_zero]
      exact .nil
  | succ n ih =>
      obtain ⟨tr, hrun⟩ := ih fun e he => h e (Nat.lt_succ_of_lt he)
      have htested := run_test hrun
      rw [next_test, decide_eq_true (h n (Nat.lt_succ_self n))] at htested
      refine ⟨tr ++ [.test] ++ [.tick], ?_⟩
      rw [sleepAt, UInt32.ofNat_add, ← UInt32.add_assoc]
      exact run_tick htested rfl

/-- And is tested there. -/
theorem run_tested (tick : UInt32) (h : ∀ e < n, WaitsAt milsec e) :
    ∃ tr, SleepRun milsec tick tr
      { sleepAt milsec tick n with returned := !decide (WaitsAt milsec n), tested := true } := by
  obtain ⟨tr, hrun⟩ := run_sleepAt tick h
  exact ⟨_, next_test milsec tick n ▸ run_test hrun⟩

/-! ## The first tick at which the ticks are enough -/

theorem agrees_at (h : AgreesToFirst (2 ^ 32) 1000 (milsec.toNat * timerFreq.toNat))
    (hn : ∀ e < n, ¬ Due milsec e) : WaitsAt milsec n ↔ ¬ Due milsec n := by
  rw [not_due]
  exact h n fun e he => not_due.mp (hn e he)

/-- The loop waits at the ticks before the first one that is enough, and only there. -/
theorem not_due_of_waits (h : AgreesToFirst (2 ^ 32) 1000 (milsec.toNat * timerFreq.toNat))
    (hn : ∀ e < n, WaitsAt milsec e) : ∀ e < n, ¬ Due milsec e := by
  intro e he
  induction e using Nat.strong_induction_on with
  | h e ih => exact (agrees_at h fun e' he' => ih e' he' (he'.trans he)).mp (hn e he)

theorem onTime_of_paced (h : AgreesToFirst (2 ^ 32) 1000 (milsec.toNat * timerFreq.toNat))
    (hs : Paced milsec s) : s.OnTime := by
  have hbefore : ∀ e < s.elapsed, ¬ Due s.milsec e := by
    rw [hs.call]
    exact not_due_of_waits h hs.before
  have hnow := agrees_at h (hs.call ▸ hbefore)
  rw [← hs.call] at hnow
  constructor
  · intro hreturned
    refine ⟨not_not.mp (mt hnow.mpr (hs.call.symm ▸ hs.returned hreturned)), fun e he => ?_⟩
    exact Nat.le_of_not_lt fun hlt => hbefore e hlt he
  · intro hreturned htested
    exact hnow.mp (hs.call.symm ▸ hs.waiting hreturned htested)

theorem exists_returned (tick : UInt32)
    (h : AgreesToFirst (2 ^ 32) 1000 (milsec.toNat * timerFreq.toNat)) :
    ∃ tr s, SleepRun milsec tick tr s ∧ s.returned := by
  obtain ⟨n, hdue, hbefore⟩ := exists_first_due milsec
  have hwaits : ∀ e < n, WaitsAt milsec e := fun e he =>
    (agrees_at h fun e' he' => hbefore e' (he'.trans he)).mpr (hbefore e he)
  have hends : ¬ WaitsAt milsec n := fun hyes => (agrees_at h hbefore).mp hyes hdue
  obtain ⟨tr, hrun⟩ := run_tested tick hwaits
  refine ⟨tr, _, hrun, ?_⟩
  rw [decide_eq_false hends]
  rfl

/-- The condition decides as the exact products do, as long as they make the sleep wait. -/
theorem agrees_of_onTime (tick : UInt32)
    (h : ∀ tr s, SleepRun milsec tick tr s → s.OnTime) :
    AgreesToFirst (2 ^ 32) 1000 (milsec.toNat * timerFreq.toNat) := by
  intro n
  induction n using Nat.strong_induction_on with
  | h n ih =>
      intro hn
      have hbefore : ∀ e < n, WaitsAt milsec e := fun e he =>
        (ih e he fun e' he' => hn e' (he'.trans he)).mpr (hn e he)
      obtain ⟨tr, hrun⟩ := run_tested tick hbefore
      have htime := h _ _ hrun
      rw [← not_due]
      by_cases hwaits : WaitsAt milsec n
      · rw [decide_eq_true hwaits] at htime
        exact iff_of_true hwaits (htime.waiting Bool.false_ne_true rfl)
      · rw [decide_eq_false hwaits] at htime
        exact iff_of_false hwaits (not_not.mpr (htime.returned rfl).1)

theorem sleepsFor_iff : SleepsFor milsec ↔
    AgreesToFirst (2 ^ 32) 1000 (milsec.toNat * timerFreq.toNat) := by
  constructor
  · intro h
    exact agrees_of_onTime 0 (h 0).1
  · intro h tick
    exact ⟨fun _ _ hrun => onTime_of_paced h (paced_run hrun), exists_returned tick h⟩

/-! ## The durations -/

/-- The products do not wrap before the tick the sleep should end at. With eight longer
durations they do, and still no comparison up to that tick comes out wrong. -/
def SleepFits (milsec : UInt32) : Prop :=
  milsec.toNat ≤ 85899340 ∨ milsec.toNat ∈ [343597378, 343597379, 343597380, 601295418,
    601295419, 601295420, 1460288880, 3779571220]

instance : Decidable (SleepFits milsec) := inferInstanceAs (Decidable (_ ∨ _))

/-- The laps whose multiples of 1000 come nearer to the end than those of any lap before. -/
theorem nearest_laps : ∀ k < 50, k ∈ [0, 3, 6, 16, 43] ∨
    ∃ j < k, lapGap (2 ^ 32) 1000 j ≤ lapGap (2 ^ 32) 1000 k := by
  decide

theorem agrees_iff_fits :
    AgreesToFirst (2 ^ 32) 1000 (milsec.toNat * timerFreq.toNat) ↔ SleepFits milsec := by
  rw [agreesToFirst_iff (by decide) (by decide) (by decide), SleepFits,
    show timerFreq.toNat = 50 from rfl]
  have hmilsec : milsec.toNat < 2 ^ 32 := milsec.toNat_lt
  have h0 : lapGap (2 ^ 32) 1000 0 = 296 := rfl
  have h3 : lapGap (2 ^ 32) 1000 3 = 184 := rfl
  have h6 : lapGap (2 ^ 32) 1000 6 = 72 := rfl
  have h16 : lapGap (2 ^ 32) 1000 16 = 32 := rfl
  have h43 : lapGap (2 ^ 32) 1000 43 = 24 := rfl
  simp only [List.mem_cons, List.not_mem_nil, or_false]
  constructor
  · rintro ⟨hlast, hbefore⟩
    have hlap : milsec.toNat * 50 / 2 ^ 32 < 50 := by omega
    obtain hk | ⟨j, hj, hnear⟩ := nearest_laps _ hlap
    · simp only [List.mem_cons, List.not_mem_nil, or_false] at hk
      obtain hk | hk | hk | hk | hk := hk
      all_goals rw [hk] at hlast hbefore
      · omega
      · have := hbefore 0 (by decide)
        omega
      · have := hbefore 3 (by decide)
        omega
      · have := hbefore 6 (by decide)
        omega
      · have := hbefore 16 (by decide)
        omega
    · have := hbefore j hj
      omega
  · rintro (hsmall | h | h | h | h | h | h | h | h)
    · have hlap : milsec.toNat * 50 / 2 ^ 32 = 0 := by omega
      rw [hlap]
      exact ⟨by omega, fun j hj => absurd hj (Nat.not_lt_zero j)⟩
    all_goals
      rw [h]
      decide

theorem sleep_iff (milsec : UInt32) : SleepsFor milsec ↔ SleepFits milsec :=
  sleepsFor_iff.trans agrees_iff_fits

/-- The product wraps to 4, and a single tick makes 1000. -/
theorem sleep_one_tick : ¬ SleepsFor 85899346 := by
  intro h
  have hrun : SleepRun 85899346 0 ([] ++ [.test] ++ [.tick] ++ [.test])
      ⟨1, 85899346, 0, true, 1, true⟩ :=
    run_test (run_tick (run_test .nil) rfl)
  have hearly := ((h 0).1 _ _ hrun).returned rfl
  exact absurd hearly.1 (show ¬ Due 85899346 1 by decide)

end

end Bedrock
