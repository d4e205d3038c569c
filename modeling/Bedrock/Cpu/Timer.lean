import Mathlib.Data.List.Basic

/-!
# `cpu/timer.c`

`sleep` waits in a loop until `tick` has got on far enough, and `timer_callback`, which
`init_timer` makes the handler of IRQ 0, adds one to it. Each test of the loop's condition
reads `tick` once; the interrupt can come between any two of them, so tests and ticks are
the events of a machine.
-/

namespace Bedrock

/-- `TIMER_FREQ` -/
def timerFreq : UInt32 := 50

def timerCallback (tick : UInt32) : UInt32 := tick + 1

/-- The condition of the loop. -/
def sleepWaits (milsec startingTick tick : UInt32) : Bool :=
  (tick - startingTick) * 1000 < milsec * timerFreq

/-- A call of `sleep`, and the global it looks at. The last two are not in the machine: how
many ticks there were from the call until it returned, and whether the condition was tested
since the last one. -/
structure Sleeper where
  tick : UInt32
  milsec : UInt32
  startingTick : UInt32
  returned : Bool
  elapsed : Nat
  tested : Bool
deriving DecidableEq

inductive SleepEvent where
  | test
  | tick
deriving DecidableEq

/-- `sleep(milsec)`, up to the loop. -/
def sleepCall (milsec tick : UInt32) : Sleeper := ⟨tick, milsec, tick, false, 0, false⟩

def Sleeper.next (s : Sleeper) : SleepEvent → Sleeper
  | .test =>
      if s.returned then s
      else { s with returned := !sleepWaits s.milsec s.startingTick s.tick, tested := true }
  | .tick =>
      let s := { s with tick := timerCallback s.tick }
      if s.returned then s
      else { s with elapsed := s.elapsed + 1, tested := false }

end Bedrock
