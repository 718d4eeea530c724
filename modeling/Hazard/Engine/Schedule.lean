import Hazard.Number

set_option autoImplicit false

/-! # Schedules

What the outside world does during a run: what the clock shows each time it is read, and whether
the run has been called off. Both are given by the number of readings taken so far. That is enough
to tell any two moments of a run apart at which it matters whether it has been called off, since
the clock is read between them. -/

namespace Hazard

/-- The course of the clock and of the cancellation. -/
structure Schedule where
  /-- What the clock shows after the given number of readings. -/
  reading : Nat → Number
  /-- Whether the run has been called off after the given number of readings. -/
  cancelled : Nat → Bool := fun _ => false
  /-- The time from which on no rule is started. -/
  deadline : Option Number := none

namespace Schedule

/-- The schedule in which nothing interferes and no time passes. -/
def still : Schedule where
  reading := fun _ => .int 0

/-- A clock that shows the given values one after the other and then stays at the last one. -/
def ofReadings (values : List Number) (n : Nat) : Number :=
  (values[n]? <|> values.getLast?).getD (.int 0)

/-- Whether no rule is to be started after `n` readings, and how many readings there are then. The
    clock is read only if the run has not been called off and there is a deadline. -/
def stopTest (s : Schedule) (n : Nat) : Bool × Nat :=
  if s.cancelled n then (true, n)
  else
    match s.deadline with
    | none => (false, n)
    | some deadline => (deadline.le (s.reading n), n + 1)

end Schedule

end Hazard
