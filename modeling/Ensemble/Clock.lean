import Ensemble.Duration

/-!
# The clock

Time passes in two ways: the timer moves on when everything waits for it, and a stall loses time
while nothing else can happen. What a deadline or a measured duration sees is the sum of the two.
-/

namespace Ensemble

/-- The clock, in milliseconds, and the number of delays started so far. -/
structure Clock where
  timer : Nat
  stalled : Nat
  delays : Nat
deriving DecidableEq

namespace Clock

/-- The clock before anything has happened. -/
def start : Clock := ⟨0, 0, 0⟩

/-- The moment that the clock shows. -/
def now (c : Clock) : Nat := c.timer + c.stalled

/-- The timer moves on to a moment; it never goes back. -/
def advance (c : Clock) (due : Nat) : Clock := { c with timer := max c.timer due }

/-- Time is lost. -/
def stall (c : Clock) (ms : Nat) : Clock := { c with stalled := c.stalled + ms }

end Clock

/-- When a waiting routine goes on: the moment of the timer, and the rank of its delay among all
delays by when they were started. -/
structure Wake where
  due : Nat
  rank : Nat
deriving DecidableEq

namespace Wake

/-- Whether one routine goes on before another. -/
def before (a b : Wake) : Bool := a.due < b.due || (a.due == b.due && a.rank < b.rank)

end Wake

/-- The moment from which on a run stops, in nanoseconds; `none` if there is no such moment. -/
abbrev Deadline := Option Nat

namespace Deadline

/-- The first moment that lies beyond the reach of the clock, in nanoseconds. -/
def horizon : Nat := 0x8000000000000000 * 1000000000

/-- The deadline of a run that starts at a moment: a timeout that leads beyond the horizon is
none. -/
def after (start : Nat) (timeout : Option Duration) : Deadline :=
  timeout.bind fun t =>
    let due := start * 1000000 + t.toNanos
    if due < horizon then some due else none

/-- Whether a deadline has passed at a moment. -/
def passed (d : Deadline) (now : Nat) : Bool :=
  match d with
  | none => false
  | some due => due ≤ now * 1000000

end Deadline

end Ensemble
