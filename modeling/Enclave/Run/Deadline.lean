/-!
# The deadline of a runner

A runner gives up before the backend does, so that it can still say so: half a second earlier, but
never before a quarter of a second has passed. The moment at which it gives up a script has to be
one that its clock can show; otherwise it breaks off (`Crash`). The deadline of a backend has to be
such a moment as well.
-/

namespace Enclave

/-- How much earlier than the backend a runner gives up, in milliseconds. -/
def runnerMarginMs : Nat := 500

/-- The least time that a runner takes, in milliseconds. -/
def leastRunnerMs : Nat := 250

/-- The milliseconds after which a runner gives up a request of some seconds. -/
def innerDeadlineMs (seconds : Nat) : Nat := max (seconds * 1000 - runnerMarginMs) leastRunnerMs

/-- The time of a run in milliseconds: what the clock shows at its start, and how long it takes. -/
structure RunTime where
  startMs : Nat
  tookMs : Nat
  deriving Repr, DecidableEq

/-- The first millisecond that the clock cannot show: its seconds are a signed word of 64 bits. -/
def clockEndMs : Nat := 2 ^ 63 * 1000

/-- Why a program broke off without an answer. -/
inductive Crash where
  /-- A deadline lies beyond what the clock can show. -/
  | deadlineBeyondClock
  /-- An argument of the command line is no text. -/
  | argumentNoText
  deriving Repr, DecidableEq

end Enclave
