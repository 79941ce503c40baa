import Enclave.Backend.Container
import Enclave.Backend.Cluster.Dispatch

/-!
# Dispatching

The backend that the mode of the settings selects, once (`Settings.dispatch`) and with the retries
of the settings (`Settings.execute`). Both backends compute the deadline of a run before they call
anything, and break off where the clock cannot show it: `Settings.dispatchAt` and
`Settings.executeAt` begin at a moment of the clock.
-/

namespace Enclave.Settings

/-- Dispatches a request once; the run has a name of its own. -/
def dispatch (s : Settings) (command : Command) (name : String) (r : Request) (c : Connection) :
    Outcome RunResult × Connection :=
  match s.mode with
  | .container => Container.dispatch s command name r c
  | .clusterJob => Cluster.dispatch s command name r c

/-- Dispatches a request until an answer is final. `names` are the names of the dispatches. -/
def execute (s : Settings) (command : Command) (names : Nat → String) (r : Request)
    (c : Connection) : Execution × Connection :=
  executeOn s.retry (fun n c => s.dispatch command (names n) r c) c

/-- Whether a request that can be dispatched has a deadline that the clock cannot show. -/
def beyondClock (startMs : Nat) (r : Request) : Bool :=
  (Naming.checkDatasetId r.datasetId).isOk && clockEndMs ≤ startMs + r.seconds * 1000

/-- Dispatches a request once, at a moment of the clock. -/
def dispatchAt (s : Settings) (command : Command) (name : String) (startMs : Nat) (r : Request)
    (c : Connection) : Except Crash (Outcome RunResult) × Connection :=
  if beyondClock startMs r then (.error .deadlineBeyondClock, c)
  else
    let (answer, c) := s.dispatch command name r c
    (.ok answer, c)

/-- Dispatches a request until an answer is final. `starts` are the moments of the dispatches. -/
def executeAt (s : Settings) (command : Command) (names : Nat → String) (starts : Nat → Nat)
    (r : Request) (c : Connection) : Except Crash Execution × Connection :=
  executeCrashingOn s.retry (fun n c => s.dispatchAt command (names n) (starts n) r c) c

end Enclave.Settings
