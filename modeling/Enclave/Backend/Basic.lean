import Enclave.Backend.Command
import Enclave.Run.Execution
import Enclave.Run.Output
import Enclave.Settings.Runner
import Enclave.Naming

/-!
# What backends share

A backend turns a request into calls of its command. Between the dispatches of one backend a
`Connection` remembers what has been exchanged, and whether the pods of the cluster are known to be
cut off from the network.
-/

namespace Enclave

/-- The state of a backend between dispatches. -/
structure Connection where
  log : List Exchange
  /-- Whether the network policy of the cluster has been applied. -/
  guarded : Bool
  deriving Repr, DecidableEq

namespace Connection

/-- A backend that has done nothing yet. -/
def fresh : Connection := ⟨[], false⟩

end Connection

namespace Mode

/-- The name of a backend, as it is recorded. -/
def backendName : Mode → String
  | .container => "container"
  | .clusterJob => "cluster-job"

end Mode

namespace Settings

/-- What a run may rely on under some settings; both backends isolate alike. -/
def capabilities (s : Settings) : Capabilities :=
  { backend := s.mode.backendName
    networkIsolated := true
    readOnlyData := true
    readOnlyRoot := true
    maxMemoryMb := s.limits.memoryMb
    maxCpus := s.limits.cpus
    securityLevel := 8 }

/-- The directory of a dataset outside. -/
def hostDirectory (s : Settings) (r : Request) : String := Path.join s.hostDataRoot r.datasetId

/-- The directory of a dataset as the runner sees it. -/
def runnerDirectory (s : Settings) (r : Request) : String := Path.join s.sandboxDataRoot r.datasetId

/-- The variables that the runner is given. -/
def runnerEnvironment (s : Settings) : Environment := (RunnerSettings.ofSettings s).toEnvironment

end Settings

end Enclave
