import Enclave.Budget
import Enclave.Settings.Imports
import Enclave.Settings.Limits
import Enclave.Settings.Retry
import Enclave.Path.Tree

/-!
# The settings of a sandbox

What an operator sets: the backend, the directories, and the ceilings. Settings come from a JSON
document, in which every field may be missing, and from environment variables, which override it.
Only settings that pass `check` are ever used.
-/

namespace Enclave

open Json (Decoder RecordShape Value field)

/-- A table of environment variables. -/
abbrev Environment := List (String × String)

/-- Which backend runs queries. -/
inductive Mode where
  | container
  | clusterJob
  deriving Repr, DecidableEq

namespace Mode

/-- The mode in a document. -/
def wire : Mode → String
  | .container => "container"
  | .clusterJob => "cluster_job"

/-- What the mode means for a run. -/
def description : Mode → String
  | .container => "Container runtime (network none, read-only root)"
  | .clusterJob => "Cluster job (deny-egress policy, read-only root)"

/-- A mode by one of its names, in any case and with blanks around it. -/
def ofText? (text : String) : Option Mode :=
  match Text.asciiLower (Text.trim text) with
  | "container" | "docker" => some .container
  | "cluster_job" | "cluster-job" | "cluster" | "kubernetes" | "k8s" => some .clusterJob
  | _ => none

def decoder : Decoder Mode :=
  Json.plainVariant ([.container, .clusterJob].map fun m => (wire m, m))

end Mode

/-- Settings of the container backend. -/
structure ContainerSettings where
  command : String
  /-- The user and group of the runner. -/
  user : String
  /-- The size of the writable temporary directory. -/
  tmpfsMb : Nat
  deriving Repr, DecidableEq

namespace ContainerSettings

def default : ContainerSettings := ⟨"docker", "65534:65534", 64⟩

def toJson (c : ContainerSettings) : Value :=
  .obj [("docker_path", .str c.command), ("user", .str c.user), ("tmpfs_mb", .nat c.tmpfsMb)]

def decoder : Decoder ContainerSettings := RecordShape.decode
  { title := "struct ContainerConfig"
    names := ["docker_path", "user", "tmpfs_mb"]
    required := []
    nullable := []
    start := .default
    set := fun
      | "docker_path" => field Json.pathText fun c v => { c with command := v }
      | "user" => field Json.text fun c v => { c with user := v }
      | "tmpfs_mb" => field Json.word64 fun c v => { c with tmpfsMb := v }
      | _ => none }

end ContainerSettings

/-- Settings of the cluster backend. -/
structure ClusterSettings where
  command : String
  /-- The namespace of all objects. -/
  space : String
  /-- The volume that holds the datasets. -/
  dataClaim : String
  user : Nat
  group : Nat
  pollMs : Nat
  /-- How long a finished job is kept. -/
  keepSeconds : Nat
  deriving Repr, DecidableEq

namespace ClusterSettings

def default : ClusterSettings :=
  ⟨"kubectl", "sqlsandbox", "sqlsandbox-datasets", 65534, 65534, 500, 300⟩

def toJson (c : ClusterSettings) : Value :=
  .obj [("kubectl_path", .str c.command), ("namespace", .str c.space),
    ("data_claim", .str c.dataClaim), ("run_as_user", .nat c.user),
    ("run_as_group", .nat c.group), ("poll_interval_ms", .nat c.pollMs),
    ("ttl_seconds_after_finished", .nat c.keepSeconds)]

def decoder : Decoder ClusterSettings := RecordShape.decode
  { title := "struct ClusterConfig"
    names := ["kubectl_path", "namespace", "data_claim", "run_as_user", "run_as_group",
      "poll_interval_ms", "ttl_seconds_after_finished"]
    required := []
    nullable := []
    start := .default
    set := fun
      | "kubectl_path" => field Json.pathText fun c v => { c with command := v }
      | "namespace" => field Json.text fun c v => { c with space := v }
      | "data_claim" => field Json.text fun c v => { c with dataClaim := v }
      | "run_as_user" => field Json.word32 fun c v => { c with user := v }
      | "run_as_group" => field Json.word32 fun c v => { c with group := v }
      | "poll_interval_ms" => field Json.word64 fun c v => { c with pollMs := v }
      | "ttl_seconds_after_finished" => field Json.word32 fun c v => { c with keepSeconds := v }
      | _ => none }

end ClusterSettings

/-- The settings of a sandbox. -/
structure Settings where
  mode : Mode
  runnerImage : String
  /-- The directory that holds one directory for each dataset. -/
  hostDataRoot : String
  /-- Where datasets appear to the runner. -/
  sandboxDataRoot : String
  limits : Limits
  container : ContainerSettings
  cluster : ClusterSettings
  retry : RetryPolicy
  budget : BudgetCeiling
  /-- The largest limit of a plan. -/
  maxPlanLimit : Nat
  scriptEnabled : Bool
  importPolicy : ImportPolicy
  deriving Repr

namespace Settings

def default : Settings :=
  { mode := .container
    runnerImage := "sqlsandbox-runner:latest"
    hostDataRoot := "/srv/sqlsandbox/datasets"
    sandboxDataRoot := "/data"
    limits := .default
    container := .default
    cluster := .default
    retry := .default
    budget := .default
    maxPlanLimit := 10000
    scriptEnabled := false
    importPolicy := .analysis }

def toJson (s : Settings) : Value :=
  .obj [("mode", .str s.mode.wire), ("runner_image", .str s.runnerImage),
    ("host_data_root", .str s.hostDataRoot), ("sandbox_data_root", .str s.sandboxDataRoot),
    ("limits", s.limits.toJson), ("container", s.container.toJson),
    ("cluster", s.cluster.toJson), ("retry", s.retry.toJson), ("budget", s.budget.toJson),
    ("max_plan_limit", .nat s.maxPlanLimit), ("script_enabled", .bool s.scriptEnabled),
    ("import_policy", s.importPolicy.toJson)]

def decoder : Decoder Settings := RecordShape.decode
  { title := "struct SandboxConfig"
    names := ["mode", "runner_image", "host_data_root", "sandbox_data_root", "limits",
      "container", "cluster", "retry", "budget", "max_plan_limit", "script_enabled",
      "import_policy"]
    required := []
    nullable := []
    start := .default
    set := fun
      | "mode" => field Mode.decoder fun s v => { s with mode := v }
      | "runner_image" => field Json.text fun s v => { s with runnerImage := v }
      | "host_data_root" => field Json.pathText fun s v => { s with hostDataRoot := v }
      | "sandbox_data_root" => field Json.pathText fun s v => { s with sandboxDataRoot := v }
      | "limits" => field Limits.decoder fun s v => { s with limits := v }
      | "container" => field ContainerSettings.decoder fun s v => { s with container := v }
      | "cluster" => field ClusterSettings.decoder fun s v => { s with cluster := v }
      | "retry" => field RetryPolicy.decoder fun s v => { s with retry := v }
      | "budget" => field BudgetCeiling.decoder fun s v => { s with budget := v }
      | "max_plan_limit" => field Json.word64 fun s v => { s with maxPlanLimit := v }
      | "script_enabled" => field Json.flag fun s v => { s with scriptEnabled := v }
      | "import_policy" => field ImportPolicy.decoder fun s v => { s with importPolicy := v }
      | _ => none }

/-- Accepts settings under which a sandbox can work. -/
def check (s : Settings) : Outcome Unit :=
  if Text.isBlankText s.runnerImage then .error (.badConfig "runner_image is empty")
  else if !Path.isAbsolute s.sandboxDataRoot then
    .error (.badConfig ("sandbox_data_root " ++ s.sandboxDataRoot ++ " must be absolute"))
  else if s.limits.memoryMb = 0 || s.limits.cpus <= 0.0 || s.limits.processes = 0 then
    .error (.badConfig "resource limits must be positive")
  else if s.retry.attempts = 0 then
    .error (.badConfig "retry.max_attempts must be at least 1")
  else if s.maxPlanLimit = 0 then .error (.badConfig "max_plan_limit must be positive")
  else .ok ()

/-- The settings of a document. -/
def ofText (path text : String) : Outcome Settings :=
  match Json.decodeText decoder text with
  | .error m => .error (.badConfig ("failed to parse " ++ path ++ ": " ++ m.message))
  | .ok s => s.check.map fun _ => s

/-- The settings of a file; missing fields have their defaults. -/
def load (t : Path.Tree) (path : String) : Outcome Settings :=
  match t.read path with
  | .error e => .error (.badConfig ("failed to read " ++ path ++ ": " ++ e.message))
  | .ok text => ofText path text

/-- The words that switch something on. -/
def isYes (v : String) : Bool := ["1", "true", "yes"].contains (Text.trim v)

/-- The settings with one environment variable taken over. -/
def override (s : Settings) (name value : String) : Outcome Settings :=
  match name with
  | "SQLSANDBOX_MODE" =>
    match Mode.ofText? value with
    | some m => .ok { s with mode := m }
    | none => .error (.badConfig ("unknown execution mode '" ++ value ++ "'"))
  | "SQLSANDBOX_RUNNER_IMAGE" => .ok { s with runnerImage := value }
  | "SQLSANDBOX_HOST_DATA_ROOT" => .ok { s with hostDataRoot := value }
  | "SQLSANDBOX_DOCKER" => .ok { s with container := { s.container with command := value } }
  | "SQLSANDBOX_KUBECTL" => .ok { s with cluster := { s.cluster with command := value } }
  | "SQLSANDBOX_NAMESPACE" => .ok { s with cluster := { s.cluster with space := value } }
  | "SQLSANDBOX_SCRIPT_ENABLED" => .ok { s with scriptEnabled := isYes value }
  | _ => .ok s

/-- The variables that override settings, in the order in which they are taken over. -/
def variableNames : List String :=
  ["SQLSANDBOX_MODE", "SQLSANDBOX_RUNNER_IMAGE", "SQLSANDBOX_HOST_DATA_ROOT",
   "SQLSANDBOX_DOCKER", "SQLSANDBOX_KUBECTL", "SQLSANDBOX_NAMESPACE",
   "SQLSANDBOX_SCRIPT_ENABLED"]

/-- The settings with the variables of an environment taken over. -/
def overrideAll (env : Environment) (s : Settings) : List String → Outcome Settings
  | [] => .ok s
  | v :: rest =>
    match env.lookup v with
    | none => overrideAll env s rest
    | some value =>
      match s.override v value with
      | .error e => .error e
      | .ok s => overrideAll env s rest

/-- The settings before any variable is taken over: those of the file that the environment names,
or the defaults. -/
def base (t : Path.Tree) (env : Environment) : Outcome Settings :=
  match env.lookup "SQLSANDBOX_CONFIG" with
  | some path => if Text.isBlankText path then .ok .default else load t (Text.trim path)
  | none => .ok .default

/-- The settings of an environment. -/
def ofEnvironment (t : Path.Tree) (env : Environment) : Outcome Settings := do
  let s ← overrideAll env (← base t env) variableNames
  s.check
  return s

end Settings

end Enclave
