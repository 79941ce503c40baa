import Enclave.Settings.Sandbox

/-!
# The settings of a runner

What the program inside a sandbox has to know. It is derived from the settings of the sandbox and
handed over as environment variables; `ofEnvironment` reads back what `toEnvironment` wrote.
-/

namespace Enclave

open Json (Value)

/-- The settings of a runner. -/
structure RunnerSettings where
  dataRoot : String
  /-- The interpreter of scripts; looked for in the search path when it is not given. -/
  interpreter : Option String
  scriptEnabled : Bool
  importPolicy : ImportPolicy
  limits : Limits
  deriving Repr

namespace RunnerSettings

def default : RunnerSettings := ⟨"/data", none, false, .analysis, .default⟩

/-- The settings of a runner inside a sandbox. -/
def ofSettings (s : Settings) : RunnerSettings :=
  ⟨s.sandboxDataRoot, none, s.scriptEnabled, s.importPolicy, s.limits⟩

/-- The variables that hand the settings over. -/
def toEnvironment (r : RunnerSettings) : Environment :=
  [("SQLSANDBOX_DATA_ROOT", r.dataRoot),
   ("SQLSANDBOX_SCRIPT_ENABLED", if r.scriptEnabled then "true" else "false"),
   ("SQLSANDBOX_IMPORT_POLICY", r.importPolicy.toJson.compact),
   ("SQLSANDBOX_LIMITS", r.limits.toJson.compact)] ++
  (match r.interpreter with
   | some p => [("SQLSANDBOX_PYTHON", p)]
   | none => [])

/-- A JSON document in a variable. -/
def variableJson {α : Type} (env : Environment) (name : String) (decoder : Json.Decoder α)
    (absent : α) : Outcome α :=
  match env.lookup name with
  | none => .ok absent
  | some text =>
    match Json.decodeText decoder text with
    | .ok a => .ok a
    | .error m => .error (.badConfig ("invalid " ++ name ++ ": " ++ m.message))

/-- The settings of an environment; a missing variable leaves the default. -/
def ofEnvironment (env : Environment) : Outcome RunnerSettings := do
  let importPolicy ← variableJson env "SQLSANDBOX_IMPORT_POLICY" ImportPolicy.decoder .analysis
  let limits ← variableJson env "SQLSANDBOX_LIMITS" Limits.decoder .default
  return {
    dataRoot := (env.lookup "SQLSANDBOX_DATA_ROOT").getD "/data"
    interpreter := ((env.lookup "SQLSANDBOX_PYTHON").map Text.trim).filter fun p => !p.isEmpty
    scriptEnabled := ((env.lookup "SQLSANDBOX_SCRIPT_ENABLED").map Settings.isYes).getD false
    importPolicy, limits }

end RunnerSettings

end Enclave
