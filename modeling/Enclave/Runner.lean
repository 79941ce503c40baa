import Enclave.Path.Confinement
import Enclave.Run.Deadline
import Enclave.Run.Request
import Enclave.Script.Run
import Enclave.Sql.Policy
import Enclave.Naming
import Enclave.Word

/-!
# The runner

The program inside a sandbox: one request in, one result out. It trusts nobody. The files of a
request are confined to the directory of its dataset once more, and a statement passes the policy
once more, before any engine sees it. There is a result unless the runner crashed, and a list of
the uses that it made of its tools.
-/

namespace Enclave

open Json (Value)

/-- The answer of a query engine. -/
inductive EngineAnswer where
  | table (columns : List String) (rows : List (List Value))
  | failed (reason : String)
  /-- The deadline passed. -/
  | late
  deriving Repr

/-- A query engine: it answers a statement over some tables with so many rows at most. -/
abbrev Engine := List TableFile → String → Nat → EngineAnswer

/-- What a runner works with: the files that it sees, an engine, and an interpreter, if there is
one. -/
structure RunnerTools where
  files : Path.Tree
  engine : Engine
  interpreter : Option Interpreter

/-- A use that a runner makes of its tools. -/
inductive ToolUse where
  /-- A statement for the engine, over some tables and with so many rows at most. -/
  | engine (tables : List TableFile) (statement : String) (rows : Nat)
  /-- A script for the interpreter. -/
  | interpreter (call : ScriptCall)

/-- How a request went: its result, unless the runner crashed, and the tools that were used. -/
structure Ran where
  result : Except Crash RunResult
  uses : List ToolUse

/-- A request that was answered without any tool. -/
def Ran.unaided (r : RunResult) : Ran := ⟨.ok r, []⟩

namespace Runner

/-- The files of a request, each confined to the directory of the dataset. -/
def confine (t : Path.Tree) (root : String) :
    List FileRef → List String → Outcome (List TableFile)
  | f :: fs, name :: names => do
    let path ← Path.resolveUnder t root f.path
    let rest ← confine t root fs names
    return ⟨name, path⟩ :: rest
  | _, _ => .ok []

/-- The tables of a request. -/
def tables (t : Path.Tree) (dataRoot : String) (r : Request) : Outcome (List TableFile) := do
  Naming.checkDatasetId r.datasetId
  let names ← Naming.tableNames (r.files.map FileRef.name)
  confine t (Path.join dataRoot r.datasetId) r.files names

/-- The largest number of rows that an engine can be asked for. -/
def maxFetch : Nat := 2 ^ 32 - 1

/-- How many rows an engine is asked for: one more than wanted, so that a cut shows. -/
def fetchRows (maxRows : Nat) : Nat := min (Word.addSat maxRows 1) maxFetch

/-- The result of a statement by the answer of the engine. -/
def resultOf (r : Request) (timeMs : Nat) : EngineAnswer → RunResult
  | .table columns rows => (RunResult.success columns rows timeMs).limitRows r.maxRows
  | .failed reason => .failed (Failure.evaluation reason).message timeMs
  | .late =>
    .timedOut ("query exceeded " ++ Decimal.natText (innerDeadlineMs r.seconds) ++ "ms") timeMs

/-- Runs a statement over some tables. -/
def runStatement (engine : Engine) (tables : List TableFile) (statement : String)
    (r : Request) (timeMs : Nat) : Ran :=
  match Sql.check statement with
  | .error e => .unaided (.failed e.message timeMs)
  | .ok _ =>
    let rows := fetchRows r.maxRows
    ⟨.ok (resultOf r timeMs (engine tables statement rows)), [.engine tables statement rows]⟩

/-- What a script of a request may take. -/
def scriptBudget (r : Request) : ScriptBudget :=
  ⟨innerDeadlineMs r.seconds, r.maxRows, r.maxOutputBytes⟩

/-- Runs a script over some tables. -/
def runScript (s : RunnerSettings) (interpreter : Option Interpreter) (tables : List TableFile)
    (code : String) (r : Request) (time : RunTime) : Ran :=
  if !s.scriptEnabled then
    .unaided (.failed "script execution is disabled in this runner" time.tookMs)
  else
    match interpreter with
    | none => .unaided (.failed Failure.noInterpreter.message time.tookMs)
    | some i =>
      let (result, calls) := Script.run i s.importPolicy s.limits tables code (scriptBudget r) time
      ⟨result, calls.map .interpreter⟩

/-- Runs a request. -/
def run (s : RunnerSettings) (tools : RunnerTools) (r : Request) (time : RunTime) : Ran :=
  match tables tools.files s.dataRoot r with
  | .error e => .unaided (.failed e.message time.tookMs)
  | .ok tables =>
    match r.task with
    | .sql statement => runStatement tools.engine tables statement r time.tookMs
    | .script code => runScript s tools.interpreter tables code r time

end Runner

end Enclave
