import Enclave.Submission
import Enclave.Plan.Check
import Enclave.Plan.Statement
import Enclave.Path.Confinement
import Enclave.Sql.Policy
import Enclave.Script.Policy
import Enclave.Settings.Sandbox
import Enclave.Record.Store
import Enclave.Run.Execution

/-!
# The sandbox

From a submission to the capsule of its run. `Sandbox.prepare` checks everything that can be
checked beforehand and makes the request; a submission that fails here leaves no trace.
`Sandbox.submit` then creates a pending capsule, executes the request and finishes the capsule,
trying a second time when the store fails.
-/

namespace Enclave

/-- A sandbox: its rules, and an inspector of scripts when scripts are accepted. -/
structure Sandbox where
  backend : String
  budget : BudgetCeiling
  dataRoot : String
  maxPlanLimit : Nat
  retry : RetryPolicy
  scripts : Option (ImportPolicy × Inspector)

namespace Sandbox

/-- The sandbox of some settings over a backend. Where scripts are accepted, an inspector has to be
there. -/
def ofSettings (s : Settings) (backend : String) (inspector : Option Inspector) :
    Outcome Sandbox :=
  let made (scripts : Option (ImportPolicy × Inspector)) : Sandbox :=
    ⟨backend, s.budget, s.sandboxDataRoot, s.maxPlanLimit, s.retry, scripts⟩
  if s.scriptEnabled then
    match inspector with
    | some i => .ok (made (some (s.importPolicy, i)))
    | none => .error .noInterpreter
  else .ok (made none)

/-! ## Before anything runs -/

/-- The check of a script under the rules of the sandbox. -/
def checkScript (s : Sandbox) (code : String) : Outcome Unit :=
  match s.scripts with
  | none => .error (.refused "script submissions are disabled")
  | some (policy, inspector) => Enclave.checkScript inspector policy code

/-- The task of a plan. -/
def planTask (s : Sandbox) (d : Dataset) (p : Plan) : Outcome Task := do
  p.check d s.maxPlanLimit
  let statement ← p.statement
  Sql.check statement
  return .sql statement

/-- The task of a query of the caller's own. -/
def rawTask (s : Sandbox) (q : RawQuery) : Outcome Task :=
  match q.kind with
  | .sql => (Sql.check q.text).map fun _ => .sql q.text
  | .script => (s.checkScript q.text).map fun _ => .script q.text

/-- The task of a submission, which carries a plan or a query but not both. -/
def task (s : Sandbox) (sub : Submission) : Outcome Task :=
  match sub.plan, sub.raw with
  | some p, none => s.planTask sub.dataset p
  | none, some q => s.rawTask q
  | _, _ => .error .ambiguous

/-- The files of a dataset as the runner finds them, each below the directory of the dataset. -/
def filesBelow (root : String) : List Table → Outcome (List FileRef)
  | [] => .ok []
  | t :: ts =>
    match Path.checkLexical root (Path.join root t.file) with
    | .error e => .error e
    | .ok path =>
      match filesBelow root ts with
      | .error e => .error e
      | .ok fs => .ok (⟨t.file, path⟩ :: fs)

/-- The files of a dataset; no two of them are tables of one name. -/
def files (s : Sandbox) (d : Dataset) : Outcome (List FileRef) := do
  let _ ← Naming.tableNames (d.tables.map Table.file)
  filesBelow (Path.join s.dataRoot d.id) d.tables

/-- The request of a submission, and what is recorded of it. -/
def prepare (s : Sandbox) (sub : Submission) : Outcome (Request × RequestRecord) := do
  let budget ← s.budget.grant sub.budget
  Naming.checkDatasetId sub.dataset.id
  let task ← s.task sub
  let files ← s.files sub.dataset
  return (
    { datasetId := sub.dataset.id, files, task, seconds := budget.seconds,
      maxRows := budget.rows, maxOutputBytes := budget.outputBytes },
    { datasetId := sub.dataset.id, kind := task.kind, plan := sub.plan,
      rawText := sub.raw.map RawQuery.text, compiled := task.text, budget })

/-! ## The end of a run -/

/-- Milliseconds of a number of seconds, in a word of 64 bits. -/
def milliseconds (seconds : Nat) : Nat := seconds * 1000 % 2 ^ 64

/-- The status of a run that came back with a result. -/
def statusOf : RunStatus → CapsuleStatus
  | .success => .succeeded
  | .error => .failed
  | .timeout => .timedOut

/-- How a run ended, by the answer of the backend. -/
def verdict (seconds : Nat) : Outcome RunResult → Verdict
  | .ok r => ⟨statusOf r.status, some r, r.error⟩
  | .error (.timedOut secs) =>
    let message := "run exceeded its " ++ Decimal.natText secs ++ "s timeout"
    ⟨.timedOut, some (.timedOut message (milliseconds seconds)), some message⟩
  | .error e => ⟨.failed, none, some e.message⟩

/-- Finishes a capsule; a store that fails is asked a second time. -/
def record {σ : Type} (ops : StoreOps σ) (runId : String) (v : Verdict) (now : Instant)
    (store : σ) : Outcome Capsule × σ :=
  match ops.finalize runId v now store with
  | (.ok c, store) => (.ok c, store)
  | (.error (.alreadyFinal id), store) => (.error (.alreadyFinal id), store)
  | (.error _, store) => ops.finalize runId v now store

/-! ## Submitting -/

/-- What became of a submission: the answer to the caller, the requests that were dispatched, and
the store. -/
structure Submitted (σ : Type) where
  outcome : Outcome Capsule
  requests : List Request
  store : σ

/-- When a run begins and ends, and what it is named. -/
structure RunClock where
  runId : String
  start : Instant
  finish : Instant

/-- Runs a submission. `replies` are the answers of the backend to the dispatches of this run. -/
def submit {σ : Type} (s : Sandbox) (ops : StoreOps σ) (clock : RunClock)
    (replies : Nat → Outcome RunResult) (sub : Submission) (store : σ) : Submitted σ :=
  match s.prepare sub with
  | .error e => ⟨.error e, [], store⟩
  | .ok (request, asked) =>
    match ops.create (.pending clock.runId s.backend asked clock.start) store with
    | (.error e, store) => ⟨.error e, [], store⟩
    | (.ok c, store) =>
      let run := execute s.retry replies
      let (outcome, store) :=
        record ops c.runId (verdict request.seconds run.outcome) clock.finish store
      ⟨outcome, List.replicate run.dispatches request, store⟩

/-- The capsule of a run, if there is such a run. -/
def find {σ : Type} (ops : StoreOps σ) (runId : String) (store : σ) :
    Outcome (Option Capsule) × σ :=
  match ops.get runId store with
  | (.ok c, store) => (.ok (some c), store)
  | (.error (.unknownRun _), store) => (.ok none, store)
  | (.error e, store) => (.error e, store)

end Sandbox

end Enclave
