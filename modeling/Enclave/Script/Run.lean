import Enclave.Backend.Command
import Enclave.Run.Deadline
import Enclave.Run.Result
import Enclave.Script.Report
import Enclave.Settings.Runner

/-!
# Running a script

A script runs in an interpreter of its own, over tables that are loaded before it starts. The
interpreter gets one JSON document with the script, the tables and the rules for imports, an
environment that leaks nothing, and a deadline. Whatever the interpreter does, there is a result;
only a deadline that the clock cannot show breaks the runner off before it starts one.
-/

namespace Enclave

open Json (Value)

/-- A table that a run may read: its name, and the path of its file. -/
structure TableFile where
  name : String
  path : String
  deriving Repr, DecidableEq

/-- What an interpreter is started with. -/
structure ScriptCall where
  payload : Value
  environment : Environment

/-- A program that runs scripts. -/
abbrev Interpreter := ScriptCall → Reply

/-- What a run of a script may take. -/
structure ScriptBudget where
  deadlineMs : Nat
  maxRows : Nat
  maxOutputBytes : Nat
  deriving Repr, DecidableEq

namespace Script

/-- The document that an interpreter is given. -/
def payload (p : ImportPolicy) (tables : List TableFile) (code : String) (maxRows : Nat) : Value :=
  .object [
    ("code", .str code),
    ("tables", .arr (tables.map fun t => .arr [.str t.name, .str t.path])),
    ("max_rows", .nat maxRows),
    ("allowed", (p.allowedRoots.map Value.strings).getD .null),
    ("denied", .strings p.deniedRoots)]

/-- The whole environment of an interpreter. -/
def environment (l : Limits) : Environment :=
  let threads := Decimal.natText l.threads
  [("HOME", "/tmp"), ("MKL_NUM_THREADS", threads), ("MPLCONFIGDIR", "/tmp"),
   ("OMP_NUM_THREADS", threads), ("OPENBLAS_NUM_THREADS", threads),
   ("PYTHONDONTWRITEBYTECODE", "1"), ("PYTHONIOENCODING", "utf-8")]

/-- How an interpreter is started for a script. -/
def call (p : ImportPolicy) (l : Limits) (tables : List TableFile) (code : String)
    (b : ScriptBudget) : ScriptCall :=
  ⟨payload p tables code b.maxRows, environment l⟩

/-- Whether a text occurs in another. -/
def occursIn (part whole : String) : Bool :=
  (behindLast part.toList none whole.toList).isSome

/-- How much of the error output of an interpreter is shown when it left no report, in bytes. -/
def tailBytes : Nat := 2048

/-- What is said of an interpreter that left no report. -/
def withoutReport (exit : Exit) (stderr : String) : String :=
  if occursIn "MemoryError" stderr then "memory limit exceeded"
  else
    match exit with
    | .signal => "interpreter killed by signal (CPU or memory limit)"
    | .code _ =>
      "interpreter exited " ++ exit.text ++ ": " ++ (Text.cut (Text.trim stderr) tailBytes).1

/-- The result that a report stands for. -/
def resultOf (r : Report) (maxRows timeMs : Nat) : RunResult :=
  match r.error with
  | some error => .failed error timeMs
  | none =>
    if r.rows.any fun row => row.length != r.columns.length then
      .failed "script result has ragged rows" timeMs
    else (RunResult.success r.columns r.rows timeMs).limitRows maxRows

/-- The result of a script by the reply of its interpreter. -/
def read (b : ScriptBudget) (timeMs : Nat) : Reply → RunResult
  | .absent reason => .failed (Failure.io reason).message timeMs
  | .ended exit stdout stderr ms =>
    if b.deadlineMs ≤ ms then
      .timedOut ("script exceeded " ++ Decimal.natText b.deadlineMs ++ "ms") timeMs
    else
      match Report.find? (Text.ofBytes stdout) with
      | some r => (resultOf r b.maxRows timeMs).withOutput r.stdout r.stderr b.maxOutputBytes
      | none =>
        let stderr := Text.ofBytes stderr
        (RunResult.failed (withoutReport exit stderr) timeMs).withOutput "" stderr b.maxOutputBytes

/-- Runs a script over some tables: the result, and the calls of the interpreter. -/
def run (interpreter : Interpreter) (p : ImportPolicy) (l : Limits) (tables : List TableFile)
    (code : String) (b : ScriptBudget) (time : RunTime) :
    Except Crash RunResult × List ScriptCall :=
  if clockEndMs ≤ time.startMs + b.deadlineMs then (.error .deadlineBeyondClock, [])
  else
    let call := call p l tables code b
    (.ok (read b time.tookMs (interpreter call)), [call])

end Script

end Enclave
