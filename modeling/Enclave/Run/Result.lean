import Enclave.Json.Decode
import Enclave.Text.Cut
import Enclave.Failure

/-!
# Results of runs

What a runner answers: a table, an error or a timeout, with the output that was captured. The
count of the rows travels beside them, so that an answer that was damaged shows. `checkShape`
says which answers make sense; `limitRows` and `withOutput` bound a result to its budget.
-/

namespace Enclave

open Json (Decoder RecordShape Value field)

/-- How a run ended. -/
inductive RunStatus where
  | success
  | error
  | timeout
  deriving Repr, DecidableEq

namespace RunStatus

def wire : RunStatus → String
  | .success => "success"
  | .error => "error"
  | .timeout => "timeout"

def decoder : Decoder RunStatus :=
  Json.plainVariant ([.success, .error, .timeout].map fun s => (wire s, s))

end RunStatus

/-- The result of a run. -/
structure RunResult where
  status : RunStatus
  columns : List String
  rows : List (List Value)
  rowCount : Nat
  timeMs : Nat
  stdout : String
  stderr : String
  error : Option String
  /-- Whether rows or output were cut. -/
  truncated : Bool
  deriving Repr, BEq

namespace RunResult

/-- A table. -/
def success (columns : List String) (rows : List (List Value)) (timeMs : Nat) : RunResult :=
  ⟨.success, columns, rows, rows.length, timeMs, "", "", none, false⟩

/-- An error. -/
def failed (message : String) (timeMs : Nat) : RunResult :=
  ⟨.error, [], [], 0, timeMs, "", "", some message, false⟩

/-- A timeout; it never has rows. -/
def timedOut (message : String) (timeMs : Nat) : RunResult :=
  { failed message timeMs with status := .timeout }

/-- The result with at most so many rows. -/
def limitRows (r : RunResult) (limit : Nat) : RunResult :=
  { r with
    rows := r.rows.take limit
    rowCount := min r.rows.length limit
    truncated := r.truncated || limit < r.rows.length }

/-- The result with captured output, each stream cut to so many bytes. -/
def withOutput (r : RunResult) (stdout stderr : String) (limit : Nat) : RunResult :=
  let out := Text.cut stdout limit
  let err := Text.cut stderr limit
  { r with stdout := out.1, stderr := err.1, truncated := r.truncated || out.2 || err.2 }

/-- Why a result makes no sense. -/
inductive Misshape where
  | rowCount (claimed actual : Nat)
  | width (row columns : Nat)
  deriving Repr, DecidableEq

/-- The wording of a misshape. -/
def Misshape.message : Misshape → String
  | .rowCount claimed actual =>
    "row_count " ++ Decimal.natText claimed ++ " disagrees with " ++ Decimal.natText actual ++ " rows"
  | .width row columns =>
    "row of width " ++ Decimal.natText row ++ " under " ++ Decimal.natText columns ++ " columns"

/-- A result that makes sense: the count of its rows is right, the rows of a success are as wide
as its columns, and a timeout loses its rows. -/
def checkShape (r : RunResult) : Except Misshape RunResult :=
  if r.rowCount ≠ r.rows.length then .error (.rowCount r.rowCount r.rows.length)
  else
    match r.status with
    | .success =>
      match r.rows.find? fun row => row.length != r.columns.length with
      | some bad => .error (.width bad.length r.columns.length)
      | none => .ok r
    | .timeout => .ok { r with rows := [], rowCount := 0 }
    | .error => .ok r

/-! ## Documents -/

def toJson (r : RunResult) : Value :=
  .obj [("status", .str r.status.wire), ("columns", .strings r.columns),
    ("rows", .arr (r.rows.map Value.arr)), ("row_count", .nat r.rowCount),
    ("exec_time_ms", .nat r.timeMs), ("stdout_trunc", .str r.stdout),
    ("stderr_trunc", .str r.stderr), ("error", .ofOption r.error),
    ("truncated", .bool r.truncated)]

def shape : RecordShape RunResult :=
  { title := "struct ExecutionResult"
    names := ["status", "columns", "rows", "row_count", "exec_time_ms", "stdout_trunc",
      "stderr_trunc", "error", "truncated"]
    required := ["status"]
    nullable := []
    start := ⟨.success, [], [], 0, 0, "", "", none, false⟩
    set := fun
      | "status" => field RunStatus.decoder fun r v => { r with status := v }
      | "columns" => field (Json.list Json.text) fun r v => { r with columns := v }
      | "rows" => field (Json.list (Json.list Json.anyValue)) fun r v => { r with rows := v }
      | "row_count" => field Json.word64 fun r v => { r with rowCount := v }
      | "exec_time_ms" => field Json.word64 fun r v => { r with timeMs := v }
      | "stdout_trunc" => field Json.text fun r v => { r with stdout := v }
      | "stderr_trunc" => field Json.text fun r v => { r with stderr := v }
      | "error" => field (Json.optional Json.text) fun r v => { r with error := v }
      | "truncated" => field Json.flag fun r v => { r with truncated := v }
      | _ => none }

def decoder : Decoder RunResult := shape.decode

end RunResult

end Enclave
