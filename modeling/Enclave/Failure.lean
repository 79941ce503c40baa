import Enclave.Decimal.Notation

/-!
# Failures

Everything that can end an operation of this library other than with its result. A failure is a
cause; `Failure.message` is its only wording. Two classifications matter to callers:

* `beforeDispatch`: the causes that speak of the submission itself, found before anything ran;
* `retryable`: failures of the infrastructure, which may go away by themselves.
-/

namespace Enclave

/-- Why an operation failed. -/
inductive Failure where
  /-- A part of a plan, of a dataset or of a budget does not hold up against its rules. -/
  | invalid (field reason : String)
  /-- A plan has no statement. -/
  | notCompilable (reason : String)
  /-- A statement or script is refused by policy. -/
  | refused (reason : String)
  /-- A script does not parse. -/
  | scriptSyntax (reason : String)
  /-- A path is not acceptable. -/
  | pathRejected (path reason : String)
  /-- A submission carries a plan and a statement, or neither. -/
  | ambiguous
  /-- The backend could not be reached. -/
  | dispatch (reason : String)
  /-- A run took longer than it was allowed to. -/
  | timedOut (seconds : Nat)
  /-- The output of a run is no result. -/
  | unreadable (reason : String)
  /-- A run was killed by a ceiling on its resources. -/
  | ceiling (reason : String)
  /-- A statement failed while it was evaluated. -/
  | evaluation (reason : String)
  /-- There is no interpreter for scripts. -/
  | noInterpreter
  /-- A run already has its final outcome. -/
  | alreadyFinal (run : String)
  /-- There is no such run. -/
  | unknownRun (run : String)
  /-- The configuration is not acceptable. -/
  | badConfig (reason : String)
  /-- The operating system refused. -/
  | io (reason : String)
  /-- A text is not the JSON it should be. -/
  | json (reason : String)
  /-- Something that should not happen. -/
  | internal (reason : String)
  deriving Repr, DecidableEq

namespace Failure

/-- The wording of a failure. -/
def message : Failure → String
  | .invalid field reason => "Invalid query plan at " ++ field ++ ": " ++ reason
  | .notCompilable reason => "Cannot compile query plan: " ++ reason
  | .refused reason => "Statement rejected by policy: " ++ reason
  | .scriptSyntax reason => "Syntax error in script: " ++ reason
  | .pathRejected path reason => "Path rejected: " ++ path ++ ": " ++ reason
  | .ambiguous => "Submission must carry exactly one of a query plan or a raw statement"
  | .dispatch reason => "Executor dispatch failed: " ++ reason
  | .timedOut seconds => "Run exceeded its " ++ Decimal.natText seconds ++ "s timeout"
  | .unreadable reason => "Runner output could not be normalized: " ++ reason
  | .ceiling reason => "Sandbox killed by resource ceiling: " ++ reason
  | .evaluation reason => "Query execution failed: " ++ reason
  | .noInterpreter => "Python not installed or not found in PATH"
  | .alreadyFinal run => "Capsule " ++ run ++ " already holds a terminal result"
  | .unknownRun run => "Capsule " ++ run ++ " not found"
  | .badConfig reason => "Configuration error: " ++ reason
  | .io reason => "IO error: " ++ reason
  | .json reason => "JSON error: " ++ reason
  | .internal reason => "Internal error: " ++ reason

/-- Whether a failure speaks of the submission, so that nothing was run. -/
def beforeDispatch : Failure → Bool
  | .invalid _ _ | .notCompilable _ | .refused _ | .scriptSyntax _ | .pathRejected _ _
  | .ambiguous => true
  | _ => false

/-- Whether another attempt is worth while. -/
def retryable : Failure → Bool
  | .dispatch _ => true
  | _ => false

end Failure

/-- The result of an operation that can fail. -/
abbrev Outcome (α : Type) := Except Failure α

end Enclave
