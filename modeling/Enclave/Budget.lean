import Enclave.Json.Decode
import Enclave.Failure

/-!
# Budgets

What a submission may use: time, rows and bytes of output. A submission asks for a budget, and the
operator sets a ceiling for each of the three numbers; what is granted is the smaller one.
-/

namespace Enclave

open Json (Decoder RecordShape Value field)

/-- What a run may use. -/
structure Budget where
  seconds : Nat
  rows : Nat
  outputBytes : Nat
  deriving Repr, DecidableEq

/-- What a submission gets that asks for nothing else. -/
def Budget.default : Budget := ⟨30, 1000, 64 * 1024⟩

/-- The most that is granted. -/
structure BudgetCeiling where
  seconds : Nat
  rows : Nat
  outputBytes : Nat
  deriving Repr, DecidableEq

def BudgetCeiling.default : BudgetCeiling := ⟨120, 10000, 1024 * 1024⟩

/-- The budget that is granted: no number may be zero, and none exceeds its ceiling. -/
def BudgetCeiling.grant (c : BudgetCeiling) (asked : Budget) : Outcome Budget :=
  if asked.seconds = 0 then .error (.invalid "budget.timeout_seconds" "must be positive")
  else if asked.rows = 0 then .error (.invalid "budget.max_rows" "must be positive")
  else if asked.outputBytes = 0 then .error (.invalid "budget.max_output_bytes" "must be positive")
  else .ok ⟨min asked.seconds c.seconds, min asked.rows c.rows,
    min asked.outputBytes c.outputBytes⟩

/-! ## Documents -/

def Budget.toJson (b : Budget) : Value :=
  .obj [("timeout_seconds", .nat b.seconds), ("max_rows", .nat b.rows),
    ("max_output_bytes", .nat b.outputBytes)]

def Budget.decoder : Decoder Budget := RecordShape.decode
  { title := "struct ExecutionBudget"
    names := ["timeout_seconds", "max_rows", "max_output_bytes"]
    required := []
    nullable := []
    start := .default
    set := fun
      | "timeout_seconds" => field Json.word64 fun b v => { b with seconds := v }
      | "max_rows" => field Json.word64 fun b v => { b with rows := v }
      | "max_output_bytes" => field Json.word64 fun b v => { b with outputBytes := v }
      | _ => none }

def BudgetCeiling.toJson (c : BudgetCeiling) : Value :=
  .obj [("max_timeout_seconds", .nat c.seconds), ("max_rows", .nat c.rows),
    ("max_output_bytes", .nat c.outputBytes)]

def BudgetCeiling.decoder : Decoder BudgetCeiling := RecordShape.decode
  { title := "struct BudgetPolicy"
    names := ["max_timeout_seconds", "max_rows", "max_output_bytes"]
    required := []
    nullable := []
    start := .default
    set := fun
      | "max_timeout_seconds" => field Json.word64 fun c v => { c with seconds := v }
      | "max_rows" => field Json.word64 fun c v => { c with rows := v }
      | "max_output_bytes" => field Json.word64 fun c v => { c with outputBytes := v }
      | _ => none }

end Enclave
