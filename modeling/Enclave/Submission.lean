import Enclave.Plan.Document
import Enclave.Budget
import Enclave.Run.Request

/-!
# Submissions

What a caller hands in: a dataset, a budget, and either a plan or a statement or script of the
caller's own.
-/

namespace Enclave

open Json (Decoder RecordShape Value field)

/-- A statement or script of the caller's own. -/
structure RawQuery where
  kind : TaskKind
  text : String
  deriving Repr, DecidableEq

def RawQuery.decoder : Decoder RawQuery := RecordShape.decode
  { title := "struct RawQuery"
    names := ["query_type", "text"]
    required := ["query_type", "text"]
    nullable := []
    start := ⟨.sql, ""⟩
    set := fun
      | "query_type" => field TaskKind.decoder fun q v => { q with kind := v }
      | "text" => field Json.text fun q v => { q with text := v }
      | _ => none }

/-- One unit of work. -/
structure Submission where
  dataset : Dataset
  plan : Option Plan
  raw : Option RawQuery
  budget : Budget

def Submission.decoder : Decoder Submission := RecordShape.decode
  { title := "struct Submission"
    names := ["dataset", "plan", "raw", "budget"]
    required := ["dataset"]
    nullable := []
    start := ⟨⟨"", []⟩, none, none, .default⟩
    set := fun
      | "dataset" => field Dataset.decoder fun s v => { s with dataset := v }
      | "plan" => field (Json.optional Plan.decoder) fun s v => { s with plan := v }
      | "raw" => field (Json.optional RawQuery.decoder) fun s v => { s with raw := v }
      | "budget" => field Budget.decoder fun s v => { s with budget := v }
      | _ => none }

end Enclave
