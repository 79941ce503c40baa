import Enclave.Plan.Document
import Enclave.Budget
import Enclave.Run.Request
import Enclave.Run.Result
import Enclave.Time.Instant

/-!
# Capsules

The record of one run: what was asked for, when, and how it ended. A capsule is made pending
before anything is dispatched and is finished once; `Verdict.apply` is the only way from one to
the other.
-/

namespace Enclave

open Json (Decoder RecordShape Value Misfit field)

/-- How far a run has come. -/
inductive CapsuleStatus where
  | pending
  | succeeded
  | failed
  | timedOut
  deriving Repr, DecidableEq

namespace CapsuleStatus

def wire : CapsuleStatus → String
  | .pending => "pending"
  | .succeeded => "succeeded"
  | .failed => "failed"
  | .timedOut => "timed_out"

/-- Whether nothing can change any more. -/
def isTerminal : CapsuleStatus → Bool
  | .pending => false
  | _ => true

def decoder : Decoder CapsuleStatus :=
  Json.plainVariant ([.pending, .succeeded, .failed, .timedOut].map fun s => (wire s, s))

end CapsuleStatus

/-- What was asked for. -/
structure RequestRecord where
  datasetId : String
  kind : TaskKind
  plan : Option Plan
  /-- The statement or script as it was submitted. -/
  rawText : Option String
  /-- What was dispatched. -/
  compiled : String
  budget : Budget

namespace RequestRecord

def toJson (r : RequestRecord) : Value :=
  .obj ([("dataset_id", .str r.datasetId), ("query_type", .str r.kind.wire)] ++
    optionalMember "plan" (r.plan.map Plan.toJson) ++
    optionalMember "raw_text" (r.rawText.map .str) ++
    [("compiled", .str r.compiled), ("budget", r.budget.toJson)])

def decoder : Decoder RequestRecord := RecordShape.decode
  { title := "struct RequestRecord"
    names := ["dataset_id", "query_type", "plan", "raw_text", "compiled", "budget"]
    required := ["dataset_id", "query_type", "compiled", "budget"]
    nullable := []
    start := ⟨"", .sql, none, none, "", .default⟩
    set := fun
      | "dataset_id" => field Json.text fun r v => { r with datasetId := v }
      | "query_type" => field TaskKind.decoder fun r v => { r with kind := v }
      | "plan" => field (Json.optional Plan.decoder) fun r v => { r with plan := v }
      | "raw_text" => field (Json.optional Json.text) fun r v => { r with rawText := v }
      | "compiled" => field Json.text fun r v => { r with compiled := v }
      | "budget" => field Budget.decoder fun r v => { r with budget := v }
      | _ => none }

end RequestRecord

/-- The record of a run. -/
structure Capsule where
  runId : String
  backend : String
  request : RequestRecord
  createdAt : Instant
  startedAt : Option Instant
  finishedAt : Option Instant
  status : CapsuleStatus
  result : Option RunResult
  error : Option String

namespace Capsule

/-- The record of a run that begins now. -/
def pending (runId backend : String) (request : RequestRecord) (now : Instant) : Capsule :=
  ⟨runId, backend, request, now, some now, none, .pending, none, none⟩

/-- A moment in a document. -/
def instantDecoder : Decoder Instant := fun s d =>
  match Json.textAs "an RFC 3339 formatted date and time string" s d with
  | .error e => .error e
  | .ok t =>
    match Instant.ofText t with
    | .ok i => .ok i
    | .error f => .error (.badTime f.message)

/-- A moment as it is written, or null. -/
def instantJson (i : Option Instant) : Value := .ofOption (i.map Instant.text)

def toJson (c : Capsule) : Value :=
  .obj [("run_id", .str c.runId), ("backend", .str c.backend), ("request", c.request.toJson),
    ("created_at", .str c.createdAt.text), ("started_at", instantJson c.startedAt),
    ("finished_at", instantJson c.finishedAt), ("final_status", .str c.status.wire),
    ("result", (c.result.map RunResult.toJson).getD .null), ("error", .ofOption c.error)]

def shape : RecordShape Capsule :=
  { title := "struct RunCapsule"
    names := ["run_id", "backend", "request", "created_at", "started_at", "finished_at",
      "final_status", "result", "error"]
    required := ["run_id", "backend", "request", "created_at", "final_status"]
    nullable := ["started_at", "finished_at", "result", "error"]
    start := ⟨"", "", ⟨"", .sql, none, none, "", .default⟩, ⟨1970, 1, 1, 0, 0, 0, 0⟩, none, none,
      .pending, none, none⟩
    set := fun
      | "run_id" => field Json.text fun c v => { c with runId := v }
      | "backend" => field Json.text fun c v => { c with backend := v }
      | "request" => field RequestRecord.decoder fun c v => { c with request := v }
      | "created_at" => field instantDecoder fun c v => { c with createdAt := v }
      | "started_at" => field (Json.optional instantDecoder) fun c v => { c with startedAt := v }
      | "finished_at" => field (Json.optional instantDecoder) fun c v => { c with finishedAt := v }
      | "final_status" => field CapsuleStatus.decoder fun c v => { c with status := v }
      | "result" => field (Json.optional RunResult.decoder) fun c v => { c with result := v }
      | "error" => field (Json.optional Json.text) fun c v => { c with error := v }
      | _ => none }

def decoder : Decoder Capsule := shape.decode

end Capsule

/-- How a run ended. -/
structure Verdict where
  status : CapsuleStatus
  result : Option RunResult
  error : Option String

/-- The capsule with its end; an end has to be one. -/
def Verdict.apply (v : Verdict) (c : Capsule) (now : Instant) : Outcome Capsule :=
  if !v.status.isTerminal then .error (.internal "cannot finalize a capsule as pending")
  else .ok { c with
    finishedAt := some now, status := v.status, result := v.result, error := v.error }

end Enclave
