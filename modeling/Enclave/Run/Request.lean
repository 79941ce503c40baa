import Enclave.Json.Decode

/-!
# Requests to a runner

What a backend hands to the program inside a sandbox: a statement or a script, the files it may
read, and its budget. A request travels as one JSON object in which the kind of the task stands
beside the other members.
-/

namespace Enclave

open Json (Decoder RecordShape Value field)

/-- The kind of a task. -/
inductive TaskKind where
  | sql
  | script
  deriving Repr, DecidableEq

namespace TaskKind

def wire : TaskKind → String
  | .sql => "sql"
  | .script => "script"

def decoder : Decoder TaskKind := Json.plainVariant ([.sql, .script].map fun k => (wire k, k))

end TaskKind

/-- What is to be run. -/
inductive Task where
  | sql (statement : String)
  | script (code : String)
  deriving Repr, DecidableEq

namespace Task

def kind : Task → TaskKind
  | .sql _ => .sql
  | .script _ => .script

def text : Task → String
  | .sql statement => statement
  | .script code => code

/-- The members of a request that tell the task. -/
def members : Task → List (String × Value)
  | .sql statement => [("query_type", .str "sql"), ("statement", .str statement)]
  | .script code => [("query_type", .str "script"), ("code", .str code)]

def sqlShape : RecordShape Task :=
  { title := "struct variant QueryBody::Sql"
    names := ["statement"]
    required := ["statement"]
    nullable := []
    start := .sql ""
    set := fun
      | "statement" => field Json.text fun _ v => .sql v
      | _ => none }

def scriptShape : RecordShape Task :=
  { title := "struct variant QueryBody::Script"
    names := ["code"]
    required := ["code"]
    nullable := []
    start := .script ""
    set := fun
      | "code" => field Json.text fun _ v => .script v
      | _ => none }

end Task

/-- A file as a runner is told of it. -/
structure FileRef where
  /-- The name after which the table is named. -/
  name : String
  /-- The place inside the sandbox. -/
  path : String
  deriving Repr, DecidableEq

namespace FileRef

def toJson (f : FileRef) : Value := .obj [("name", .str f.name), ("path", .str f.path)]

def decoder : Decoder FileRef := RecordShape.decode
  { title := "struct FileRef"
    names := ["name", "path"]
    required := ["name", "path"]
    nullable := []
    start := ⟨"", ""⟩
    set := fun
      | "name" => field Json.text fun f v => { f with name := v }
      | "path" => field Json.text fun f v => { f with path := v }
      | _ => none }

end FileRef

/-- A request to a runner. -/
structure Request where
  datasetId : String
  files : List FileRef
  task : Task
  seconds : Nat
  maxRows : Nat
  maxOutputBytes : Nat
  deriving Repr, DecidableEq

namespace Request

/-- The bytes of output that are kept when a request does not say. -/
def defaultOutputBytes : Nat := 64 * 1024

def toJson (r : Request) : Value :=
  .obj ([("dataset_id", .str r.datasetId), ("files", .arr (r.files.map FileRef.toJson))] ++
    r.task.members ++
    [("timeout_seconds", .nat r.seconds), ("max_rows", .nat r.maxRows),
     ("max_output_bytes", .nat r.maxOutputBytes)])

/-- The text in which a request travels. -/
def text (r : Request) : String := r.toJson.compact

def shape : RecordShape Request :=
  { title := "struct ExecutionRequest"
    names := []
    required := ["dataset_id", "files", "timeout_seconds", "max_rows"]
    nullable := []
    start := ⟨"", [], .sql "", 0, 0, defaultOutputBytes⟩
    set := fun
      | "dataset_id" => field Json.text fun r v => { r with datasetId := v }
      | "files" => field (Json.list FileRef.decoder) fun r v => { r with files := v }
      | "timeout_seconds" => field Json.word64 fun r v => { r with seconds := v }
      | "max_rows" => field Json.word64 fun r v => { r with maxRows := v }
      | "max_output_bytes" => field Json.word64 fun r v => { r with maxOutputBytes := v }
      | _ => none }

def decoder : Decoder Request :=
  Json.spreadVariant shape "query_type" [("sql", Task.sqlShape), ("script", Task.scriptShape)]
    fun r t => { r with task := t }

end Request

end Enclave
