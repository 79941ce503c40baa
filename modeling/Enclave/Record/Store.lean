import Enclave.Record.Capsule
import Enclave.Record.RunId

/-!
# Stores of capsules

Two stores with one behaviour: `MemoryStore` keeps capsules in a table, `DirectoryStore` keeps one
JSON document for each run. A capsule is created once, finished at most once, and found again by
the name of its run. An operation that fails leaves a store as it was.

`StoreOps` is what the rest of the library asks of a store, and `StoreOps.faulty` makes calls of a
store fail before they reach it.
-/

namespace Enclave

/-- The operations of a store with states `σ`. -/
structure StoreOps (σ : Type) where
  create : Capsule → σ → Outcome Capsule × σ
  /-- Finishes the run of a name at a moment. -/
  finalize : String → Verdict → Instant → σ → Outcome Capsule × σ
  get : String → σ → Outcome Capsule × σ

/-- A capsule that may be finished. -/
def Capsule.finish (c : Capsule) (runId : String) (v : Verdict) (now : Instant) : Outcome Capsule :=
  if c.status.isTerminal then .error (.alreadyFinal runId) else v.apply c now

/-- A failed operation, which leaves the store as it was, or a changed store. -/
def committed {α σ : Type} (r : Outcome (α × σ)) (before : σ) : Outcome α × σ :=
  match r with
  | .ok (a, after) => (.ok a, after)
  | .error e => (.error e, before)

/-! ## In memory -/

/-- Capsules by the names of their runs. -/
structure MemoryStore where
  capsules : List (String × Capsule)

namespace MemoryStore

def empty : MemoryStore := ⟨[]⟩

/-- The capsule of a run. -/
def get? (s : MemoryStore) (runId : String) : Option Capsule := s.capsules.lookup runId

/-- The store with a capsule at the name of its run. -/
def put (s : MemoryStore) (runId : String) (c : Capsule) : MemoryStore :=
  if (s.get? runId).isSome then
    ⟨s.capsules.map fun kv => if kv.1 = runId then (runId, c) else kv⟩
  else ⟨s.capsules ++ [(runId, c)]⟩

def create (c : Capsule) (s : MemoryStore) : Outcome (Capsule × MemoryStore) :=
  if (s.get? c.runId).isSome then .error (.internal ("duplicate run id " ++ c.runId))
  else .ok (c, s.put c.runId c)

def finalize (runId : String) (v : Verdict) (now : Instant) (s : MemoryStore) :
    Outcome (Capsule × MemoryStore) :=
  match s.get? runId with
  | none => .error (.unknownRun runId)
  | some c => (c.finish runId v now).map fun c => (c, s.put runId c)

def get (runId : String) (s : MemoryStore) : Outcome Capsule :=
  match s.get? runId with
  | none => .error (.unknownRun runId)
  | some c => .ok c

def ops : StoreOps MemoryStore where
  create c s := committed (create c s) s
  finalize runId v now s := committed (finalize runId v now s) s
  get runId s := (get runId s, s)

end MemoryStore

/-! ## In a directory -/

/-- What a file holds. -/
inductive FileContent where
  | text (t : String)
  /-- Bytes that are no text or may not be looked at, and what is said of an attempt to read them. -/
  | unreadable (bytes : List UInt8) (reason : String)
  deriving Repr, DecidableEq

/-- The files of a directory, by their names. -/
structure DirectoryStore where
  files : List (String × FileContent)

namespace DirectoryStore

def empty : DirectoryStore := ⟨[]⟩

/-- What a file holds. -/
def file? (s : DirectoryStore) (name : String) : Option FileContent := s.files.lookup name

/-- The directory with something in a file. -/
def put (s : DirectoryStore) (name : String) (content : FileContent) : DirectoryStore :=
  if (s.file? name).isSome then
    ⟨s.files.map fun kv => if kv.1 = name then (name, content) else kv⟩
  else ⟨s.files ++ [(name, content)]⟩

/-- The directory with a text in a file. -/
def write (s : DirectoryStore) (name text : String) : DirectoryStore := s.put name (.text text)

/-- The directory without a file. -/
def erase (s : DirectoryStore) (name : String) : DirectoryStore :=
  ⟨s.files.filter fun kv => kv.1 != name⟩

/-- The file of a run. Only what names a run has a file, so no name leads anywhere else. -/
def fileName (runId : String) : Outcome String :=
  match RunId.canonical? runId with
  | some id => .ok (id ++ ".json")
  | none => .error (.unknownRun runId)

/-- The capsule in a file. -/
def read (s : DirectoryStore) (name runId : String) : Outcome Capsule :=
  match s.file? name with
  | none => .error (.unknownRun runId)
  | some (.unreadable _ reason) => .error (.io reason)
  | some (.text text) =>
    match Json.decodeText Capsule.decoder text with
    | .ok c => .ok c
    | .error m => .error (.json m.message)

def create (c : Capsule) (s : DirectoryStore) : Outcome (Capsule × DirectoryStore) := do
  let name ← fileName c.runId
  if (s.file? name).isSome then .error (.internal ("duplicate run id " ++ c.runId))
  else return (c, s.write name c.toJson.pretty)

def finalize (runId : String) (v : Verdict) (now : Instant) (s : DirectoryStore) :
    Outcome (Capsule × DirectoryStore) := do
  let name ← fileName runId
  let c ← s.read name runId
  let c ← c.finish runId v now
  return (c, s.write name c.toJson.pretty)

def get (runId : String) (s : DirectoryStore) : Outcome Capsule := do
  s.read (← fileName runId) runId

def ops : StoreOps DirectoryStore where
  create c s := committed (create c s) s
  finalize runId v now s := committed (finalize runId v now s) s
  get runId s := (get runId s, s)

end DirectoryStore

/-! ## Either of the two -/

/-- A store of one of the two kinds. -/
inductive Store where
  | memory (s : MemoryStore)
  | directory (s : DirectoryStore)

namespace Store

def ops : StoreOps Store where
  create c
    | .memory s => let r := MemoryStore.ops.create c s; (r.1, .memory r.2)
    | .directory s => let r := DirectoryStore.ops.create c s; (r.1, .directory r.2)
  finalize runId v now
    | .memory s => let r := MemoryStore.ops.finalize runId v now s; (r.1, .memory r.2)
    | .directory s => let r := DirectoryStore.ops.finalize runId v now s; (r.1, .directory r.2)
  get runId
    | .memory s => let r := MemoryStore.ops.get runId s; (r.1, .memory r.2)
    | .directory s => let r := DirectoryStore.ops.get runId s; (r.1, .directory r.2)

end Store

/-! ## Faults -/

/-- Which of the next calls of a store fail, and how. -/
structure StoreFaults where
  create : List (Option Failure)
  finalize : List (Option Failure)
  get : List (Option Failure)

namespace StoreFaults

def none : StoreFaults := ⟨[], [], []⟩

end StoreFaults

/-- What the next call does: a failure in front of it, if there is one, and what is left. -/
def nextFault (fs : List (Option Failure)) : Option Failure × List (Option Failure) :=
  match fs with
  | [] => (none, [])
  | f :: rest => (f, rest)

/-- A store some of whose calls fail before they reach it. -/
def StoreOps.faulty {σ : Type} (ops : StoreOps σ) : StoreOps (σ × StoreFaults) where
  create c s :=
    match nextFault s.2.create with
    | (some e, rest) => (.error e, s.1, { s.2 with create := rest })
    | (none, rest) => let r := ops.create c s.1; (r.1, r.2, { s.2 with create := rest })
  finalize runId v now s :=
    match nextFault s.2.finalize with
    | (some e, rest) => (.error e, s.1, { s.2 with finalize := rest })
    | (none, rest) =>
      let r := ops.finalize runId v now s.1; (r.1, r.2, { s.2 with finalize := rest })
  get runId s :=
    match nextFault s.2.get with
    | (some e, rest) => (.error e, s.1, { s.2 with get := rest })
    | (none, rest) => let r := ops.get runId s.1; (r.1, r.2, { s.2 with get := rest })

end Enclave
