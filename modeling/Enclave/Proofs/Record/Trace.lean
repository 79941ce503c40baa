import Enclave.Record.Store
import Mathlib.Data.List.Basic

/-!
# Stores that keep what they were asked

`StoreOps.traced` runs any store and writes every call down with its answer. Nothing else changes,
so what is proved of a traced run is proved of the run itself; the trace is how a statement can
speak of the calls and not only of the store that is left.
-/

namespace Enclave

/-- A call of a store and its answer. -/
inductive StoreEvent where
  | create (c : Capsule) (answer : Outcome Capsule)
  | finalize (runId : String) (v : Verdict) (answer : Outcome Capsule)
  | get (runId : String) (answer : Outcome Capsule)

/-- A store with the calls that were made of it, the first one in front. -/
def StoreOps.traced {σ : Type} (ops : StoreOps σ) : StoreOps (σ × List StoreEvent) where
  create c s := let r := ops.create c s.1; (r.1, r.2, s.2 ++ [.create c r.1])
  finalize runId v now s :=
    let r := ops.finalize runId v now s.1; (r.1, r.2, s.2 ++ [.finalize runId v r.1])
  get runId s := let r := ops.get runId s.1; (r.1, r.2, s.2 ++ [.get runId r.1])

namespace StoreEvent

/-- The capsules that a store was asked to create. -/
def asked (es : List StoreEvent) : List Capsule :=
  es.filterMap fun
    | .create c _ => some c
    | _ => none

/-- The capsules that a store did create. -/
def created (es : List StoreEvent) : List Capsule :=
  es.filterMap fun
    | .create _ (.ok c) => some c
    | _ => none

/-- The answers to the calls of `finalize`. -/
def finalized (es : List StoreEvent) : List (Outcome Capsule) :=
  es.filterMap fun
    | .finalize _ _ answer => some answer
    | _ => none

/-- The capsules that a store did finish, by the names under which it was asked to. -/
def finished (es : List StoreEvent) : List (String × Capsule) :=
  es.filterMap fun
    | .finalize runId _ (.ok c) => some (runId, c)
    | _ => none

/-- The last that was heard of a run: what it was finished with, or else what it was created
with. -/
def standing (es : List StoreEvent) (runId : String) : Option Capsule :=
  ((finished es).lookup runId).or ((created es).find? fun c => c.runId == runId)

@[simp]
theorem asked_append (es es' : List StoreEvent) : asked (es ++ es') = asked es ++ asked es' :=
  List.filterMap_append

@[simp]
theorem created_append (es es' : List StoreEvent) :
    created (es ++ es') = created es ++ created es' :=
  List.filterMap_append

@[simp]
theorem finalized_append (es es' : List StoreEvent) :
    finalized (es ++ es') = finalized es ++ finalized es' :=
  List.filterMap_append

@[simp]
theorem finished_append (es es' : List StoreEvent) :
    finished (es ++ es') = finished es ++ finished es' :=
  List.filterMap_append

end StoreEvent

namespace StoreOps

variable {σ : Type} (ops : StoreOps σ)

theorem traced_create (c : Capsule) (s : σ) (es : List StoreEvent) :
    ops.traced.create c (s, es)
      = ((ops.create c s).1, (ops.create c s).2, es ++ [.create c (ops.create c s).1]) := rfl

theorem traced_finalize (runId : String) (v : Verdict) (now : Instant) (s : σ)
    (es : List StoreEvent) :
    ops.traced.finalize runId v now (s, es)
      = ((ops.finalize runId v now s).1, (ops.finalize runId v now s).2,
          es ++ [.finalize runId v (ops.finalize runId v now s).1]) := rfl

end StoreOps

end Enclave
