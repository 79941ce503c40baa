import Enclave.Run.Deadline
import Enclave.Run.Result
import Enclave.Run.Request
import Enclave.Settings.Retry
import Enclave.Settings.Limits

/-!
# Executing a request

A backend dispatches a request once and answers. `execute` repeats a dispatch that failed for
reasons of the infrastructure, up to the number of attempts of the policy, and takes the answer of
the last dispatch as it is. A dispatch that breaks off ends the whole execution
(`executeCrashingOn`).
-/

namespace Enclave

/-- What a backend guarantees. -/
structure Capabilities where
  backend : String
  networkIsolated : Bool
  readOnlyData : Bool
  readOnlyRoot : Bool
  maxMemoryMb : Nat
  maxCpus : Float
  /-- From zero to ten, ten being the most isolated. -/
  securityLevel : Nat
  deriving Repr

namespace Capabilities

open Json (Value)

def toJson (c : Capabilities) : Value :=
  .obj [("backend", .str c.backend), ("network_isolated", .bool c.networkIsolated),
    ("read_only_data", .bool c.readOnlyData), ("read_only_root", .bool c.readOnlyRoot),
    ("max_memory_mb", .nat c.maxMemoryMb), ("max_cpus", Limits.floatJson c.maxCpus),
    ("security_level", .nat c.securityLevel)]

end Capabilities

/-- How an execution went: the number of dispatches, the waits between them in milliseconds, and
the answer of the last one. -/
structure Execution where
  dispatches : Nat
  waits : List Nat
  outcome : Outcome RunResult

/-- Whether an answer is worth another dispatch. -/
def isRetryable (r : Outcome RunResult) : Bool :=
  match r with
  | .error e => e.retryable
  | .ok _ => false

/-- The dispatches from the `n`-th on, counted from zero, of which all but `left` have to be the
last. -/
def executeFrom (p : RetryPolicy) (replies : Nat → Outcome RunResult) :
    (left n : Nat) → Execution
  | 0, n => ⟨1, [], replies n⟩
  | left + 1, n =>
    if isRetryable (replies n) then
      let e := executeFrom p replies left (n + 1)
      ⟨e.dispatches + 1, p.backoffMs (n + 1) :: e.waits, e.outcome⟩
    else ⟨1, [], replies n⟩

/-- Dispatches a request until an answer is final; `replies n` is the answer of the `n`-th
dispatch. -/
def execute (p : RetryPolicy) (replies : Nat → Outcome RunResult) : Execution :=
  executeFrom p replies (p.attempts - 1) 0

/-- The dispatches from the `n`-th on of a backend with states `σ`, of which all but `left` have to
be the last. -/
def executeOnFrom {σ : Type} (p : RetryPolicy) (dispatch : Nat → σ → Outcome RunResult × σ) :
    (left n : Nat) → σ → Execution × σ
  | 0, n, state =>
    let (r, state) := dispatch n state
    (⟨1, [], r⟩, state)
  | left + 1, n, state =>
    let (r, state) := dispatch n state
    if isRetryable r then
      let (e, state) := executeOnFrom p dispatch left (n + 1) state
      (⟨e.dispatches + 1, p.backoffMs (n + 1) :: e.waits, e.outcome⟩, state)
    else (⟨1, [], r⟩, state)

/-- Dispatches a request until an answer is final, on a backend whose answers depend on what went
before; `dispatch n` is the `n`-th dispatch. -/
def executeOn {σ : Type} (p : RetryPolicy) (dispatch : Nat → σ → Outcome RunResult × σ)
    (state : σ) : Execution × σ :=
  executeOnFrom p dispatch (p.attempts - 1) 0 state

/-- The dispatches from the `n`-th on, as in `executeOnFrom`, of a backend that may break off. -/
def executeCrashingOnFrom {σ : Type} (p : RetryPolicy)
    (dispatch : Nat → σ → Except Crash (Outcome RunResult) × σ) :
    (left n : Nat) → σ → Except Crash Execution × σ
  | 0, n, state =>
    let (r, state) := dispatch n state
    (r.map fun r => ⟨1, [], r⟩, state)
  | left + 1, n, state =>
    match dispatch n state with
    | (.error crash, state) => (.error crash, state)
    | (.ok r, state) =>
      if isRetryable r then
        let (e, state) := executeCrashingOnFrom p dispatch left (n + 1) state
        (e.map fun e => ⟨e.dispatches + 1, p.backoffMs (n + 1) :: e.waits, e.outcome⟩, state)
      else (.ok ⟨1, [], r⟩, state)

/-- Dispatches a request until an answer is final, on a backend that may break off. -/
def executeCrashingOn {σ : Type} (p : RetryPolicy)
    (dispatch : Nat → σ → Except Crash (Outcome RunResult) × σ) (state : σ) :
    Except Crash Execution × σ :=
  executeCrashingOnFrom p dispatch (p.attempts - 1) 0 state

end Enclave
