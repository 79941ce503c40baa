import Enclave.Json.Decode
import Enclave.Word

/-!
# Retries

How often a dispatch is tried, and how long is waited in between: the wait doubles from retry to
retry up to a ceiling.
-/

namespace Enclave

open Json (Decoder RecordShape Value field)

/-- Bounded retries with growing waits. -/
structure RetryPolicy where
  /-- The number of attempts, the first one included. -/
  attempts : Nat
  initialMs : Nat
  maxMs : Nat
  deriving Repr, DecidableEq

namespace RetryPolicy

def default : RetryPolicy := ⟨3, 200, 2000⟩

/-- The wait in front of a retry, counted from one. The doubling ends with the seventeenth, and with
the largest word. -/
def backoffMs (p : RetryPolicy) (retry : Nat) : Nat :=
  min (Word.mulSat p.initialMs (1 <<< min (retry - 1) 16)) p.maxMs

def toJson (p : RetryPolicy) : Value :=
  .obj [("max_attempts", .nat p.attempts), ("initial_backoff_ms", .nat p.initialMs),
    ("max_backoff_ms", .nat p.maxMs)]

def decoder : Decoder RetryPolicy := RecordShape.decode
  { title := "struct RetryPolicy"
    names := ["max_attempts", "initial_backoff_ms", "max_backoff_ms"]
    required := []
    nullable := []
    start := .default
    set := fun
      | "max_attempts" => field Json.word32 fun p v => { p with attempts := v }
      | "initial_backoff_ms" => field Json.word64 fun p v => { p with initialMs := v }
      | "max_backoff_ms" => field Json.word64 fun p v => { p with maxMs := v }
      | _ => none }

end RetryPolicy

end Enclave
