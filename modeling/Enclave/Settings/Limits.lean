import Enclave.Json.Decode

/-!
# Limits on resources

The ceilings that the surroundings of a run enforce.
-/

namespace Enclave

open Json (Decoder RecordShape Value field)

/-- Ceilings on what a run may take. -/
structure Limits where
  memoryMb : Nat
  /-- The share of processors, in cores. -/
  cpus : Float
  processes : Nat
  /-- The processor time of a script. -/
  cpuSeconds : Nat
  threads : Nat
  deriving Repr

namespace Limits

def default : Limits := ⟨1024, 1.0, 64, 60, 2⟩

/-- A float as it is written: a number, or null where there is none. -/
def floatJson (f : Float) : Value := if Decimal.isFinite f then .float f else .null

def toJson (l : Limits) : Value :=
  .obj [("memory_mb", .nat l.memoryMb), ("cpus", floatJson l.cpus),
    ("max_processes", .nat l.processes), ("cpu_seconds", .nat l.cpuSeconds),
    ("max_threads", .nat l.threads)]

def decoder : Decoder Limits := RecordShape.decode
  { title := "struct ResourceLimits"
    names := ["memory_mb", "cpus", "max_processes", "cpu_seconds", "max_threads"]
    required := []
    nullable := []
    start := .default
    set := fun
      | "memory_mb" => field Json.size64 fun l v => { l with memoryMb := v }
      | "cpus" => field Json.double fun l v => { l with cpus := v }
      | "max_processes" => field Json.word64 fun l v => { l with processes := v }
      | "cpu_seconds" => field Json.word64 fun l v => { l with cpuSeconds := v }
      | "max_threads" => field Json.word32 fun l v => { l with threads := v }
      | _ => none }

end Limits

end Enclave
