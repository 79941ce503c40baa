import Enclave.Settings.Imports
import Enclave.Json.Document
import Enclave.Json.Printer
import Enclave.Failure

/-!
# The policy for scripts

A script is looked at by an inspector, a program that knows the language of scripts: it gets the
script and the rules, and prints a verdict as one JSON object. The policy believes only that
object; an inspector that prints anything else has not accepted the script.
-/

namespace Enclave

open Json (Value)

/-- Calls that a script may not make, in order. -/
def deniedCalls : List String := sortedSet
  ["open", "eval", "exec", "compile", "__import__", "globals", "locals", "vars", "getattr",
   "setattr", "delattr", "input", "breakpoint", "to_csv", "to_parquet", "to_pickle",
   "to_sql", "read_pickle", "system", "popen"]

/-- The longest script that is looked at, in bytes. -/
def maxScriptBytes : Nat := 256 * 1024

/-- The rules that an inspector goes by. -/
structure ScriptRules where
  /-- The modules to which imports are restricted, if they are. -/
  allowed : Option (List String)
  denied : List String
  calls : List String
  deriving Repr, DecidableEq

namespace ScriptRules

/-- The rules of an import policy. -/
def ofPolicy (p : ImportPolicy) : ScriptRules := ⟨p.allowedRoots, p.deniedRoots, deniedCalls⟩

/-- Whether a module may be imported. -/
def allowsModule (r : ScriptRules) (module : String) : Bool :=
  let root := ImportPolicy.rootOf module
  if r.denied.contains root then false
  else
    match r.allowed with
    | none => true
    | some allowed => allowed.contains root

/-- The rules as an inspector is told of them. -/
def toJson (r : ScriptRules) : Value :=
  .obj [("allowed", (r.allowed.map Value.strings).getD .null), ("denied_calls", .strings r.calls),
    ("denied_modules", .strings r.denied)]

end ScriptRules

/-- What an inspector printed. -/
structure Inspection where
  stdout : String
  stderr : String
  deriving Repr, DecidableEq

/-- A program that looks at a script under some rules; it may fail to start. -/
abbrev Inspector := ScriptRules → String → Outcome Inspection

namespace Inspection

/-- The decision that an inspector's verdict stands for. -/
def decide (v : Value) : Outcome Unit :=
  if (v.get? "ok").bind Value.asBool? = some true then .ok ()
  else
    let message := ((v.get? "message").bind Value.asString?).getD "rejected"
    match (v.get? "kind").bind Value.asString? with
    | some "syntax" => .error (.scriptSyntax message)
    | _ => .error (.refused message)

/-- The decision in what an inspector printed. -/
def outcome (i : Inspection) : Outcome Unit :=
  match Value.parse (Text.trim i.stdout) with
  | .ok v => decide v
  | .error _ => .error (.internal ("script analyzer produced no verdict: " ++ i.stderr))

end Inspection

/-- The check of a script by an inspector. -/
def checkScript (inspect : Inspector) (policy : ImportPolicy) (code : String) : Outcome Unit :=
  if Text.isBlankText code then .error (.refused "empty script")
  else if code.utf8ByteSize > maxScriptBytes then
    .error (.refused ("script is " ++ Decimal.natText code.utf8ByteSize ++ " bytes, limit is " ++
      Decimal.natText maxScriptBytes))
  else
    match inspect (.ofPolicy policy) code with
    | .error e => .error e
    | .ok i => i.outcome

end Enclave
