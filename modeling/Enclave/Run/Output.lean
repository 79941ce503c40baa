import Enclave.Run.Result
import Enclave.Script.Literal
import Enclave.Text.Blank

/-!
# From output to a result

A backend hands back whatever text a runner and everything around it printed. `readResult` finds
the result in it. The candidates are the whole text and then the lines that open a mapping, the
last one first. All of them are tried as JSON before any is tried as a literal of a script, and
the first that is a result that makes sense wins.
-/

namespace Enclave

open Json (Value)

/-- A text as a literal. -/
def readLiteral (text : String) : Outcome Value :=
  match Script.Literal.read text with
  | .ok v => .ok v
  | .error (place, f) =>
    .error (.unreadable ("literal parse error at " ++ Decimal.natText place ++ ": " ++ f.message))

/-- A mapping as a result. -/
def resultOfValue (v : Value) : Outcome RunResult :=
  if (v.get? "status").isNone then .error (.unreadable "mapping has no status")
  else
    match Json.decodeValue RunResult.decoder v with
    | .error m => .error (.unreadable ("malformed result: " ++ m.message))
    | .ok r =>
      match r.checkShape with
      | .ok r => .ok r
      | .error m => .error (.unreadable m.message)

/-- The parts of an output that may be a result, in the order in which they are tried. -/
def resultCandidates (trimmed : List Char) : List String :=
  let lines := (Text.linesOf trimmed).reverse.map Text.trimChars
  (trimmed :: lines.filter fun l => l.head? == some '{').map String.ofList

/-- The first candidate that is a result; the last problem met otherwise. `read` makes a value of a
text where it can. -/
def firstResult (read : String → Option Value) (problem : String) :
    List String → Except String RunResult
  | [] => .error problem
  | c :: cs =>
    match read c with
    | none => firstResult read problem cs
    | some v =>
      match resultOfValue v with
      | .ok r => .ok r
      | .error e => firstResult read e.message cs

/-- How many bytes of an output are shown when nothing in it is a result. -/
def previewBytes : Nat := 512

/-- The result in an output. -/
def readResult (text : String) : Outcome RunResult :=
  let trimmed := Text.trimChars text.toList
  if trimmed.isEmpty then .error (.unreadable "runner produced no output")
  else
    let candidates := resultCandidates trimmed
    match firstResult (fun c => (Value.parse c).toOption) "no result mapping found" candidates with
    | .ok r => .ok r
    | .error problem =>
      match firstResult (fun c => (readLiteral c).toOption) problem candidates with
      | .ok r => .ok r
      | .error problem =>
        let whole := String.ofList trimmed
        .error (.unreadable (problem ++ " in " ++ Decimal.natText whole.utf8ByteSize ++
          " bytes of output: " ++ (Text.cut whole previewBytes).1))

end Enclave
