import Enclave.Json.Decode
import Enclave.Text.Blank

/-!
# The report of a script

The interpreter prints one report after everything that the script printed: a JSON document
between two marks. The report is looked for behind the last opening mark and ends at the first
closing mark after it.
-/

namespace Enclave.Script

open Json (RecordShape Value field)

/-- The mark in front of a report. -/
def openingMark : String := "OUTPUT_JSON_START"

/-- The mark behind a report. -/
def closingMark : String := "OUTPUT_JSON_END"

/-- What is reported of a script. -/
structure Report where
  columns : List String
  rows : List (List Value)
  error : Option String
  stdout : String
  stderr : String
  deriving Repr

/-- The text behind the last occurrence of a mark; `best` is what is behind the last one so far. -/
def behindLast (mark : List Char) (best : Option (List Char)) : List Char → Option (List Char)
  | [] => best
  | c :: rest =>
    behindLast mark
      (if mark.isPrefixOf (c :: rest) then some ((c :: rest).drop mark.length) else best) rest

/-- The text in front of the first occurrence of a mark; `seen` is what has been passed, the last
character first. -/
def beforeFirst (mark : List Char) (seen : List Char) : List Char → Option (List Char)
  | [] => none
  | c :: rest =>
    if mark.isPrefixOf (c :: rest) then some seen.reverse else beforeFirst mark (c :: seen) rest

namespace Report

def shape : RecordShape Report :=
  { title := "struct ScriptOutput"
    names := ["columns", "rows", "error", "stdout", "stderr"]
    required := []
    nullable := ["error"]
    start := ⟨[], [], none, "", ""⟩
    set := fun
      | "columns" => field (Json.list Json.text) fun r v => { r with columns := v }
      | "rows" => field (Json.list (Json.list Json.anyValue)) fun r v => { r with rows := v }
      | "error" => field (Json.optional Json.text) fun r v => { r with error := v }
      | "stdout" => field Json.text fun r v => { r with stdout := v }
      | "stderr" => field Json.text fun r v => { r with stderr := v }
      | _ => none }

/-- The report as the interpreter prints it. -/
def toJson (r : Report) : Value :=
  .obj [("columns", .strings r.columns), ("rows", .arr (r.rows.map Value.arr)),
    ("error", .ofOption r.error), ("stdout", .str r.stdout), ("stderr", .str r.stderr)]

/-- The report in what an interpreter printed. -/
def find? (printed : String) : Option Report := do
  let behind ← behindLast openingMark.toList none printed.toList
  let document ← beforeFirst closingMark.toList [] behind
  (Json.decodeText shape.decode (String.ofList (Text.trimChars document))).toOption

end Report

end Enclave.Script
