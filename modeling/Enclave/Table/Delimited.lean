import Enclave.Table.Frame
import Enclave.Decimal.Reading

/-!
# Tables in text files

A file of a table has a line of names and then a line for each row, with commas between the
fields. A field that begins with a quote runs to the quote that is not doubled, over commas and
line ends. The type of a column is inferred from its first rows: truth values, whole numbers,
decimals, and texts for everything else; an empty field is absent and says nothing of the type.
-/

namespace Enclave.Table

/-! ## Records -/

/-- A field of a file. -/
structure Field where
  text : String
  /-- Whether the field stood between quotes. -/
  quoted : Bool
  deriving Repr, DecidableEq, Inhabited

/-- Where a reader of a file stands. -/
inductive FieldPlace where
  /-- In front of a field. -/
  | start
  /-- In a field without quotes. -/
  | plain
  /-- Between quotes. -/
  | inside
  /-- Behind a quote that ends the field, unless it is doubled. -/
  | behind
  deriving Repr, DecidableEq

/-- How far the reading of a file has come, the last record, field and character first. -/
structure FileReading where
  records : List (List Field)
  fields : List Field
  chars : List Char
  place : FieldPlace
  quoted : Bool

namespace FileReading

def initial : FileReading := ⟨[], [], [], .start, false⟩

/-- The field that has been read. -/
def field (r : FileReading) : Field := ⟨String.ofList r.chars.reverse, r.quoted⟩

/-- Ends a field. -/
def endField (r : FileReading) : FileReading :=
  { r with fields := r.field :: r.fields, chars := [], place := .start, quoted := false }

/-- Ends a record; a carriage return in front of the line end is no part of the last field. -/
def endRecord (r : FileReading) : FileReading :=
  let chars := match r.chars with
    | '\r' :: rest => rest
    | cs => cs
  let r := { r with chars }.endField
  { r with records := r.fields.reverse :: r.records, fields := [] }

/-- A character that ends a field, or belongs to one without quotes. -/
def plainStep (r : FileReading) (c : Char) : FileReading :=
  if c = ',' then r.endField
  else if c = '\n' then r.endRecord
  else { r with chars := c :: r.chars, place := .plain }

/-- Reads one more character. -/
def step (r : FileReading) (c : Char) : FileReading :=
  match r.place with
  | .start => if c = '"' then { r with place := .inside, quoted := true } else r.plainStep c
  | .plain => r.plainStep c
  | .inside =>
    if c = '"' then { r with place := .behind } else { r with chars := c :: r.chars }
  | .behind =>
    if c = '"' then { r with chars := c :: r.chars, place := .inside }
    else if c = '\r' then r
    else r.plainStep c

/-- The records of a file that has been read. -/
def finish (r : FileReading) : List (List Field) :=
  let r := if r.fields.isEmpty && r.chars.isEmpty && !r.quoted then r else r.endRecord
  r.records.reverse

end FileReading

/-- The records of a file. A mark of the byte order in front of it does not count. -/
def records (text : String) : List (List Field) :=
  let cs := match text.toList with
    | '\uFEFF' :: rest => rest
    | cs => cs
  (cs.foldl FileReading.step .initial).finish

/-! ## Types -/

/-- Whether a text is a whole number as files write it: without a plus sign. -/
def looksInt (cs : List Char) : Bool :=
  let ds := match cs with
    | '-' :: rest => rest
    | cs => cs
  !ds.isEmpty && ds.all Char.isDigit

/-- Whether a text is an exponent with its letter. -/
def looksExponent : List Char → Bool
  | e :: rest =>
    let ds := (Decimal.takeSign rest).2
    (e = 'e' || e = 'E') && !ds.isEmpty && ds.all Char.isDigit
  | [] => false

/-- Whether a text is a decimal as files write it: with a point or an exponent. -/
def looksFloat (cs : List Char) : Bool :=
  let body := (Decimal.takeSign cs).2
  let whole := body.takeWhile Char.isDigit
  let rest := body.dropWhile Char.isDigit
  let word := String.ofList body
  word == "inf" || word == "NaN" ||
    (match rest with
     | '.' :: r =>
       let fraction := r.takeWhile Char.isDigit
       let tail := r.dropWhile Char.isDigit
       if fraction.isEmpty then !whole.isEmpty && tail.isEmpty
       else tail.isEmpty || looksExponent tail
     | r => !whole.isEmpty && looksExponent r)

/-- The type that a field speaks for; none for an empty one. -/
def Field.type? (f : Field) : Option CellType :=
  let cs := f.text.toList
  if f.quoted then some .text
  else if cs.isEmpty then none
  else if ["true", "false"].contains (String.ofList (cs.map Char.toLower)) then some .bool
  else if looksFloat cs then some .float
  else if looksInt cs then some .int
  else some .text

/-- The type of a column by what its fields speak for: numbers may be mixed, anything else may
not. -/
def columnType (votes : List CellType) : CellType :=
  match votes.eraseDups with
  | [] => .text
  | [t] => t
  | [.int, .float] => .float
  | [.float, .int] => .float
  | _ => .text

/-- How many rows the types are inferred from. -/
def inferenceRows : Nat := 1000

/-! ## Cells -/

/-- The cell of a field in a column of some type; none when the field does not fit. -/
def Field.cell? (f : Field) (t : CellType) : Option Cell :=
  if f.text.isEmpty && !f.quoted then some .null
  else
    let cs := f.text.toList
    match t with
    | .text => some (.text f.text)
    | .null => some .null
    | .int =>
      match Decimal.readInt? cs with
      | some n => if wrap n = n then some (.int n) else none
      | none => none
    | .float => (Decimal.readFloat? cs).map Cell.float
    | .bool =>
      match String.ofList (cs.map Char.toLower) with
      | "true" => some (.bool true)
      | "false" => some (.bool false)
      | _ => none

/-- Why a file is no table. -/
inductive FileFault where
  | noData
  | surplusFields
  | misfit (column field : String)
  deriving Repr, DecidableEq

def FileFault.message : FileFault → String
  | .noData => "empty file"
  | .surplusFields => "found more fields than there are columns"
  | .misfit column field => "could not read '" ++ field ++ "' in column '" ++ column ++ "'"

/-- Names with those that occurred before made different. -/
def distinctNames (seen : List String) : List String → List String
  | [] => []
  | n :: rest =>
    let count := seen.count n
    let shown := if count = 0 then n else n ++ "_duplicated_" ++ Decimal.natText (count - 1)
    shown :: distinctNames (n :: seen) rest

/-- The rows of a table of some width. Empty lines count only where there is a single column, and
fields that are missing at the end of a row are absent. -/
def rowsOf (width : Nat) : List (List Field) → Except FileFault (List (List Field))
  | [] => .ok []
  | r :: rest => do
    let rest ← rowsOf width rest
    if r == [⟨"", false⟩] && 1 < width then return rest
    else if width < r.length then .error .surplusFields
    else return (r ++ List.replicate (width - r.length) ⟨"", false⟩) :: rest

/-- The column of some fields. -/
def columnOf (name : String) (fields : List Field) : Except FileFault Column := do
  let type := columnType ((fields.take inferenceRows).filterMap Field.type?)
  let cells ← fields.mapM fun f =>
    match f.cell? type with
    | some c => .ok c
    | none => .error (.misfit name f.text)
  return .computed name type cells false

/-- The table in a file. -/
def ofText (text : String) : Except FileFault Frame := do
  match records text with
  | [] => .error .noData
  | header :: lines =>
    let names := distinctNames [] (header.map Field.text)
    let rows ← rowsOf names.length lines
    let columns ← ((List.range names.length).zip names).mapM fun p =>
      columnOf p.2 (rows.map fun r => r.getD p.1 ⟨"", false⟩)
    return ⟨columns, rows.length⟩

end Enclave.Table
