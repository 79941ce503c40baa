import Enclave.Query.Operation

/-!
# Functions of queries

Aggregates make one value of a column, the other functions work row by row. Absent cells do not
count for an aggregate. The sum of nothing is zero; a mean and an extreme of nothing are absent.
-/

namespace Enclave.Query

open Table

/-! ## Aggregates -/

/-- The cells that are there. -/
def present (c : Column) : List Cell := c.cells.filter fun x => !x.isNull

/-- The sum of a column. -/
def sum (c : Column) : Result Column :=
  match c.type with
  | .int | .bool | .null =>
    .ok (.one c.name .int (.int (wrap (((present c).filterMap Cell.int?).foldl (· + ·) 0))))
  | .float => .ok (.one c.name .float (.float (((present c).filterMap Cell.number?).foldl (· + ·) 0.0)))
  | .text => .error (.mismatch "SUM")

/-- The mean of a column; texts have none. -/
def mean (c : Column) : Column :=
  let xs := (present c).filterMap Cell.number?
  .one c.name .float
    (if xs.isEmpty then .null else .float (xs.foldl (· + ·) 0.0 / intFloat xs.length))

/-- The variance of a column around its mean; of fewer than two numbers there is none. -/
def variance (c : Column) : Column :=
  let xs := (present c).filterMap Cell.number?
  let n := intFloat xs.length
  let m := xs.foldl (· + ·) 0.0 / n
  .one c.name .float
    (if xs.length < 2 then .null
     else .float (xs.foldl (fun acc x => acc + (x - m) * (x - m)) 0.0 / (n - 1.0)))

/-- Whether a cell is no number though its type is. -/
def isUndefined : Cell → Bool
  | .float f => f.isNaN
  | _ => false

/-- The first cell in an order among those that are there. Undefined numbers only count among
themselves. -/
def extreme (before : Ordering → Bool) (c : Column) : Column :=
  let defined := (present c).filter fun x => !isUndefined x
  let xs := if defined.isEmpty then present c else defined
  let pick (best : Option Cell) (x : Cell) : Option Cell :=
    match best with
    | none => some x
    | some b => if ((x.order? b).map before).getD false then some x else some b
  .one c.name c.type ((xs.foldl pick none).getD .null)

/-- The number of different cells, absence being one of them. -/
def countDistinct (c : Column) : Column :=
  .one c.name .int (.int (groupRows (c.cells.map fun x => [x])).length)

/-- The names of aggregates. -/
def aggregateNames : List String :=
  ["COUNT", "SUM", "AVG", "MIN", "MAX", "FIRST", "LAST", "STDDEV", "STDEV", "STDDEV_SAMP",
   "STDEV_SAMP", "VARIANCE", "VAR", "VAR_SAMP"]

/-- An aggregate of a column. -/
def aggregate (name : String) (distinct : Bool) (c : Column) : Result Column :=
  match name with
  | "COUNT" => .ok (if distinct then countDistinct c else .one c.name .int (.int (present c).length))
  | "SUM" => sum c
  | "AVG" => .ok (mean c)
  | "MIN" => .ok (extreme Ordering.isLT c)
  | "MAX" => .ok (extreme Ordering.isGT c)
  | "FIRST" => .ok (.one c.name c.type (c.cells.headD .null))
  | "LAST" => .ok (.one c.name c.type (c.cells.getLast?.getD .null))
  | "VARIANCE" | "VAR" | "VAR_SAMP" => .ok (variance c)
  | "STDDEV" | "STDEV" | "STDDEV_SAMP" | "STDEV_SAMP" =>
    .ok (mapCells .float (fun
      | .float f => .float f.sqrt
      | x => x) (variance c))
  | other => .error (.unsupported other)

/-! ## Functions of rows -/

/-- A function of texts. -/
def onTexts (name : String) (type : CellType) (f : String → Cell) (c : Column) : Result Column :=
  if c.type = .text || c.type = .null then
    .ok (mapCells type (fun
      | .text s => f s
      | _ => .null) c)
  else .error (.mismatch name)

/-- A function of decimals, to which whole numbers are widened. -/
def onFloats (name : String) (f : Float → Float) (c : Column) : Result Column :=
  if c.type.isNumeric || c.type = .null then
    .ok (mapCells .float (fun x => (x.number?.map fun n => Cell.float (f n)).getD .null) c)
  else .error (.mismatch name)

/-- A function that leaves whole numbers whole. -/
def onNumbers (name : String) (f : Int → Int) (g : Float → Float) (c : Column) : Result Column :=
  match c.type with
  | .int => .ok (mapCells .int (fun x => (x.int?.map fun n => Cell.int (wrap (f n))).getD .null) c)
  | _ => onFloats name g c

/-- The whole number that a column is for all rows. -/
def constantInt? (c : Column) : Option Int :=
  if c.single then (c.cells.headD .null).int? else none

/-- The text that a column is for all rows. -/
def constantText? (c : Column) : Option String :=
  if c.single then
    match c.cells.headD .null with
    | .text s => some s
    | _ => none
  else none

/-- A decimal rounded to some places, halves away from zero. -/
def roundTo (places : Nat) (f : Float) : Float :=
  let scale := (10.0 : Float) ^ intFloat places
  (f * scale).round / scale

/-- A text with its characters in reverse. -/
def reversed (s : String) : String := String.ofList s.toList.reverse

/-- Cells with the absent ones replaced by those of another column. -/
def fillFrom (a b : Column) : Column :=
  let type := a.type.join b.type
  zipCells type (fun x y => if x.isNull then y.widen type else x.widen type) a b

/-- A part of a text: from a place counted from one, so many characters long. -/
def part (start length : Nat) (s : String) : String :=
  String.ofList ((s.toList.drop (start - 1)).take length)

/-- A function of the rows of some columns. -/
def scalar (name : String) (args : List Column) : Result Column :=
  match name, args with
  | "ABS", [c] => onNumbers name (fun n => n.natAbs) Float.abs c
  | "CEIL", [c] | "CEILING", [c] => onNumbers name id Float.ceil c
  | "FLOOR", [c] => onNumbers name id Float.floor c
  | "SIGN", [c] => onNumbers name Int.sign (fun f => if f > 0.0 then 1.0 else if f < 0.0 then -1.0 else f) c
  | "ROUND", [c] => onNumbers name id Float.round c
  | "ROUND", [c, places] =>
    match constantInt? places with
    | some n => if n < 0 then .error (.unsupported name) else onNumbers name id (roundTo n.toNat) c
    | none => .error (.unsupported name)
  | "SQRT", [c] => onFloats name Float.sqrt c
  | "EXP", [c] => onFloats name Float.exp c
  | "LN", [c] => onFloats name Float.log c
  | "POW", [c, e] | "POWER", [c, e] =>
    match constantInt? e with
    | some n => if n < 0 then .error (.unsupported name)
      else onNumbers name (· ^ n.toNat) (· ^ intFloat n) c
    | none => .error (.unsupported name)
  | "MOD", [a, b] => compute "%" a b
  | "LOWER", [c] => onTexts name .text (fun s => .text (Text.asciiLower s)) c
  | "UPPER", [c] => onTexts name .text (fun s => .text (Text.asciiUpper s)) c
  | "LENGTH", [c] | "CHAR_LENGTH", [c] | "CHARACTER_LENGTH", [c] =>
    onTexts name .int (fun s => .int s.length) c
  | "OCTET_LENGTH", [c] => onTexts name .int (fun s => .int s.utf8ByteSize) c
  | "TRIM", [c] => onTexts name .text (fun s => .text (Text.trim s)) c
  | "LTRIM", [c] => onTexts name .text (fun s => .text (String.ofList (Text.trimStart s.toList))) c
  | "RTRIM", [c] => onTexts name .text (fun s => .text (String.ofList (Text.trimEnd s.toList))) c
  | "REVERSE", [c] => onTexts name .text (fun s => .text (reversed s)) c
  | "STARTS_WITH", [c, p] =>
    match constantText? p with
    | some p => onTexts name .bool (fun s => .bool (p.toList.isPrefixOf s.toList)) c
    | none => .error (.unsupported name)
  | "ENDS_WITH", [c, p] =>
    match constantText? p with
    | some p => onTexts name .bool (fun s => .bool (p.toList.isSuffixOf s.toList)) c
    | none => .error (.unsupported name)
  | "REPLACE", [c, old, new] =>
    match constantText? old, constantText? new with
    | some old, some new => onTexts name .text (fun s => .text (s.replace old new)) c
    | _, _ => .error (.unsupported name)
  | "LEFT", [c, n] =>
    match constantInt? n with
    | some n => onTexts name .text (fun s => .text (part 1 n.toNat s)) c
    | none => .error (.unsupported name)
  | "RIGHT", [c, n] =>
    match constantInt? n with
    | some n => onTexts name .text (fun s => .text (part (s.length - n.toNat + 1) n.toNat s)) c
    | none => .error (.unsupported name)
  | "SUBSTR", [c, start] | "SUBSTRING", [c, start] =>
    match constantInt? start with
    | some n => onTexts name .text (fun s => .text (part n.toNat s.length s)) c
    | none => .error (.unsupported name)
  | "SUBSTR", [c, start, length] | "SUBSTRING", [c, start, length] =>
    match constantInt? start, constantInt? length with
    | some n, some k => onTexts name .text (fun s => .text (part n.toNat k.toNat s)) c
    | _, _ => .error (.unsupported name)
  | "CONCAT", c :: cs => .ok (cs.foldl joinTexts (mapCells .text (Cell.widen .text) c))
  | "COALESCE", c :: cs => .ok (cs.foldl fillFrom c)
  | "IFNULL", [a, b] => .ok (fillFrom a b)
  | "NULLIF", [a, b] =>
    if comparable a.type b.type then
      .ok (zipCells a.type (fun x y => if x.order? y == some .eq then .null else x) a b)
    else .error (.mismatch name)
  | other, _ => .error (.unsupported other)

end Enclave.Query
