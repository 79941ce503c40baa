import Enclave.Table.Frame
import Enclave.Table.Delimited
import Enclave.Text.Blank

/-!
# Operations on columns

Operators work cell by cell on columns of one height; a single value goes with every row. Whether
an operation makes sense is decided by the types of the columns, not by the cells that happen to be
there. An absent cell makes the result absent, except where logic decides without it.
-/

namespace Enclave.Query

open Table

/-- Why a query has no answer. -/
inductive Fault where
  | unknownColumn (name : String)
  | unknownTable (name : String)
  | repeatedColumn (name : String)
  | mismatch (operation : String)
  | notGrouped
  | badConstant (digits : String)
  | notCastable (text : String)
  | unsupported (what : String)
  | notParsed
  | shape
  | file (fault : FileFault)
  deriving Repr, DecidableEq

/-- The wording of a fault. -/
def Fault.message : Fault → String
  | .unknownColumn name => "column not found: " ++ name
  | .unknownTable name => "table not found: " ++ name
  | .repeatedColumn name => "column '" ++ name ++ "' occurs more than once"
  | .mismatch operation => "the operands of " ++ operation ++ " do not go together"
  | .notGrouped => "a selected value is neither grouped nor aggregated"
  | .badConstant digits => "cannot read the number " ++ digits
  | .notCastable text => "cannot cast '" ++ text ++ "'"
  | .unsupported what => what ++ " is not supported"
  | .notParsed => "the statement cannot be parsed"
  | .shape => "tables of different shapes"
  | .file fault => fault.message

/-- The result of a part of a query. -/
abbrev Result (α : Type) := Except Fault α

/-- A column from another, cell by cell. -/
def mapCells (type : CellType) (f : Cell → Cell) (c : Column) : Column :=
  .computed c.name type (c.cells.map f) c.single

/-- A column from two others, cell by cell, under the name of the first. -/
def zipCells (type : CellType) (f : Cell → Cell → Cell) (a b : Column) : Column :=
  let cells :=
    if a.single then b.cells.map (f (a.cells.headD .null))
    else if b.single then a.cells.map fun x => f x (b.cells.headD .null)
    else List.zipWith f a.cells b.cells
  .computed a.name type cells (a.single && b.single)

/-! ## Comparison -/

/-- Whether columns of two types can be compared. -/
def comparable (a b : CellType) : Bool :=
  a = .null || b = .null || (a = .text) == (b = .text)

/-- What a comparison asks of the order of its operands; `none` for what is no comparison. -/
def comparison? (op : String) : Option (Ordering → Bool) :=
  match op with
  | "=" | "==" => some (· == .eq)
  | "<>" => some (· != .eq)
  | "<" => some Ordering.isLT
  | "<=" => some Ordering.isLE
  | ">" => some Ordering.isGT
  | ">=" => some Ordering.isGE
  | _ => none

/-- Compares two columns. -/
def compareColumns (test : Ordering → Bool) (a b : Column) : Result Column :=
  if comparable a.type b.type then
    .ok (zipCells .bool (fun x y => ((x.order? y).map fun o => Cell.bool (test o)).getD .null) a b)
  else .error (.mismatch "a comparison")

/-! ## Logic -/

/-- The truth value of a cell. -/
def truth? : Cell → Option Bool
  | .bool b => some b
  | _ => none

def ofTruth : Option Bool → Cell
  | some b => .bool b
  | none => .null

/-- Conjunction: false as soon as one side is. -/
def conj (a b : Option Bool) : Option Bool :=
  match a, b with
  | some false, _ => some false
  | _, some false => some false
  | some true, some true => some true
  | _, _ => none

/-- Disjunction: true as soon as one side is. -/
def disj (a b : Option Bool) : Option Bool :=
  match a, b with
  | some true, _ => some true
  | _, some true => some true
  | some false, some false => some false
  | _, _ => none

/-- A type whose columns are conditions. -/
def isCondition (t : CellType) : Bool := t = .bool || t = .null

/-- Joins two conditions. -/
def connect (f : Option Bool → Option Bool → Option Bool) (a b : Column) : Result Column :=
  if isCondition a.type && isCondition b.type then
    .ok (zipCells .bool (fun x y => ofTruth (f (truth? x) (truth? y))) a b)
  else .error (.mismatch "a condition")

/-- The opposite of a condition. -/
def negate (a : Column) : Result Column :=
  if isCondition a.type then .ok (mapCells .bool (fun x => ofTruth ((truth? x).map not)) a)
  else .error (.mismatch "NOT")

/-- A condition, or its opposite. -/
def negateIf (negated : Bool) (a : Column) : Result Column :=
  if negated then negate a else .ok a

/-- Which rows satisfy a condition; an absent truth value does not. -/
def satisfied (height : Nat) (c : Column) : Result (List Bool) :=
  if isCondition c.type then .ok ((c.spread height).cells.map fun x => truth? x == some true)
  else .error (.mismatch "a filter")

/-! ## Arithmetic -/

/-- An operation on whole numbers; division by zero has no result. -/
def intOperation? (op : String) : Option (Int → Int → Option Int) :=
  match op with
  | "+" => some fun a b => some (a + b)
  | "-" => some fun a b => some (a - b)
  | "*" => some fun a b => some (a * b)
  | "/" => some fun a b => if b = 0 then none else some (a.tdiv b)
  | "//" => some fun a b => if b = 0 then none else some (a.fdiv b)
  | "%" => some fun a b => if b = 0 then none else some (a.fmod b)
  | _ => none

/-- An operation on decimals. -/
def floatOperation? (op : String) : Option (Float → Float → Float) :=
  match op with
  | "+" => some (· + ·)
  | "-" => some (· - ·)
  | "*" => some (· * ·)
  | "/" => some (· / ·)
  | "//" => some fun a b => (a / b).floor
  | "%" => some fun a b => a - b * (a / b).floor
  | _ => none

/-- Computes with two columns of numbers; texts can only be added. -/
def compute (op : String) (a b : Column) : Result Column :=
  let joint := a.type.join b.type
  match joint, intOperation? op, floatOperation? op with
  | .int, some f, _ =>
    .ok (zipCells .int (fun x y =>
      match x.int?, y.int? with
      | some m, some n => ((f m n).map fun r => Cell.int (wrap r)).getD .null
      | _, _ => .null) a b)
  | .float, _, some f =>
    .ok (zipCells .float (fun x y =>
      match x.number?, y.number? with
      | some m, some n => .float (f m n)
      | _, _ => .null) a b)
  | .null, some _, _ => .ok (zipCells .null (fun _ _ => .null) a b)
  | .text, _, _ =>
    if op = "+" && a.type = .text && b.type = .text then
      .ok (zipCells .text (fun x y =>
        match x, y with
        | .text s, .text t => .text (s ++ t)
        | _, _ => .null) a b)
    else .error (.mismatch op)
  | _, _, _ => .error (.mismatch op)

/-- Texts joined; other values are written as texts first. -/
def joinTexts (a b : Column) : Column :=
  zipCells .text (fun x y =>
    match x.text?, y.text? with
    | some s, some t => .text (s ++ t)
    | _, _ => .null) a b

/-! ## Patterns -/

/-- Whether a text fits a pattern, in which a percent sign stands for any text and an underscore
for any character. The first argument bounds the steps. -/
def fits : Nat → List Char → List Char → Bool
  | 0, _, _ => false
  | _ + 1, [], cs => cs.isEmpty
  | fuel + 1, '%' :: ps, cs =>
    fits fuel ps cs ||
      (match cs with
       | [] => false
       | _ :: rest => fits fuel ('%' :: ps) rest)
  | fuel + 1, p :: ps, c :: cs => (p = '_' || p = c) && fits fuel ps cs
  | _ + 1, _ :: _, [] => false

/-- Whether a text fits a pattern. -/
def like (pattern text : String) : Bool :=
  fits (pattern.length + text.length + 1) pattern.toList text.toList

/-- Tests texts against a pattern. -/
def likeColumn (ignoreCase : Bool) (pattern : String) (a : Column) : Result Column :=
  let fold (s : String) : String := if ignoreCase then Text.asciiLower s else s
  if a.type = .text || a.type = .null then
    .ok (mapCells .bool (fun
      | .text s => .bool (like (fold pattern) (fold s))
      | _ => .null) a)
  else .error (.mismatch "LIKE")

/-! ## Casts -/

/-- The type of cells for a type of the grammar. -/
def castType? (keyword : String) : Option CellType :=
  if ["INT", "INTEGER", "BIGINT", "SMALLINT", "TINYINT", "MEDIUMINT", "INT2", "INT4", "INT8",
      "INT64"].contains keyword then some .int
  else if ["FLOAT", "DOUBLE", "DOUBLE PRECISION", "REAL", "FLOAT4", "FLOAT8", "FLOAT64", "NUMERIC",
      "DECIMAL"].contains keyword then some .float
  else if ["TEXT", "VARCHAR", "CHAR", "STRING", "CHARACTER", "CHARACTER VARYING",
      "CHAR VARYING"].contains keyword then some .text
  else if ["BOOLEAN", "BOOL"].contains keyword then some .bool
  else none

/-- A cell as one of another type; none when it cannot be one. -/
def castCell? (t : CellType) (c : Cell) : Option Cell :=
  match t, c with
  | _, .null => some .null
  | .text, c => c.text?.map Cell.text
  | .int, .float f =>
    if f.isNaN || f.isInf then none
    else
      let n := f.toInt64.toInt
      some (.int n)
  | .int, .bool b => some (.int (if b then 1 else 0))
  | .bool, .int n => some (.bool (n ≠ 0))
  | .bool, .float f => some (.bool (f != 0.0))
  | t, .text s => (Table.Field.mk s true).cell? t
  | t, c => some (c.widen t)

/-- A column of another type. A lenient cast leaves out what cannot be cast. -/
def castColumn (t : CellType) (lenient : Bool) (c : Column) : Result Column := do
  let cells ← c.cells.mapM fun x =>
    match castCell? t x with
    | some y => .ok y
    | none => if lenient then .ok .null else .error (.notCastable (x.text?.getD ""))
  return .computed c.name t cells c.single

end Enclave.Query
