import Enclave.Decimal.Notation
import Enclave.Json.Value
import Enclave.Settings.Limits

/-!
# Cells

The values in tables: truth values, whole numbers of 64 bits, decimals and texts, and the absence
of a value. Cells of one type are in a total order: false before true, no number behind all
numbers, texts by their code points. A comparison with an absent value has no answer.
-/

namespace Enclave.Table

/-- The type of a column. A column of type `null` holds no values. -/
inductive CellType where
  | null
  | bool
  | int
  | float
  | text
  deriving Repr, DecidableEq

/-- A value, or none. -/
inductive Cell where
  | null
  | bool (b : Bool)
  | int (n : Int)
  | float (f : Float)
  | text (s : String)
  deriving Repr, Inhabited

/-- A whole number brought into the range of 64 bits with a sign. -/
def wrap (n : Int) : Int := Int.bmod n (2 ^ 64)

/-- A whole number as a decimal. -/
def intFloat (n : Int) : Float := Float.ofInt n

/-- The order of decimals; what is no number comes last and is equal to itself. -/
def compareFloats (a b : Float) : Ordering :=
  if a.isNaN then (if b.isNaN then .eq else .gt)
  else if b.isNaN then .lt
  else if a < b then .lt
  else if b < a then .gt
  else .eq

namespace Cell

def isNull : Cell → Bool
  | .null => true
  | _ => false

/-- The number of a cell, truth values counting as zero and one. -/
def number? : Cell → Option Float
  | .int n => some (intFloat n)
  | .float f => some f
  | .bool b => some (if b then 1.0 else 0.0)
  | _ => none

/-- The whole number of a cell, truth values counting as zero and one. -/
def int? : Cell → Option Int
  | .int n => some n
  | .bool b => some (if b then 1 else 0)
  | _ => none

/-- The order of two cells; `none` when one is absent or they cannot be compared. -/
def order? (a b : Cell) : Option Ordering :=
  match a, b with
  | .text s, .text t => some (compare s t)
  | a, b =>
    match a.int?, b.int? with
    | some m, some n => some (compare m n)
    | _, _ =>
      match a.number?, b.number? with
      | some x, some y => some (compareFloats x y)
      | _, _ => none

/-- Whether two cells are the same for grouping: absent cells are. -/
def same (a b : Cell) : Bool :=
  match a, b with
  | .null, .null => true
  | a, b => a.order? b == some .eq

/-- The order of two cells in a sort: absent cells come first, whatever the direction. -/
def sortOrder (descending : Bool) (a b : Cell) : Ordering :=
  match a.isNull, b.isNull with
  | true, true => .eq
  | true, false => .lt
  | false, true => .gt
  | false, false =>
    let o := (a.order? b).getD .eq
    if descending then o.swap else o

/-- How decimals are written into texts. -/
def floatNotation : Decimal.Notation := ⟨.toEven, some (-5), some 15, true, false, 1⟩

/-- The text of a cell; none for an absent one. -/
def text? : Cell → Option String
  | .null => none
  | .bool b => some (if b then "true" else "false")
  | .int n => some (Decimal.intText n)
  | .float f => some (floatNotation.render f)
  | .text s => some s

/-- A cell in a result. What is no finite number is shown as absent. -/
def toJson : Cell → Json.Value
  | .null => .null
  | .bool b => .bool b
  | .int n => .int n
  | .float f => Limits.floatJson f
  | .text s => .str s

/-- A cell as one of a wider type. -/
def widen (t : CellType) (c : Cell) : Cell :=
  match t, c with
  | .float, .int n => .float (intFloat n)
  | .float, .bool b => .float (if b then 1.0 else 0.0)
  | .int, .bool b => .int (if b then 1 else 0)
  | .text, c => (c.text?.map Cell.text).getD .null
  | _, c => c

end Cell

/-- The narrowest type to which two types widen. -/
def CellType.join (a b : CellType) : CellType :=
  match a, b with
  | .null, t => t
  | t, .null => t
  | .text, _ => .text
  | _, .text => .text
  | .float, _ => .float
  | _, .float => .float
  | .int, _ => .int
  | _, .int => .int
  | .bool, .bool => .bool

/-- A type of numbers. -/
def CellType.isNumeric : CellType → Bool
  | .int | .float => true
  | _ => false

end Enclave.Table
