import Enclave.Query.Function
import Enclave.Sql.Syntax

/-!
# The value of an expression

An expression over a table is a column, or a single value where it names no column or aggregates.
Columns are found by their names, letter by letter. A computed column has the name of the column
that stands first in its expression, unless it is given another.

`value` takes the answers of queries inside of expressions from a function, and a bound on the
nesting, which is never less than the number of tokens that the expression was read from.
-/

namespace Enclave.Query

open Table Sql

/-- The name of a single value without a column. -/
def constantName : String := "literal"

/-- The value of a constant. A number with a point is a decimal, all others are whole. -/
def constantColumn : Constant → Result Column
  | .null => .ok (.one constantName .null .null)
  | .bool b => .ok (.one constantName .bool (.bool b))
  | .text s => .ok (.one constantName .text (.text s))
  | .number digits =>
    let cs := digits.toList
    if cs.contains '.' then
      match Decimal.readFloat? cs with
      | some f => .ok (.one constantName .float (.float f))
      | none => .error (.badConstant digits)
    else
      match Decimal.readInt? cs with
      | some n =>
        if wrap n = n then .ok (.one constantName .int (.int n)) else .error (.badConstant digits)
      | none => .error (.badConstant digits)
  | .special => .error (.unsupported "a constant of this kind")

/-- The column of a name, perhaps with its table in front. -/
def namedColumn (f : Frame) : List String → Result Column
  | [name] =>
    match f.column? name with
    | some c => .ok c
    | none => .error (.unknownColumn name)
  | [table, name] =>
    match f.columnOf? table name with
    | some c => .ok (c.rename name)
    | none => .error (.unknownColumn name)
  | path => .error (.unsupported (String.intercalate "." path))

/-- A column of the cells that stand in some list. -/
def amongColumns (c : Column) (items : List Column) : Result Column :=
  if items.all fun i => comparable c.type i.type then
    let all := items.flatMap Column.cells
    .ok (mapCells .bool (fun x =>
      if x.isNull then .null else .bool (all.any fun y => x.order? y == some .eq)) c)
  else .error (.mismatch "IN")

/-- A test behind `IS`. -/
def truthTest (which : Truth) (negated : Bool) (c : Column) : Result Column :=
  let is (b : Bool) : Result Column := do
    negateIf negated (← compareColumns (· == .eq) c (.one constantName .bool (.bool b)))
  match which with
  | .null => .ok (mapCells .bool (fun x => .bool (x.isNull != negated)) c)
  | .isTrue => is true
  | .isFalse => is false
  | .unknown => .error (.unsupported "IS UNKNOWN")

/-- The value of a binary operation. -/
def binary (op : String) (a b : Column) : Result Column :=
  match comparison? op with
  | some test => compareColumns test a b
  | none =>
    match op with
    | "AND" => connect conj a b
    | "OR" => connect disj a b
    | "||" => .ok (joinTexts a b)
    | op => compute op a b

/-- Row by row, the value of the first branch whose condition holds. -/
def choose (branches : List (Column × Column)) (otherwise : Column) : Result Column :=
  match branches with
  | [] => .ok otherwise
  | (condition, value) :: rest => do
    let others ← choose rest otherwise
    if !isCondition condition.type then .error (.mismatch "CASE")
    else
      let type := value.type.join others.type
      let marked := zipCells type (fun t x => if truth? t == some true then x.widen type else .null)
        condition value
      let unmarked := zipCells type (fun t x => if truth? t == some true then .null else x.widen type)
        condition others
      -- At every row one of the two is absent or both are.
      return (fillFrom marked unmarked).rename value.name

/-- Whether an expression aggregates outside of queries of its own. The first argument bounds the
nesting. -/
def aggregates : Nat → Expr → Bool
  | 0, _ => false
  | n + 1, e =>
    match e with
    | .call [name] _ args _ =>
      aggregateNames.contains (Text.asciiUpper name) ||
        args.any fun
          | .expr e => aggregates n e
          | _ => false
    | .unary _ e | .truth e _ _ | .cast e _ _ | .bracketed e | .amongRows e _ _ => aggregates n e
    | .binary _ a b => aggregates n a || aggregates n b
    | .like _ a b _ _ => aggregates n a || aggregates n b
    | .among e es _ => aggregates n e || es.any (aggregates n)
    | .between e a b _ => aggregates n e || aggregates n a || aggregates n b
    | .choice e bs o =>
      e.any (aggregates n) || bs.any (fun b => aggregates n b.1 || aggregates n b.2) ||
        o.any (aggregates n)
    | .tuple es | .special _ es => es.any (aggregates n)
    | _ => false

/-- The keyword of a type. -/
def typeKeyword : TypeName → String
  | .known name => name
  | .custom path => Text.asciiUpper (String.intercalate "." path)
  | .interval => "INTERVAL"

/-- The functions that the grammar reads with a form of their own. -/
def specialFunctions : List String := ["TRIM", "SUBSTRING"]

/-- The value of an expression over a table. -/
def value (ask : Sql.Query → Result Frame) (f : Frame) : Nat → Expr → Result Column
  | 0, _ => .error (.unsupported "so deep an expression")
  | n + 1, e =>
    let go := value ask f n
    match e with
    | .name path => namedColumn f path
    | .constant c => constantColumn c
    | .bracketed e => go e
    | .unary "NOT" e => do negate (← go e)
    | .unary "-" e => do
      let c ← go e
      return (← compute "-" (.one constantName .int (.int 0)) c).rename c.name
    | .unary "+" e => go e
    | .unary op _ => .error (.unsupported op)
    | .binary op a b => do binary op (← go a) (← go b)
    | .truth e which negated => do truthTest which negated (← go e)
    | .among e items negated => do
      let c ← go e
      negateIf negated (← amongColumns c (← items.mapM go))
    | .amongRows e rows negated => do
      let c ← go e
      match (← ask rows).columns with
      | [items] => negateIf negated (← amongColumns c [items])
      | _ => .error .shape
    | .between e low high negated => do
      let c ← go e
      let above ← compareColumns Ordering.isGE c (← go low)
      let below ← compareColumns Ordering.isLE c (← go high)
      negateIf negated (← connect conj above below)
    | .like how e pattern escape negated => do
      let c ← go e
      match (how, escape, ← go pattern) with
      | ("LIKE", none, p) | ("ILIKE", none, p) =>
        match constantText? p with
        | some s => negateIf negated (← likeColumn (how == "ILIKE") s c)
        | none => .error (.unsupported "a pattern that is no constant")
      | _ => .error (.unsupported how)
    | .cast e type lenient => do
      match castType? (typeKeyword type) with
      | some t => castColumn t lenient (← go e)
      | none => .error (.unsupported ("a cast to " ++ typeKeyword type))
    | .call _ _ _ true => .error (.unsupported "OVER")
    | .call [name] distinct args false =>
      let name := Text.asciiUpper name
      let operand : Argument → Result Column
        | .expr e => go e
        | _ => .error (.unsupported name)
      match name, args with
      | "COUNT", [] | "COUNT", [.everything []] => .ok (.one "len" .int (.int f.height))
      | name, args => do
        let columns ← args.mapM operand
        if aggregateNames.contains name then
          match columns with
          | [c] => aggregate name distinct (c.spread f.height)
          | _ => .error (.unsupported name)
        else scalar name columns
    | .call path _ _ false => .error (.unsupported (String.intercalate "." path))
    | .choice operand branches otherwise => do
      let operand ← operand.mapM go
      let branches ← branches.mapM fun b => do
        let condition ← go b.1
        let condition ← match operand with
          | none => pure condition
          | some o => compareColumns (· == .eq) o condition
        return (condition, ← go b.2)
      let otherwise ← match otherwise with
        | some e => go e
        | none => pure (.one constantName .null .null)
      choose branches otherwise
    | .subquery rows => do
      match ← ask rows with
      | ⟨[c], 1⟩ => return { c with single := true, tables := [] }
      | _ => .error .shape
    | .special name parts =>
      if specialFunctions.contains name then do scalar name (← parts.mapM go)
      else .error (.unsupported name)
    | .tuple _ => .error (.unsupported "a tuple")
    | .anyRow _ _ => .error (.unsupported "EXISTS")

end Enclave.Query
