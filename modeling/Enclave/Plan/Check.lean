import Enclave.Plan.Basic
import Enclave.Text.Blank

/-!
# Plans that fit a dataset

`Plan.check` accepts a plan whose table and columns exist, whose aggregates suit their columns,
whose plain columns are grouped where rows are grouped at all, and whose limit lies under the
ceiling. The first thing that does not fit is reported with the place in the plan where it stands,
such as `select[2].column`.
-/

namespace Enclave

open Decimal (natText)

/-- A plan that does not hold up. -/
def misplaced {α : Type} (place reason : String) : Outcome α := .error (.invalid place reason)

/-- The place of an item of a list. -/
def placeOf (list : String) (i : Nat) : String := list ++ "[" ++ natText i ++ "]"

/-- The column of a name, which has to exist. -/
def Table.require (t : Table) (name place : String) : Outcome ColumnSchema :=
  match t.column? name with
  | some c => .ok c
  | none => misplaced place ("column '" ++ name ++ "' not found on table '" ++ t.name ++ "'")

/-- Checks the items of a list in order, each with its number. -/
def checkEach {α : Type} (check : Nat → α → Outcome Unit) : Nat → List α → Outcome Unit
  | _, [] => .ok ()
  | i, a :: rest =>
    match check i a with
    | .error e => .error e
    | .ok _ => checkEach check (i + 1) rest

namespace Condition

mutual

/-- Checks that every column of a condition exists. -/
def check (t : Table) (place : String) : Condition → Outcome Unit
  | .compare column _ _ => (t.require column (place ++ ".column")).map fun _ => ()
  | .isNull column => (t.require column (place ++ ".column")).map fun _ => ()
  | .isNotNull column => (t.require column (place ++ ".column")).map fun _ => ()
  | .all parts => checkParts t (place ++ ".all") 0 parts
  | .any parts => checkParts t (place ++ ".any") 0 parts
  | .not inner => check t (place ++ ".inner") inner

def checkParts (t : Table) (list : String) (i : Nat) : List Condition → Outcome Unit
  | [] => .ok ()
  | p :: ps =>
    match check t (placeOf list i) p with
    | .error e => .error e
    | .ok _ => checkParts t list (i + 1) ps

end

end Condition

/-- An alias has to show something. -/
def checkAlias (place : String) : Option String → Outcome Unit
  | some a => if Text.isBlankText a then misplaced (place ++ ".alias") "alias must not be empty"
      else .ok ()
  | none => .ok ()

namespace Plan

/-- Whether the rows of the answer stand for groups of rows. -/
def isGrouped (p : Plan) : Bool := !p.groupBy.isEmpty || p.select.any Selection.isAggregate

/-- Checks one selection. -/
def checkSelection (p : Plan) (t : Table) (i : Nat) (s : Selection) : Outcome Unit := do
  let place := placeOf "select" i
  checkAlias place s.label?
  match s with
  | .column name _ =>
    let _ ← t.require name (place ++ ".column")
    if p.isGrouped && !p.groupBy.contains name then
      misplaced (place ++ ".column") ("column '" ++ name ++ "' must appear in group_by")
    else .ok ()
  | .aggregate _ none _ => .ok ()
  | .aggregate how (some name) _ =>
    let c ← t.require name (place ++ ".column")
    if how.accepts c.type then .ok ()
    else
      misplaced (place ++ ".column")
        (how.keyword ++ " is not applicable to " ++ c.type.label ++ " column '" ++ name ++ "'")

/-- Checks one key of the order: an alias of the selection or a column. -/
def checkSortKey (p : Plan) (t : Table) (i : Nat) (k : SortKey) : Outcome Unit :=
  if p.select.any (fun s => s.label? == some k.column) || (t.column? k.column).isSome then .ok ()
  else misplaced (placeOf "order_by" i ++ ".column")
    ("'" ++ k.column ++ "' is neither a column nor a selection alias")

/-- Checks the limit. -/
def checkLimit (maxLimit : Nat) : Option Nat → Outcome Unit
  | some n =>
    if n = 0 ∨ maxLimit < n then
      misplaced "limit" ("limit " ++ natText n ++ " outside 1..=" ++ natText maxLimit)
    else .ok ()
  | none => .ok ()

/-- Accepts a plan that fits the dataset. -/
def check (p : Plan) (d : Dataset) (maxLimit : Nat) : Outcome Unit := do
  match d.table? p.table with
  | none => misplaced "table" ("table '" ++ p.table ++ "' not found in dataset '" ++ d.id ++ "'")
  | some t =>
    if p.select.isEmpty then misplaced "select" "at least one output expression is required"
    checkEach (p.checkSelection t) 0 p.select
    match p.filter with
    | some c => c.check t "filter"
    | none => pure ()
    checkEach (fun i name => (t.require name (placeOf "group_by" i)).map fun _ => ()) 0 p.groupBy
    checkEach (p.checkSortKey t) 0 p.orderBy
    checkLimit maxLimit p.limit

end Plan

end Enclave
