import Enclave.Plan.Schema

/-!
# Query plans

A plan describes one query over one table without being a statement: what is selected, which rows,
how they are grouped and ordered, and how many are wanted. Plans come from outside and are checked
against a dataset before they are turned into a statement.
-/

namespace Enclave

/-- An aggregate over the rows of a group. -/
inductive Aggregate where
  | count
  | sum
  | avg
  | min
  | max
  deriving Repr, DecidableEq

namespace Aggregate

/-- The aggregate in a document. -/
def wire : Aggregate → String
  | .count => "count"
  | .sum => "sum"
  | .avg => "avg"
  | .min => "min"
  | .max => "max"

/-- The aggregate in a statement. -/
def keyword : Aggregate → String
  | .count => "COUNT"
  | .sum => "SUM"
  | .avg => "AVG"
  | .min => "MIN"
  | .max => "MAX"

/-- Whether the aggregate makes sense over a column of a type. -/
def accepts : Aggregate → ColumnType → Bool
  | .count, _ => true
  | .sum, t | .avg, t => t.isNumeric
  | .min, t | .max, t => t != .boolean

end Aggregate

/-- A comparison of a column with a literal. -/
inductive Comparison where
  | eq
  | ne
  | lt
  | le
  | gt
  | ge
  deriving Repr, DecidableEq

namespace Comparison

/-- The comparison in a document. -/
def wire : Comparison → String
  | .eq => "eq"
  | .ne => "ne"
  | .lt => "lt"
  | .le => "le"
  | .gt => "gt"
  | .ge => "ge"

/-- The comparison in a statement. -/
def symbol : Comparison → String
  | .eq => "="
  | .ne => "<>"
  | .lt => "<"
  | .le => "<="
  | .gt => ">"
  | .ge => ">="

end Comparison

/-- A constant in a plan. Integers fit into a signed 64-bit word. -/
inductive Literal where
  | null
  | bool (b : Bool)
  | int (n : Int)
  | float (f : Float)
  | text (s : String)
  deriving Repr, BEq, Inhabited

/-- A condition on rows. -/
inductive Condition where
  | compare (column : String) (how : Comparison) (value : Literal)
  | isNull (column : String)
  | isNotNull (column : String)
  | all (parts : List Condition)
  | any (parts : List Condition)
  | not (inner : Condition)
  deriving Repr, BEq, Inhabited

/-- One thing selected. -/
inductive Selection where
  | column (name : String) (label : Option String)
  /-- An aggregate; without a column it is over whole rows. -/
  | aggregate (how : Aggregate) (column : Option String) (label : Option String)
  deriving Repr, DecidableEq

namespace Selection

def label? : Selection → Option String
  | .column _ a => a
  | .aggregate _ _ a => a

def isAggregate : Selection → Bool
  | .aggregate _ _ _ => true
  | .column _ _ => false

end Selection

/-- A column or alias by which the answer is ordered. -/
structure SortKey where
  column : String
  descending : Bool
  deriving Repr, DecidableEq

/-- One query over one table. -/
structure Plan where
  table : String
  select : List Selection
  filter : Option Condition
  groupBy : List String
  orderBy : List SortKey
  limit : Option Nat
  deriving Repr, BEq

end Enclave
