import Enclave.Sql.Keyword

/-!
# Parsed queries

What the grammar makes of a statement. Forms that every evaluator of queries knows have a
constructor of their own; forms that are only recognised are `special`, under the keyword that
introduces them.
-/

namespace Enclave.Sql

/-- The type named in a cast or in front of a text. -/
inductive TypeName where
  | interval
  /-- A type of the grammar, by its keywords. -/
  | known (name : String)
  | custom (path : List String)
  deriving Repr, DecidableEq, Inhabited

/-- A constant. -/
inductive Constant where
  | null
  | bool (b : Bool)
  | number (digits : String)
  | text (s : String)
  /-- A constant that is only recognised. -/
  | special
  deriving Repr, DecidableEq, Inhabited

/-- What a value is compared with behind `IS`. -/
inductive Truth where
  | null
  | isTrue
  | isFalse
  | unknown
  deriving Repr, DecidableEq

/-- How two tables are joined. -/
inductive JoinKind where
  | inner
  | left
  | right
  | full
  | leftSemi
  | rightSemi
  | leftAnti
  | rightAnti
  | cross
  | apply
  deriving Repr, DecidableEq

/-- How two queries are combined. -/
inductive SetOperator where
  | union
  | except
  | intersect
  deriving Repr, DecidableEq

/-- What is kept of the rows of a combination. -/
inductive SetQuantifier where
  | plain
  | all
  | distinct
  | special
  deriving Repr, DecidableEq

mutual

/-- An expression. -/
inductive Expr where
  | name (path : List String)
  | constant (c : Constant)
  | unary (op : String) (operand : Expr)
  | binary (op : String) (left right : Expr)
  | truth (operand : Expr) (which : Truth) (negated : Bool)
  | among (operand : Expr) (items : List Expr) (negated : Bool)
  | amongRows (operand : Expr) (rows : Query) (negated : Bool)
  | between (operand low high : Expr) (negated : Bool)
  | like (how : String) (operand pattern : Expr) (escape : Option String) (negated : Bool)
  | cast (operand : Expr) (type : TypeName) (lenient : Bool)
  | call (name : List String) (distinct : Bool) (args : List Argument) (windowed : Bool)
  | choice (operand : Option Expr) (branches : List (Expr × Expr)) (otherwise : Option Expr)
  | bracketed (inner : Expr)
  | tuple (items : List Expr)
  | subquery (rows : Query)
  | anyRow (rows : Query) (negated : Bool)
  | special (keyword : String) (parts : List Expr)

/-- An argument of a function. -/
inductive Argument where
  | expr (e : Expr)
  | everything (table : List String)
  | named (name : String) (value : Argument)

/-- An item of a selection. -/
inductive Item where
  | expr (e : Expr) (label : Option String)
  /-- All columns of a table, or of all tables; `changed` when columns are left out or replaced. -/
  | everything (table : List String) (changed : Bool)

/-- A key of an order. -/
inductive OrderKey where
  | mk (e : Expr) (descending : Bool) (nullsFirst : Option Bool)

/-- A table of a query. -/
inductive Source where
  | table (path : List String) (args : Option (List Argument)) (label : Option String)
  | derived (rows : Query) (lateral : Bool) (label : Option String)
  | nested (tables : Joined) (label : Option String)
  | special (keyword : String) (label : Option String)

/-- The condition of a join. -/
inductive JoinCondition where
  | none
  | on (e : Expr)
  | sharing (columns : List String)
  | natural

/-- A join with a further table. -/
inductive Join where
  | mk (kind : JoinKind) (table : Source) (condition : JoinCondition)

/-- A table and those joined to it. -/
inductive Joined where
  | mk (first : Source) (joins : List Join)

/-- What rows are grouped by. -/
inductive Grouping where
  | by (keys : List Expr)
  | all

/-- Which rows are kept of equal ones. -/
inductive Distinctness where
  | all
  | distinct
  | on (keys : List Expr)

/-- A selection from tables. `specials` are the clauses that are only recognised. -/
inductive Select where
  | mk (distinct : Distinctness) (items : List Item) (tables : List Joined)
      (filter : Option Expr) (grouping : Grouping) (having : Option Expr)
      (specials : List String)

/-- A query without its order and bounds. -/
inductive Body where
  | select (s : Select)
  | combined (op : SetOperator) (quantifier : SetQuantifier) (left right : Body)
  | nested (q : Query)
  | values (rows : List (List Expr))
  | table (path : List String)

/-- A named query in front of another. -/
inductive NamedQuery where
  | mk (name : String) (rows : Query)

/-- A query. -/
inductive Query where
  | mk (named : List NamedQuery) (body : Body) (order : List OrderKey) (limit : Option Expr)
      (offset : Option Expr) (specials : List String)

end

/-- A statement. -/
inductive Statement where
  | query (q : Query)
  /-- A statement that explains another. -/
  | explanation
  | other (keyword : String)

instance : Inhabited Expr := ⟨.constant .null⟩
instance : Inhabited Select := ⟨.mk .all [] [] none (.by []) none []⟩
instance : Inhabited Body := ⟨.select default⟩
instance : Inhabited Query := ⟨.mk [] default [] none none []⟩

end Enclave.Sql
