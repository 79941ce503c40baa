import Enclave.Query.Expression

/-!
# The answer of a query

A query is answered from its tables: they are joined, rows are filtered, values are selected or
groups made, and the rows are put in order, made distinct, and bounded. The order may use columns
that are not selected, unless there are groups; a condition on groups applies to the values that
were selected.

Everything takes a bound on the nesting, which is never less than the number of tokens that the
query was read from.
-/

namespace Enclave.Query

open Table Sql

/-- Tables by their names. -/
abbrev Tables := List (String × Result Frame)

/-! ## Tables of a query -/

/-- The table of a name. -/
def tableOf (ts : Tables) (name : String) : Result Frame :=
  match ts.lookup name with
  | some r => r
  | none => .error (.unknownTable name)

/-- The columns that a condition of a join sets equal. Both have to be columns, one of each
table. -/
def joinKeys (l r : Frame) : Nat → Expr → Result (List (Column × Column))
  | 0, _ => .error (.unsupported "so deep an expression")
  | n + 1, e =>
    match e with
    | .bracketed e => joinKeys l r n e
    | .binary "AND" a b => do return (← joinKeys l r n a) ++ (← joinKeys l r n b)
    | .binary "=" (.name a) (.name b) =>
      match namedColumn l a, namedColumn r b with
      | .ok x, .ok y => .ok [(x, y)]
      | _, _ => do return [(← namedColumn l b, ← namedColumn r a)]
    | _ => .error (.unsupported "a join without equal columns")

/-- Whether two rows agree in all pairs of key columns. -/
def matching (keys : List (Array Cell × Array Cell)) (i j : Nat) : Bool :=
  keys.all fun k => (k.1.getD i .null).order? (k.2.getD j .null) == some .eq

/-- The pairs of rows that a join brings together. A row of the left table without a partner is
kept with the row behind the last of the right table, whose cells are all absent. -/
def joinRows (keepLeft : Bool) (l r : Frame) (keys : List (Column × Column)) :
    List (Nat × Nat) :=
  let keys := keys.map fun k => (k.1.cells.toArray, k.2.cells.toArray)
  l.rowNumbers.flatMap fun i =>
    match r.rowNumbers.filter (matching keys i) with
    | [] => if keepLeft then [(i, r.height)] else []
    | js => js.map fun j => (i, j)

/-- The joined table: the columns of the left table, and those of the right one under names of
their own. A column that both tables share as a key appears once. -/
def joinFrames (pairs : List (Nat × Nat)) (l r : Frame) (label : String)
    (keys : List (Column × Column)) : Frame :=
  let shared (c : Column) : Bool := keys.any fun k => k.1.name == c.name && k.2.name == c.name
  let left := (l.pick (pairs.map Prod.fst)).columns.map fun c =>
    if shared c then { c with tables := c.tables ++ (r.columns.flatMap Column.tables).eraseDups }
    else c
  let right := ((r.pick (pairs.map Prod.snd)).columns.filter fun c => !shared c).map fun c =>
    if (l.column? c.name).isSome then c.rename (c.name ++ ":" ++ label) else c
  ⟨left ++ right, pairs.length⟩

/-- The key columns of a join. -/
def conditionKeys (n : Nat) (l r : Frame) : JoinCondition → Result (List (Column × Column))
  | .on e => joinKeys l r n e
  | .sharing names => names.mapM fun name => do
    return (← namedColumn l [name], ← namedColumn r [name])
  | .natural => .error (.unsupported "NATURAL")
  | .none => .error (.unsupported "a join without a condition")

/-- Two tables joined. -/
def joinOf (n : Nat) (kind : JoinKind) (l r : Frame) (label : String) (condition : JoinCondition) :
    Result Frame :=
  match kind with
  | .cross => .ok (joinFrames (joinRows false l r []) l r label [])
  | .inner => do
    let keys ← conditionKeys n l r condition
    return joinFrames (joinRows false l r keys) l r label keys
  | .left => do
    let keys ← conditionKeys n l r condition
    return joinFrames (joinRows true l r keys) l r label keys
  | .leftSemi | .leftAnti => do
    let keys ← conditionKeys n l r condition
    let found := (joinRows false l r keys).map Prod.fst
    return l.keep (l.rowNumbers.map fun i => found.contains i == (kind = .leftSemi))
  | _ => .error (.unsupported "a join of this kind")

/-! ## Selections -/

/-- Refuses columns of one name. -/
def checkNames (cs : List Column) : Result (List Column) :=
  match Frame.repeated (cs.map Column.name) with
  | some name => .error (.repeatedColumn name)
  | none => .ok cs

/-- The columns of a selection over a table. -/
def project (eval : Expr → Result Column) (f : Frame) (items : List Item) :
    Result (List Column) := do
  let columns ← items.mapM fun
    | .expr e label => do
      let c ← eval e
      return [(label.map c.rename).getD c]
    | .everything [] false => return f.columns
    | .everything [table] false =>
      match f.columnsOf table with
      | [] => .error (.unknownTable table)
      | cs => return cs
    | .everything _ _ => .error (.unsupported "a selection of this kind")
  checkNames columns.flatten

/-- A key of an order over a table, and whether it descends. -/
def orderColumn (eval : Expr → Result Column) (height : Nat) : OrderKey → Result (Column × Bool)
  | .mk e descending none => do return ((← eval e).spread height, descending)
  | .mk _ _ (some _) => .error (.unsupported "NULLS")

/-- A table in order. `eval` is the value of an expression over that table. -/
def sorted (eval : Expr → Result Column) (order : List OrderKey) (f : Frame) : Result Frame :=
  if order.isEmpty then .ok f
  else do
    let keys ← order.mapM (orderColumn eval f.height)
    let rows := (Frame.mk (keys.map Prod.fst) f.height).rows
    return f.pick (sortRows (keys.map Prod.snd) rows)

/-- An expression that computes nothing of its own: a name, or the number of rows. -/
def isSimple : Expr → Bool
  | .name _ => true
  | .bracketed e => isSimple e
  | .call [name] _ [] false => Text.asciiUpper name == "COUNT"
  | .call [name] _ [.everything []] false => Text.asciiUpper name == "COUNT"
  | _ => false

/-- The value of an item over groups: an aggregate of each group, or a value over the keys. A
simple expression with a label is taken over the keys, so that a labelled number of rows is the
number of groups. -/
def groupedColumn (eval : Frame → Expr → Result Column) (n : Nat) (f keys : Frame)
    (groups : List (List Nat)) (labelled : Bool) (e : Expr) : Result Column := do
  if aggregates n e && !(labelled && isSimple e) then
    let shape ← eval (f.pick []) e
    let cells ← groups.mapM fun rows => do
      let c ← eval (f.pick rows) e
      if c.single then return c.cells.headD .null else .error .notGrouped
    return .computed shape.name shape.type cells false
  else
    return (← eval keys e).spread groups.length

/-- The expression of a key of a grouping; a number stands for an item of the selection. -/
def groupKey (items : List Item) : Expr → Result Expr
  | .constant (.number digits) =>
    match (Decimal.readInt? digits.toList).bind fun i => items[i.toNat - 1]? with
    | some (.expr e _) => if digits == "0" then .error (.badConstant digits) else .ok e
    | _ => .error (.badConstant digits)
  | .constant _ => .error (.unsupported "a constant as a group")
  | e => .ok e

/-- The keys of a grouping. All values that are not aggregated are keys when none are given. -/
def groupKeys (n : Nat) (items : List Item) : Grouping → Result (List Expr)
  | .by keys => keys.mapM (groupKey items)
  | .all => .ok (items.filterMap fun
      | .expr (.constant _) _ => none
      | .expr e _ => if aggregates n e then none else some e
      | .everything _ _ => none)

/-- The values of a grouped selection. -/
def grouped (eval : Frame → Expr → Result Column) (n : Nat) (f : Frame) (keys : List Expr)
    (items : List Item) : Result Frame := do
  let keyColumns ← keys.mapM (eval f)
  let keyColumns := keyColumns.map (Column.spread f.height)
  let groups := (groupRows (Frame.mk keyColumns f.height).rows).map Prod.snd
  let firsts := groups.filterMap List.head?
  let keyFrame := (Frame.mk keyColumns f.height).pick firsts
  let columns ← items.mapM fun
    | .expr e label => do
      let c ← groupedColumn eval n f keyFrame groups label.isSome e
      return (label.map c.rename).getD c
    | .everything _ _ => .error .notGrouped
  return ⟨← checkNames columns, groups.length⟩

/-- The rows that differ from all before them in some columns. -/
def distinctRows (f : Frame) (columns : List Column) : Frame :=
  f.pick ((groupRows (Frame.mk columns f.height).rows).filterMap fun g => g.2.head?)

/-- The values of a selection without groups, in order. -/
def plainSelection (eval : Frame → Expr → Result Column) (f : Frame) (items : List Item)
    (order : List OrderKey) : Result Frame := do
  let columns ← project (eval f) f items
  if order.isEmpty then return .ofColumns columns
  else
    let wide := f.withColumns columns
    let wide ← sorted (eval wide) order wide
    return ⟨columns.filterMap fun c => wide.column? c.name, wide.height⟩

/-- The rows that a selection keeps of equal ones. -/
def distinctSelection (f : Frame) : Distinctness → Result Frame
  | .all => .ok f
  | .distinct => .ok (distinctRows f f.columns)
  | .on keys => do
    let columns ← keys.mapM fun
      | .name path => namedColumn f path
      | _ => .error (.unsupported "DISTINCT ON of this kind")
    return distinctRows f columns

/-- The answer of a selection over its joined tables. -/
def selection (ask : Sql.Query → Result Frame) (n : Nat) (f : Frame) (order : List OrderKey)
    (kept : Distinctness) (items : List Item) (filter : Option Expr) (grouping : Grouping)
    (having : Option Expr) : Result Frame := do
  let eval (f : Frame) := value ask f n
  let f ← match filter with
    | some e => do pure (f.keep (← satisfied f.height (← eval f e)))
    | none => pure f
  let keys ← groupKeys n items grouping
  let f ←
    if keys.isEmpty then plainSelection eval f items order
    else do
      let g ← grouped eval n f keys items
      let g ← sorted (eval g) order g
      match having with
      | some e => do pure (g.keep (← satisfied g.height (← eval g e)))
      | none => pure g
  distinctSelection f kept

/-! ## Queries -/

/-- Two tables below each other: the columns have to agree in number, name and type. -/
def stack (a b : Frame) : Result Frame :=
  let agree (p : Column × Column) : Bool :=
    p.1.name == p.2.name && (p.1.type = p.2.type || p.1.type = .null || p.2.type = .null)
  if a.columns.length = b.columns.length && (a.columns.zip b.columns).all agree then
    .ok ⟨List.zipWith (fun c d =>
      { c with cells := c.cells ++ d.cells, type := c.type.join d.type }) a.columns b.columns,
      a.height + b.height⟩
  else .error .shape

/-- The number of a bound. -/
def boundOf : Expr → Result Nat
  | .constant (.number digits) =>
    match Decimal.readInt? digits.toList with
    | some n => .ok n.toNat
    | none => .error (.badConstant digits)
  | _ => .error (.unsupported "a bound that is no number")

/-- The rows of a table between two bounds. -/
def bounded (limit offset : Option Expr) (f : Frame) : Result Frame := do
  let start ← offset.mapM boundOf
  let count ← limit.mapM boundOf
  let f := (start.map f.drop).getD f
  return (count.map f.take).getD f

/-- The last name of a table, which marks its columns in a join. -/
def labelOf : Source → String
  | .table path _ label => label.getD (path.getLast?.getD "")
  | .derived _ _ label => label.getD ""
  | .nested _ label => label.getD ""
  | .special _ label => label.getD ""

mutual

/-- The answer of a query over some tables. -/
def answer : Nat → Tables → Sql.Query → Result Frame
  | 0, _, _ => .error (.unsupported "so deep a query")
  | n + 1, ts, .mk named body order limit offset _ => do
    let ts := named.foldl (fun ts (q : NamedQuery) =>
      match q with
      | .mk name rows => (name, answer n ts rows) :: ts) ts
    bounded limit offset (← bodyAnswer n ts order body)

/-- The answer of a query without its bounds. The parts of a combination are put in order before
they are combined. -/
def bodyAnswer : Nat → Tables → List OrderKey → Body → Result Frame
  | 0, _, _, _ => .error (.unsupported "so deep a query")
  | n + 1, ts, order, body =>
    match body with
    | .select (.mk kept items tables filter grouping having _) => do
      let f ← match tables with
        | [] => pure Frame.empty
        | [t] => joinedTable n ts t
        | _ => .error (.unsupported "more than one table")
      selection (answer n ts) n f order kept items filter grouping having
    | .combined .union quantifier left right => do
      let f ← stack (← bodyAnswer n ts order left) (← bodyAnswer n ts order right)
      match quantifier with
      | .all => return f
      | .plain | .distinct => return distinctRows f f.columns
      | .special => .error (.unsupported "UNION of this kind")
    | .combined _ _ _ _ => .error (.unsupported "EXCEPT and INTERSECT")
    | .nested q => answer n ts q
    | .values _ => .error (.unsupported "VALUES")
    | .table _ => .error (.unsupported "TABLE")

/-- A table of a query. -/
def sourceTable : Nat → Tables → Source → Result Frame
  | 0, _, _ => .error (.unsupported "so deep a query")
  | n + 1, ts, source =>
    match source with
    | .table [name] none label => do
      return (← tableOf ts name).named ((label.map fun l => [l, name]).getD [name])
    | .derived rows _ (some label) => do return (← answer n ts rows).named [label]
    | .nested t _ => joinedTable n ts t
    | _ => .error (.unsupported "a table of this kind")

/-- Joined tables of a query. -/
def joinedTable : Nat → Tables → Joined → Result Frame
  | 0, _, _ => .error (.unsupported "so deep a query")
  | n + 1, ts, .mk first joins => do
    let start ← sourceTable n ts first
    joins.foldlM (fun l (j : Join) =>
      match j with
      | .mk kind t condition => do
        joinOf n kind l (← sourceTable n ts t) (labelOf t) condition) start

end

end Enclave.Query
