import Enclave.Sql.Grammar.Expression
import Enclave.Text.Quoted

/-!
# The grammar of queries

A query is a selection, a list of rows, or a combination of queries, with named queries in front
and an order and bounds behind. Its tables are names, calls, queries in brackets and joins of all
of these.
-/

namespace Enclave.Sql.Parser

/-! ## Tables -/

/-- A query as a table, behind its opening bracket. -/
def derivedTable (r : Rules) (lateral : Bool) : Parser Source := do
  let q ← r.query
  expect ")"
  return .derived q lateral (← tableLabel)

/-- Whether a table has a label already. -/
def Source.hasLabel : Source → Bool
  | .table _ _ l => l.isSome
  | .derived _ _ l => l.isSome
  | .nested _ l => l.isSome
  | .special _ l => l.isSome

/-- A table under a label. -/
def Source.labelled (l : String) : Source → Source
  | .table p args _ => .table p args (some l)
  | .derived q lateral _ => .derived q lateral (some l)
  | .nested t _ => .nested t (some l)
  | .special k _ => .special k (some l)

/-- Tables in brackets that are no query: a join, or a single table which may be labelled inside
or outside of the brackets. -/
def nestedTables (r : Rules) : Parser Source := do
  let tables ← r.tables
  expect ")"
  let outer ← tableLabel
  match tables with
  | .mk first [] =>
    match first with
    | .nested _ _ => return .nested tables outer
    | _ =>
      match outer with
      | none => return first
      | some l => if Source.hasLabel first then fail else return Source.labelled l first
  | _ => return .nested tables outer

/-- The rest of a table turned by its values. -/
def pivot (r : Rules) : Parser (Option String) := do
  let interval := Parser.interval (operandRule r 1) (operator r)
  bracketed do
    match ← next with
    | .word w _ =>
      let _ ← call r interval [w]
    | _ => fail
    expectKeyword "FOR"
    let _ ← path
    expectKeyword "IN"
    let _ ← bracketed (list constant)
  tableLabel

/-- The rest of a table turned by its columns. -/
def unpivot : Parser (Option String) := do
  bracketed do
    let _ ← name
    expectKeyword "FOR"
    let _ ← name
    expectKeyword "IN"
    let _ ← nameList
  tableLabel

/-- Turned tables behind a table. -/
def pivots (r : Rules) (s : Source) : Parser Source := do
  let turned ← many do
    match ← oneOf ["PIVOT", "UNPIVOT"] with
    | some "PIVOT" => some <$> pivot r
    | some _ => some <$> unpivot
    | none => return none
  match turned.getLast? with
  | some l => return .special "PIVOT" l
  | none => return s

/-- A table by its name, perhaps with arguments and hints. -/
def namedTable (r : Rules) : Parser Source := do
  let p ← path
  if ← keyword "PARTITION" then
    let _ ← nameList
  let args ← only (← symbol "(") (arguments r)
  let l ← tableLabel
  let hinted := (← peekKeyword) == "WITH" && (← peekAt 1) == some (.symbol "(")
  if hinted then
    let _ ← next
    let _ ← bracketed (exprs r)
  pivots r (.table p args l)

/-- The elements of lists as a table. -/
def unnestTable (r : Rules) : Parser Source := do
  let _ ← bracketed (exprs r)
  let l ← tableLabel
  if ← keyword "WITH" then
    if ← keyword "OFFSET" then
      let _ ← label reservedBehindItem
  return .special "UNNEST" l

/-- A table of a query. -/
def table (r : Rules) : Parser Source := do
  if ← keyword "LATERAL" then
    if ← symbol "(" then derivedTable r true
    else
      let _ ← path
      expect "("
      let _ ← arguments r
      return .special "LATERAL" (← tableLabel)
  else if ← keyword "TABLE" then
    let _ ← bracketed (expr r)
    return .special "TABLE" (← tableLabel)
  else if ← symbol "(" then
    match ← attempt (derivedTable r false) with
    | some s => return s
    | none => nestedTables r
  else if ← keyword "UNNEST" then unnestTable r
  else namedTable r

/-- The kind of a join by the words in front of its table; nothing where no join begins. -/
def joinKind : Parser (Option JoinKind) := do
  let side (outer semi anti : JoinKind) : Parser (Option JoinKind) := do
    let _ ← next
    match ← expectOneOf ["OUTER", "SEMI", "ANTI", "JOIN"] with
    | "OUTER" => expectKeyword "JOIN"; return some outer
    | "SEMI" => expectKeyword "JOIN"; return some semi
    | "ANTI" => expectKeyword "JOIN"; return some anti
    | _ => return some outer
  match ← peekKeyword with
  | "INNER" => expectKeywords ["INNER", "JOIN"]; return some .inner
  | "JOIN" => expectKeyword "JOIN"; return some .inner
  | "LEFT" => side .left .leftSemi .leftAnti
  | "RIGHT" => side .right .rightSemi .rightAnti
  | "FULL" =>
    let _ ← next
    let _ ← keyword "OUTER"
    expectKeyword "JOIN"
    return some .full
  | "OUTER" => fail
  | _ => return none

/-- The condition of a join. -/
def joinCondition (r : Rules) (natural : Bool) : Parser JoinCondition := do
  if natural then return .natural
  else if ← keyword "ON" then return .on (← expr r)
  else if ← keyword "USING" then return .sharing (← nameList)
  else return .none

/-- A join with a further table, or nothing. -/
def join (r : Rules) : Parser (Option Join) := do
  if ← keyword "CROSS" then
    match ← expectOneOf ["JOIN", "APPLY"] with
    | "JOIN" => return some (.mk .cross (← table r) .none)
    | _ => return some (.mk .apply (← table r) .none)
  else if ← keyword "OUTER" then
    expectKeyword "APPLY"
    return some (.mk .apply (← table r) .none)
  else
    let natural ← keyword "NATURAL"
    match ← joinKind with
    | some kind =>
      let t ← table r
      return some (.mk kind t (← joinCondition r natural))
    | none => if natural then fail else return none

/-- A table and those joined to it. -/
def tablesRule (r : Rules) : Parser Joined := do
  let first ← table r
  return .mk first (← many (join r))

/-! ## Selections -/

/-- Columns left out of a star: whether there are any. -/
def leftOut (word : String) : Parser Bool := do
  if ← keyword word then
    if ← atSymbol "(" then
      let _ ← nameList
    else
      let _ ← name
    return true
  else return false

/-- Columns of a star replaced by expressions: whether there are any. -/
def replaced (r : Rules) : Parser Bool := do
  if ← keyword "REPLACE" then
    let _ ← bracketed <| list do
      let _ ← expr r
      let _ ← keyword "AS"
      name
    return true
  else return false

/-- An item of a selection. -/
def item (r : Rules) : Parser Item := do
  match ← starOrExpr r with
  | .inl p =>
    let excluded ← leftOut "EXCLUDE"
    let excepted ← leftOut "EXCEPT"
    return .everything p (excluded || excepted || (← replaced r))
  | .inr e => return .expr e (← label reservedBehindItem)

/-- The number of rows to keep of a selection, behind its keyword. -/
def topRows (r : Rules) : Parser Unit := do
  if ← atSymbol "(" then
    let _ ← bracketed (expr r)
  else
    let _ ← numberConstant
  let _ ← keyword "PERCENT"
  let _ ← keywords ["WITH", "TIES"]

/-- Words that end the list of names behind a lateral view. -/
def reservedBehindView : List String := ["WHERE", "GROUP", "CLUSTER", "HAVING", "LATERAL"]

/-- A lateral view, or nothing. -/
def lateralView (r : Rules) : Parser (Option Unit) := do
  if ← keywords ["LATERAL", "VIEW"] then
    let _ ← keyword "OUTER"
    let _ ← expr r
    let _ ← path
    let _ ← list (label reservedBehindView)
    return some ()
  else return none

/-- Expressions in brackets, perhaps none. -/
def exprTuple (r : Rules) : Parser (List Expr) := do
  expect "("
  if ← symbol ")" then return []
  else
    let es ← exprs r
    expect ")"
    return es

/-- Expressions in brackets, or a single one without. -/
def exprTupleOrOne (r : Rules) : Parser (List Expr) := do
  if ← atSymbol "(" then exprTuple r else return [← expr r]

/-- What rows are grouped by. -/
def groupKey (r : Rules) : Parser Expr := do
  if ← keywords ["GROUPING", "SETS"] then
    return .special "GROUPING SETS" ((← bracketed (list (exprTuple r))).map Expr.tuple)
  else if ← keyword "CUBE" then
    return .special "CUBE" ((← bracketed (list (exprTupleOrOne r))).map Expr.tuple)
  else if ← keyword "ROLLUP" then
    return .special "ROLLUP" ((← bracketed (list (exprTupleOrOne r))).map Expr.tuple)
  else expr r

/-- The grouping of a selection. -/
def grouping (r : Rules) : Parser Grouping := do
  if ← keywords ["GROUP", "BY"] then
    if ← keyword "ALL" then return .all else return .by (← list (groupKey r))
  else return .by []

/-- A clause that is only recognised: its keyword, if it is there. -/
def clause {α : Type} (words : List String) (p : Parser α) : Parser (List String) := do
  if ← keywords words then
    let _ ← p
    return [Text.joined " " words]
  else return []

/-- A named window. -/
def namedWindow (r : Rules) : Parser Unit := do
  let _ ← name
  expectKeyword "AS"
  expect "("
  window r (Parser.interval (operandRule r 1) (operator r))

/-- A selection behind its keyword. -/
def select (r : Rules) : Parser Select := do
  let equals ← distinctness r
  let top ← clause ["TOP"] (topRows r)
  let items ← list (item r)
  let tables ← if ← keyword "FROM" then list r.tables else pure []
  let views ← many (lateralView r)
  let filter ← only (← keyword "WHERE") (expr r)
  let groups ← grouping r
  let cluster ← clause ["CLUSTER", "BY"] (exprs r)
  let distribute ← clause ["DISTRIBUTE", "BY"] (exprs r)
  let sort ← clause ["SORT", "BY"] (exprs r)
  let having ← only (← keyword "HAVING") (expr r)
  let windows ← clause ["WINDOW"] (list (namedWindow r))
  let qualify ← clause ["QUALIFY"] (expr r)
  return .mk equals items tables filter groups having
    (top ++ views.map (fun _ => "LATERAL VIEW") ++ cluster ++ distribute ++ sort ++ windows ++
      qualify)

/-! ## Queries -/

/-- Rows of values. -/
def valueRows (r : Rules) : Parser (List (List Expr)) := list do
  let _ ← keyword "ROW"
  bracketed (exprs r)

/-- A table taken as a query: its name takes three tokens, of which the last two count only when a
point is between the names. -/
def tableQuery : Parser (List String) := do
  match ← next with
  | .word first _ =>
    let second ← attempt next
    let third ← attempt next
    match second, third with
    | some (.symbol "."), some (.word last _) => return [first, last]
    | some (.symbol "."), _ => fail
    | _, _ => return [first]
  | _ => fail

/-- The operator that combines queries, with its power. -/
def setOperator (k : String) : Option (SetOperator × Nat) :=
  match k with
  | "UNION" => some (.union, 10)
  | "EXCEPT" => some (.except, 10)
  | "INTERSECT" => some (.intersect, 20)
  | _ => none

/-- What is kept of the rows of a combination. -/
def setQuantifier (op : SetOperator) : Parser SetQuantifier := do
  let byName : Parser Bool := if op = .union then keywords ["BY", "NAME"] else return false
  if ← byName then return .special
  else if ← keyword "ALL" then
    if ← byName then return .special else return .all
  else if ← keyword "DISTINCT" then
    if ← byName then return .special else return .distinct
  else return .plain

/-- A query without operators. -/
def bodyStart (r : Rules) : Parser Body := do
  if ← keyword "SELECT" then return .select (← select r)
  else if ← symbol "(" then
    let q ← r.query
    expect ")"
    return .nested q
  else if ← keyword "VALUES" then return .values (← valueRows r)
  else if ← keyword "TABLE" then return .table (← tableQuery)
  else fail

/-- The combinations behind a query that bind stronger than a power. The first argument bounds
their number. -/
def bodiesBehind (r : Rules) (power : Nat) : Nat → Body → Parser Body
  | 0, _ => fail
  | fuel + 1, left => do
    match setOperator (← peekKeyword) with
    | none => return left
    | some (op, next) =>
      if next ≤ power then return left
      else
        let _ ← Parser.next
        let quantifier ← setQuantifier op
        let right ← r.body next
        bodiesBehind r power fuel (.combined op quantifier left right)

/-- A query without order and bounds. -/
def bodyRule (r : Rules) (power : Nat) : Parser Body := fun σ ts =>
  (do bodiesBehind r power (ts.length + 1) (← bodyStart r)) σ ts

/-- A query with a name. -/
def namedQuery (r : Rules) : Parser NamedQuery := do
  let n ← name
  let _ ← only ((← peekKeyword) != "AS") optionalNameList
  expectKeyword "AS"
  let q ← bracketedQuery r
  if ← keyword "FROM" then
    let _ ← name
  return .mk n q

/-- The first row to take. -/
def offset (r : Rules) : Parser Expr := do
  let e ← expr r
  let _ ← oneOf ["ROW", "ROWS"]
  return e

/-- The bounds of a query: how many rows, and from which on. Either may come first, and a comma
between two numbers puts the first row in front. -/
def bounds (r : Rules) : Nat → Option Expr → Option Expr → Parser (Option Expr × Option Expr)
  | 0, limit, start => return (limit, start)
  | rounds + 1, limit, start => do
    let limit ← do
      if limit.isNone then
        if ← keyword "LIMIT" then bound r else pure none
      else pure limit
    let start ← do
      if start.isNone then
        if ← keyword "OFFSET" then some <$> offset r else pure none
      else pure start
    if limit.isSome && start.isNone then
      if ← symbol "," then bounds r rounds (some (← expr r)) limit
      else bounds r rounds limit start
    else bounds r rounds limit start

/-- The rows to fetch of a query, behind the keyword. -/
def fetchRows : Parser Unit := do
  let _ ← expectOneOf ["FIRST", "NEXT"]
  if (← oneOf ["ROW", "ROWS"]).isNone then
    let _ ← constant
    let _ ← keyword "PERCENT"
    let _ ← expectOneOf ["ROW", "ROWS"]
  if ← keyword "ONLY" then return ()
  else expectKeywords ["WITH", "TIES"]

/-- A lock on rows, behind its keyword. -/
def rowLock : Parser Unit := do
  let _ ← expectOneOf ["UPDATE", "SHARE"]
  if ← keyword "OF" then
    let _ ← path
  if ← keyword "NOWAIT" then return ()
  let _ ← keywords ["SKIP", "LOCKED"]

/-- A query, one level of nesting deeper. -/
def queryRule (r : Rules) : Parser Query := deeper do
  let named ←
    if ← keyword "WITH" then
      let _ ← keyword "RECURSIVE"
      list (namedQuery r)
    else pure []
  let body ← r.body 0
  let order ← optionalOrder r
  let (limit, start) ← bounds r 2 none none
  let perGroup ← clause ["BY"] (exprs r)
  let fetch ← clause ["FETCH"] fetchRows
  let locks ← many (only (← keyword "FOR") rowLock)
  return .mk named body order limit start (perGroup ++ fetch ++ locks.map fun _ => "FOR")

end Enclave.Sql.Parser
