import Enclave.Sql.Grammar.Query

/-!
# The grammar of statements

A text is a list of statements with separators between them. Of the statements only queries have
parts; of the others the grammar knows those that change nothing, and gives only their keyword.

`parse` ties the rules together: as many levels as there are tokens, of which at most `maxDepth`
may be statements, queries and expressions within each other.
-/

namespace Enclave.Sql

/-- The depth to which statements, queries and expressions may be nested. -/
def maxDepth : Nat := 50

namespace Parser

/-! ## Statements that are no queries -/

/-- The statement to end another run. -/
def killStatement : Parser Unit := do
  let _ ← oneOf ["CONNECTION", "QUERY", "MUTATION"]
  let _ ← count

/-- The rest of a statement that explains another, or describes a table. -/
def explainStatement (r : Rules) : Parser Unit := do
  let _ ← keyword "ANALYZE"
  let _ ← keyword "VERBOSE"
  if ← keyword "FORMAT" then
    let _ ← expectOneOf ["TEXT", "GRAPHVIZ", "JSON"]
  match ← attempt r.statement with
  | some .explanation => fail
  | some _ => return ()
  | none =>
    let _ ← path

/-- A part of a statement that gathers statistics, or nothing. -/
def analyzePart (r : Rules) : Parser (Option Unit) := do
  match ← oneOf ["PARTITION", "FOR", "CACHE", "NOSCAN", "COMPUTE"] with
  | some "PARTITION" =>
    let _ ← bracketed (exprs r)
    return some ()
  | some "FOR" =>
    expectKeyword "COLUMNS"
    let _ ← attempt (list name)
    return some ()
  | some "CACHE" => expectKeyword "METADATA"; return some ()
  | some "COMPUTE" => expectKeyword "STATISTICS"; return some ()
  | some _ => return some ()
  | none => return none

/-- The rest of a statement that gathers statistics. -/
def analyzeStatement (r : Rules) : Parser Unit := do
  expectKeyword "TABLE"
  let _ ← path
  let _ ← many (analyzePart r)

/-- The rest of a statement that repairs a table. -/
def repairStatement : Parser Unit := do
  let _ ← keyword "REPAIR"
  expectKeyword "TABLE"
  let _ ← path
  let _ ← attempt do
    let _ ← oneOf ["ADD", "DROP", "SYNC"]
    expectKeyword "PARTITIONS"

/-- Options with their values. -/
def optionList : Parser Unit := do
  let _ ← bracketed <| list do
    let _ ← name
    expect "="
    constant

/-- Whether no token is left. -/
def atEnd : Parser Bool := do return (← peek).isNone

/-- The rest of a statement that keeps a table in memory, behind the keyword `TABLE`. -/
def cachedTable (r : Rules) : Parser Unit := do
  let _ ← path
  if ← keyword "OPTIONS" then optionList
  if ← atEnd then return ()
  else
    match ← peek with
    | some (.word _ _) =>
      let _ ← keyword "AS"
      let _ ← r.query
    | _ => fail

/-- The rest of a statement that keeps a table in memory. -/
def cacheStatement (r : Rules) : Parser Unit := do
  if ← keyword "TABLE" then cachedTable r
  else
    let _ ← path
    expectKeyword "TABLE"
    cachedTable r

/-- The rest of a statement that drops a table from memory. -/
def uncacheStatement : Parser Unit := do
  expectKeyword "TABLE"
  let _ ← keywords ["IF", "EXISTS"]
  let _ ← path
  if ← atEnd then return () else fail

/-- The rest of the declaration of a cursor. -/
def declareStatement (r : Rules) : Parser Unit := do
  let _ ← name
  let _ ← keyword "BINARY"
  let _ ← oneOf ["INSENSITIVE", "ASENSITIVE"]
  if ← keyword "SCROLL" then pure ()
  else
    let _ ← keywords ["NO", "SCROLL"]
  expectKeyword "CURSOR"
  if (← oneOf ["WITH", "WITHOUT"]).isSome then expectKeyword "HOLD"
  expectKeyword "FOR"
  let _ ← r.query

/-- The rest of a statement that takes rows of a cursor. -/
def fetchStatement : Parser Unit := do
  match ← oneOf ["NEXT", "PRIOR", "FIRST", "LAST", "ABSOLUTE", "RELATIVE", "FORWARD", "BACKWARD",
    "ALL"] with
  | some k =>
    if k == "ABSOLUTE" || k == "RELATIVE" then
      let _ ← numberConstant
    else if k == "FORWARD" || k == "BACKWARD" then
      if ← keyword "ALL" then pure ()
      else
        let _ ← numberConstant
  | none =>
    let _ ← numberConstant
  let _ ← expectOneOf ["FROM", "IN"]
  let _ ← name
  if ← keyword "INTO" then
    let _ ← path

/-- A filter of what is shown. -/
def showFilter (r : Rules) : Parser Unit := do
  if (← oneOf ["LIKE", "ILIKE"]).isSome then
    let _ ← literalText
  else if ← keyword "WHERE" then
    let _ ← expr r

/-- The tokens up to the first equals sign. -/
def upToEquals : Parser Unit := fun _ ts =>
  some ((), ts.dropWhile fun t => t ≠ .symbol "=")

/-- The rest of a statement that shows something. -/
def showStatement (r : Rules) : Parser Unit := do
  let extended ← keyword "EXTENDED"
  let full ← keyword "FULL"
  if (← oneOf ["COLUMNS", "FIELDS"]).isSome then
    let _ ← expectOneOf ["FROM", "IN"]
    let _ ← path
    if (← oneOf ["FROM", "IN"]).isSome then
      let _ ← name
    showFilter r
  else if ← keyword "TABLES" then
    if (← oneOf ["FROM", "IN"]).isSome then
      let _ ← name
    showFilter r
  else if ← keyword "FUNCTIONS" then showFilter r
  else if extended || full then fail
  else if ← keyword "COLLATION" then showFilter r
  else if ← keyword "VARIABLES" then showFilter r
  else upToEquals

/-- A mode of a transaction, or nothing. -/
def transactionMode : Parser (Option Unit) := do
  if ← keywords ["ISOLATION", "LEVEL"] then
    if ← keywords ["READ", "UNCOMMITTED"] then return some ()
    else if ← keywords ["READ", "COMMITTED"] then return some ()
    else if ← keywords ["REPEATABLE", "READ"] then return some ()
    else
      expectKeyword "SERIALIZABLE"
      return some ()
  else if ← keywords ["READ", "ONLY"] then return some ()
  else if ← keywords ["READ", "WRITE"] then return some ()
  else return none

/-- Modes of a transaction, with or without commas between them. A comma asks for a further one.
The first argument bounds their number. -/
def transactionModes : Nat → Bool → Parser Unit
  | 0, _ => fail
  | fuel + 1, required => do
    match ← transactionMode with
    | some () => transactionModes fuel (← symbol ",")
    | none => if required then fail else return ()

/-- The rest of a statement that begins a transaction. -/
def transactionStatement : Parser Unit := fun σ ts =>
  (do expectKeyword "TRANSACTION"; transactionModes (ts.length + 1) false) σ ts

/-- The rest of a statement that checks a condition. -/
def assertStatement (r : Rules) : Parser Unit := do
  let _ ← expr r
  if ← keyword "AS" then
    let _ ← expr r

/-- A statement by its first word, behind that word. -/
def otherStatement (r : Rules) (k : String) : Parser Unit :=
  match k with
  | "KILL" => killStatement
  | "ANALYZE" => analyzeStatement r
  | "MSCK" => repairStatement
  | "CACHE" => cacheStatement r
  | "UNCACHE" => uncacheStatement
  | "DISCARD" => do
    let _ ← expectOneOf ["ALL", "PLANS", "SEQUENCES", "TEMP", "TEMPORARY"]
  | "DECLARE" => declareStatement r
  | "FETCH" => fetchStatement
  | "CLOSE" => do
    if ← keyword "ALL" then return ()
    else
      let _ ← name
  | "SHOW" => showStatement r
  | "USE" => do
    let _ ← name
  | "START" => transactionStatement
  | "ASSERT" => assertStatement r
  | _ => fail

/-- A statement, one level of nesting deeper. -/
def statementRule (r : Rules) : Parser Statement := deeper do
  if ← atSymbol "(" then return .query (← r.query)
  else
    let k ← peekKeyword
    match k with
    | "SELECT" | "WITH" | "VALUES" => return .query (← r.query)
    | "EXPLAIN" | "DESCRIBE" =>
      let _ ← next
      explainStatement r
      return .explanation
    | _ =>
      let _ ← next
      otherStatement r k
      return .other k

/-! ## The knot -/

/-- The rules with a number of levels. -/
def rules : Nat → Rules
  | 0 => ⟨fun _ => fail, fail, fun _ => fail, fail, fail, fail⟩
  | n + 1 =>
    { operand := fun power σ ts => exprRule (rules n) power σ ts
      query := fun σ ts => queryRule (rules n) σ ts
      body := fun power σ ts => bodyRule (rules n) power σ ts
      tables := fun σ ts => tablesRule (rules n) σ ts
      typeName := fun σ ts => typeRule (rules n) σ ts
      statement := fun σ ts => statementRule (rules n) σ ts }

/-- Statements behind those already read, the last of these first; `separated` when a separator
was read behind the last one. The first argument bounds the number of steps. -/
def statementsBehind (r : Rules) : Nat → Bool → List Statement → Parser (List Statement)
  | 0, _, _ => fail
  | fuel + 1, separated, found => do
    if ← symbol ";" then statementsBehind r fuel true found
    else if ← atEnd then return found.reverse
    else if !separated then
      if (← peekKeyword) == "END" then return found.reverse else fail
    else statementsBehind r fuel false ((← r.statement) :: found)

end Parser

/-- The statements of some tokens. -/
def parseStatements (setting : Setting) (ts : List Token) : Option (List Statement) :=
  let r := Parser.rules (2 * ts.length + 2)
  (Parser.statementsBehind r (2 * ts.length + 2) true [] setting ts).map (·.1)

end Enclave.Sql
