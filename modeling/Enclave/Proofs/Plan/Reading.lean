import Enclave.Plan.Statement
import Enclave.Sql.Keyword

/-!
# A reader of selections

A reader for the part of SQL that plans are written in, independent of how they are written. Its
tokens are those of `Sql.lexemes`: names stand between double quotes or are words that are no
keywords, texts stand between single quotes, and a doubled quote stands for itself.

Conditions are read by precedence, from the weakest operator to the strongest: `OR`, `AND`, `NOT`,
then comparisons and `IS NULL`. Brackets leave no trace in what is read.

`Plan.reading` is what the statement of a plan should be read as. It is the plan, except that a
junction of one part is that part and that a float is the text it is written as.
-/

namespace Enclave.ReadBack

open Sql (Token)

/-! ## What is read -/

/-- A constant of a statement. A number with a point or an exponent is kept as its text. -/
inductive Constant where
  | null
  | bool (b : Bool)
  | int (n : Int)
  | decimal (text : String)
  | text (s : String)
  deriving Repr, DecidableEq

/-- A condition of a statement. -/
inductive Filter where
  | compare (column : String) (how : Comparison) (value : Constant)
  | isNull (column : String)
  | isNotNull (column : String)
  | all (parts : List Filter)
  | any (parts : List Filter)
  | not (inner : Filter)
  deriving Repr, BEq

/-- One selection. -/
structure Query where
  table : String
  select : List Selection
  filter : Option Filter
  groupBy : List String
  orderBy : List SortKey
  limit : Option Nat
  deriving Repr, BEq

/-- Several parts as one condition; one part needs no junction. -/
def junction (make : List Filter → Filter) : List Filter → Filter
  | [c] => c
  | cs => make cs

/-! ## Readers -/

/-- A reader takes tokens from the front of a list, or fails. -/
abbrev Reader (α : Type) := StateT (List Token) Option α

/-- Takes the next token if it says something. -/
def accept {α : Type} (f : Token → Option α) : Reader (Option α) := fun ts =>
  match ts with
  | [] => some (none, [])
  | t :: rest =>
    match f t with
    | some a => some (some a, rest)
    | none => some (none, t :: rest)

/-- Takes the next token, which has to say something. -/
def take {α : Type} (f : Token → Option α) : Reader α := fun ts =>
  match ts with
  | [] => none
  | t :: rest => (f t).map (·, rest)

/-- A keyword, in any case. -/
def keyword (k : String) (t : Token) : Option Unit := if t.keyword = k then some () else none

/-- A symbol. -/
def symbol (s : String) (t : Token) : Option Unit := if t = .symbol s then some () else none

/-- A name. -/
def name : Token → Option String
  | .word w (some q) => if q = '"' then some w else none
  | .word w none => if (Token.word w none).isKeyword then none else some w
  | _ => none

/-- What stands behind a token, if the token is next. -/
def behind {α β : Type} (f : Token → Option α) (r : Reader β) (otherwise : β) : Reader β := do
  match ← accept f with
  | some _ => r
  | none => return otherwise

/-- Things with separators between them; the number bounds how many. -/
def chainWithin {α : Type} (item : Reader α) (separator : Token → Option Unit) :
    Nat → Reader (List α)
  | 0 => fun _ => none
  | n + 1 => do
    let a ← item
    let more ← behind separator (chainWithin item separator n) []
    return a :: more

/-- Things with separators between them. -/
def chain {α : Type} (item : Reader α) (separator : Token → Option Unit) : Reader (List α) :=
  fun ts => chainWithin item separator (ts.length + 1) ts

/-! ## Constants and conditions -/

/-- A number from its characters. -/
def numberOf (negative : Bool) (digits : String) : Constant :=
  if digits.toList.all Char.isDigit then
    let n : Int := Nat.ofDigitChars 10 digits.toList 0
    .int (if negative then -n else n)
  else .decimal (if negative then "-" ++ digits else digits)

/-- The characters of a number. -/
def digits : Token → Option String
  | .number text false => some text
  | _ => none

/-- A constant of one token. -/
def plainConstant : Token → Option Constant
  | .number text false => some (numberOf false text)
  | .text .plain s => some (.text s)
  | t =>
    if t.keyword = "TRUE" then some (.bool true)
    else if t.keyword = "FALSE" then some (.bool false)
    else if t.keyword = "NULL" then some .null
    else none

/-- A constant, a number perhaps with a sign. -/
def constant : Reader Constant := do
  match ← accept (symbol "-") with
  | some _ => return numberOf true (← take digits)
  | none => take plainConstant

/-- The symbol of a comparison. -/
def comparison : Token → Option Comparison
  | .symbol "=" => some .eq
  | .symbol "<>" => some .ne
  | .symbol "<" => some .lt
  | .symbol "<=" => some .le
  | .symbol ">" => some .gt
  | .symbol ">=" => some .ge
  | _ => none

/-- What is said about a column. -/
def columnTest : Reader Filter := do
  let column ← take name
  match ← accept (keyword "IS") with
  | some _ =>
    match ← accept (keyword "NOT") with
    | some _ =>
      take (keyword "NULL")
      return .isNotNull column
    | none =>
      take (keyword "NULL")
      return .isNull column
  | none =>
    let how ← take comparison
    let value ← constant
    return .compare column how value

/-- A condition between brackets, or what is said about a column. -/
def primary (inner : Reader Filter) : Reader Filter := do
  match ← accept (symbol "(") with
  | some _ =>
    let c ← inner
    take (symbol ")")
    return c
  | none => columnTest

/-- Negations, and behind them something that binds stronger. -/
def negation (inner : Reader Filter) (ts : List Token) : Option (Filter × List Token) :=
  match ts with
  | [] => none
  | t :: rest =>
    match keyword "NOT" t with
    | some _ => (negation inner rest).map fun r => (.not r.1, r.2)
    | none => primary inner (t :: rest)

def conjunction (inner : Reader Filter) : Reader Filter :=
  junction .all <$> chain (negation inner) (keyword "AND")

def disjunction (inner : Reader Filter) : Reader Filter :=
  junction .any <$> chain (conjunction inner) (keyword "OR")

/-- A condition with brackets inside brackets up to a depth. -/
def filterWithin : Nat → Reader Filter
  | 0 => fun _ => none
  | depth + 1 => disjunction (filterWithin depth)

/-- A condition. -/
def filter : Reader Filter := fun ts => filterWithin ts.length ts

/-! ## Statements -/

/-- The aggregate that a word names. -/
def aggregate (t : Token) : Option Aggregate :=
  if t.keyword = "COUNT" then some .count
  else if t.keyword = "SUM" then some .sum
  else if t.keyword = "AVG" then some .avg
  else if t.keyword = "MIN" then some .min
  else if t.keyword = "MAX" then some .max
  else none

/-- What an aggregate is over: a column, and for a count also whole rows. -/
def operand (how : Aggregate) : Reader (Option String) := do
  match ← accept (symbol "*") with
  | some _ => if how = .count then return none else fun _ => none
  | none => some <$> take name

/-- A selected expression; it still wants its label. -/
def expression : Reader (Option String → Selection) := do
  match ← accept aggregate with
  | some how =>
    take (symbol "(")
    let target ← operand how
    take (symbol ")")
    return .aggregate how target
  | none => .column <$> take name

/-- One selection. -/
def selection : Reader Selection := do
  let e ← expression
  let label ← behind (keyword "AS") (some <$> take name) none
  return e label

/-- The direction of an order. -/
def direction (t : Token) : Option Bool :=
  if t.keyword = "ASC" then some false else if t.keyword = "DESC" then some true else none

/-- A key of an order, ascending if nothing else is said. -/
def sortKey : Reader SortKey := do
  let column ← take name
  let descending ← accept direction
  return ⟨column, descending.getD false⟩

/-- A whole number without a sign. -/
def count (t : Token) : Option Nat := do
  let text ← digits t
  if text.toList.all Char.isDigit then some (Nat.ofDigitChars 10 text.toList 0) else none

/-- A clause of two keywords and a list. -/
def listOf {α : Type} (first second : String) (item : Reader α) : Reader (List α) :=
  behind (keyword first) (do take (keyword second); chain item (symbol ",")) []

/-- A `SELECT`. -/
def query : Reader Query := do
  take (keyword "SELECT")
  let select ← chain selection (symbol ",")
  take (keyword "FROM")
  let table ← take name
  let filter ← behind (keyword "WHERE") (some <$> filter) none
  let groupBy ← listOf "GROUP" "BY" (take name)
  let orderBy ← listOf "ORDER" "BY" sortKey
  let limit ← behind (keyword "LIMIT") (some <$> take count) none
  return ⟨table, select, filter, groupBy, orderBy, limit⟩

/-- The statements of a text, semicolons between them; `none` when anything is left over. -/
def statements (text : List Char) : Option (List Query) := do
  let ls ← Sql.lexemes text
  let (qs, rest) ← chain query (symbol ";") (Sql.grammarTokens ls)
  if rest.isEmpty then some qs else none

end Enclave.ReadBack

namespace Enclave

/-! ## What a plan should be read as -/

open ReadBack (Constant Filter Query junction)

/-- A literal as it is read. -/
def Literal.reading : Literal → Constant
  | .null => .null
  | .bool b => .bool b
  | .int n => .int n
  | .float f => .decimal (statementNotation.render f)
  | .text s => .text s

/-- A condition as it is read. -/
def Condition.reading : Condition → Filter
  | .compare column how value => .compare column how value.reading
  | .isNull column => .isNull column
  | .isNotNull column => .isNotNull column
  | .all parts => junction .all (parts.map Condition.reading)
  | .any parts => junction .any (parts.map Condition.reading)
  | .not inner => .not inner.reading

/-- A plan as it is read. -/
def Plan.reading (p : Plan) : Query :=
  ⟨p.table, p.select, p.filter.map Condition.reading, p.groupBy, p.orderBy, p.limit⟩

end Enclave
