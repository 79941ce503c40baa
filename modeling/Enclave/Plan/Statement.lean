import Enclave.Plan.Basic

/-!
# The statement of a plan

`Plan.statement` writes a plan as one `SELECT`. Names stand between double quotes and texts between
single quotes, a quote inside being doubled, so neither can end its quotation. Every part of a
junction and the operand of a negation stand in brackets, so the nesting of the condition is the
nesting of the text.
-/

namespace Enclave

/-- A quote doubled, any other character as it is. -/
def doubled (quote c : Char) : List Char := if c = quote then [quote, quote] else [c]

/-- Characters between quotes, with the quotes inside doubled. -/
def quotedChars (quote : Char) (cs : List Char) : List Char :=
  quote :: (cs.flatMap (doubled quote) ++ [quote])

/-- A name in a statement. -/
def quoteName (name : String) : String := String.ofList (quotedChars '"' name.toList)

/-- A text in a statement. -/
def quoteText (text : String) : String := String.ofList (quotedChars '\'' text.toList)

/-- Floats in a statement: an exponent below `1e-4` and from `1e16`, and always a point or an
exponent. -/
def statementNotation : Decimal.Notation := ⟨.up, some (-4), some 15, true, false, 1⟩

/-- Why a plan has no statement. -/
inductive Uncompilable where
  | emptySelection
  | overRows (how : Aggregate)
  | emptyJunction (word : String)
  | comparedWithNull
  | notFinite (f : Float)

/-- The wording of a refusal to write a statement. -/
def Uncompilable.message : Uncompilable → String
  | .emptySelection => "empty selection"
  | .overRows how => how.keyword ++ "(*) is not supported"
  | .emptyJunction word => "empty " ++ word ++ " combinator"
  | .comparedWithNull => "comparison against NULL; use is_null / is_not_null"
  | .notFinite f => "non-finite float literal " ++ Decimal.plain.render f

/-- A plan without a statement as a failure. -/
def uncompilable {α : Type} (why : Uncompilable) : Outcome α := .error (.notCompilable why.message)

/-- A literal in a statement. -/
def Literal.statement : Literal → Outcome String
  | .null => uncompilable .comparedWithNull
  | .bool b => .ok (if b then "TRUE" else "FALSE")
  | .int n => .ok (Decimal.intText n)
  | .float f =>
    if Decimal.isFinite f then .ok (statementNotation.render f) else uncompilable (.notFinite f)
  | .text s => .ok (quoteText s)

namespace Condition

mutual

/-- A condition in a statement. -/
def statement : Condition → Outcome String
  | .compare column how value =>
    match value.statement with
    | .error e => .error e
    | .ok v => .ok (quoteName column ++ " " ++ how.symbol ++ " " ++ v)
  | .isNull column => .ok (quoteName column ++ " IS NULL")
  | .isNotNull column => .ok (quoteName column ++ " IS NOT NULL")
  | .all [] => uncompilable (.emptyJunction "AND")
  | .all (p :: ps) => (partStatements (p :: ps)).map (Text.joined " AND ")
  | .any [] => uncompilable (.emptyJunction "OR")
  | .any (p :: ps) => (partStatements (p :: ps)).map (Text.joined " OR ")
  | .not inner =>
    match statement inner with
    | .error e => .error e
    | .ok s => .ok ("NOT (" ++ s ++ ")")

/-- The parts of a junction, each in brackets. -/
def partStatements : List Condition → Outcome (List String)
  | [] => .ok []
  | p :: ps =>
    match statement p with
    | .error e => .error e
    | .ok s =>
      match partStatements ps with
      | .error e => .error e
      | .ok rest => .ok (("(" ++ s ++ ")") :: rest)

end

end Condition

namespace Selection

/-- A selected expression without its alias. -/
def expression : Selection → Outcome String
  | .column name _ => .ok (quoteName name)
  | .aggregate how (some target) _ => .ok (how.keyword ++ "(" ++ quoteName target ++ ")")
  | .aggregate .count none _ => .ok "COUNT(*)"
  | .aggregate how none _ => uncompilable (.overRows how)

/-- A selected expression. -/
def statement (s : Selection) : Outcome String :=
  match s.expression with
  | .error e => .error e
  | .ok e =>
    match s.label? with
    | some a => .ok (e ++ " AS " ++ quoteName a)
    | none => .ok e

end Selection

/-- A key of the order in a statement. -/
def SortKey.statement (k : SortKey) : String :=
  quoteName k.column ++ (if k.descending then " DESC" else " ASC")

/-- The selections of a plan in a statement. -/
def selectionStatements : List Selection → Outcome (List String)
  | [] => .ok []
  | s :: rest =>
    match s.statement with
    | .error e => .error e
    | .ok t =>
      match selectionStatements rest with
      | .error e => .error e
      | .ok ts => .ok (t :: ts)

/-- A clause that is left out when it has no items. -/
def listClause (opening : String) (items : List String) : String :=
  if items.isEmpty then "" else opening ++ Text.joined ", " items

namespace Plan

/-- The part of a statement that tells which rows. -/
def whereClause (p : Plan) : Outcome String :=
  match p.filter with
  | none => .ok ""
  | some c =>
    match c.statement with
    | .error e => .error e
    | .ok s => .ok (" WHERE " ++ s)

/-- The statement of a plan. -/
def statement (p : Plan) : Outcome String := do
  if p.select.isEmpty then uncompilable .emptySelection
  let items ← selectionStatements p.select
  let rows ← p.whereClause
  let limit := match p.limit with
    | some n => " LIMIT " ++ Decimal.natText n
    | none => ""
  return "SELECT " ++ Text.joined ", " items ++ " FROM " ++ quoteName p.table ++ rows ++
    listClause " GROUP BY " (p.groupBy.map quoteName) ++
    listClause " ORDER BY " (p.orderBy.map SortKey.statement) ++ limit

end Plan

end Enclave
