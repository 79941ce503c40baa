import Enclave.Sql.Grammar.Basic

/-!
# The grammar of types

Types are named by keywords; any other name is a type of somebody's own. Types of rows and lists
stand between angle brackets, and two closing ones side by side are one token: a type therefore
also tells whether it took the bracket of the type around it.
-/

namespace Enclave.Sql.Parser

/-- A number between brackets, or nothing. -/
def optionalSize : Parser Unit := do
  let _ ← only (← atSymbol "(") (bracketed count)

/-- One or two numbers between brackets, or nothing. -/
def optionalPrecision : Parser Unit := do
  let _ ← only (← atSymbol "(") <| bracketed do
    let _ ← count
    if ← symbol "," then
      let _ ← count

/-- A length with its unit between brackets, or nothing. -/
def optionalLength : Parser Unit := do
  let _ ← only (← atSymbol "(") <| bracketed do
    let _ ← count
    let _ ← oneOf ["CHARACTERS", "OCTETS"]

/-- Whether a time has a zone. -/
def optionalZone : Parser Unit := do
  if ← keyword "WITH" then expectKeywords ["TIME", "ZONE"]
  else if ← keyword "WITHOUT" then expectKeywords ["TIME", "ZONE"]

/-- Texts between brackets. -/
def textList : Parser Unit := fun σ ts =>
  let rec go : Nat → Parser Unit
    | 0 => fail
    | fuel + 1 => do
      match ← next with
      | .text .plain _ =>
        match ← next with
        | .symbol "," => go fuel
        | .symbol ")" => return ()
        | _ => fail
      | _ => fail
  (do expect "("; go ts.length) σ ts

/-- What stands in brackets behind the name of a type of somebody's own. -/
def modifiers : Parser Unit := fun σ ts =>
  let rec go : Nat → Parser Unit
    | 0 => fail
    | fuel + 1 => do
      match ← next with
      | .word _ _ => go fuel
      | .number _ _ => go fuel
      | .text .plain _ => go fuel
      | .symbol "," => go fuel
      | .symbol ")" => return ()
      | _ => fail
  (do if ← symbol "(" then go (ts.length + 1)) σ ts

/-- Types that stand alone. -/
def bareTypes : List String :=
  ["BOOLEAN", "BOOL", "REAL", "FLOAT4", "FLOAT64", "FLOAT8", "INT64", "UUID", "DATE", "JSON",
   "REGCLASS", "TEXT", "BYTEA"]

/-- Types with an optional size. -/
def sizedTypes : List String :=
  ["FLOAT", "NVARCHAR", "CLOB", "BINARY", "VARBINARY", "BLOB", "BYTES", "DATETIME", "STRING"]

/-- Integers, with an optional width and sign. -/
def integerTypes : List String :=
  ["TINYINT", "INT2", "SMALLINT", "MEDIUMINT", "INT", "INT4", "INT8", "INTEGER", "BIGINT"]

/-- Exact decimals, with an optional precision and scale. -/
def decimalTypes : List String := ["NUMERIC", "DECIMAL", "DEC", "BIGNUMERIC", "BIGDECIMAL"]

/-- The closing bracket of a type, unless the type inside took it. -/
def closingBracket (taken : Bool) : Parser Bool := do
  if taken then return false
  else if ← symbol ">" then return false
  else if ← symbol ">>" then return true
  else fail

/-- A field of a row type: a type, with a name in front unless a keyword is next. -/
def fieldType (r : Rules) : Parser Bool := do
  let anonymous := match ← peek with
    | some (.word w _) => Sql.keywords.contains (Text.asciiUpper w)
    | _ => false
  if !anonymous then
    let _ ← name
  return (← r.typeName).2

/-- The fields of a row type behind those already read. -/
def fieldTypes (r : Rules) : Nat → Parser Bool
  | 0 => fail
  | fuel + 1 => do
    let taken ← fieldType r
    if ← symbol "," then
      if taken then fail else fieldTypes r fuel
    else return taken

/-- A row type behind its keyword: whether it has fields, and whether it took the bracket of the
type around it. -/
def rowType (r : Rules) : Parser (Bool × Bool) := fun σ ts =>
  (do
    if ← symbol "<" then
      let taken ← fieldTypes r ts.length
      return (true, ← closingBracket taken)
    else return (false, false)) σ ts

/-- A type, and whether it took the bracket of the type around it. -/
def typeRule (r : Rules) : Parser (TypeName × Bool) := do
  let k ← peekKeyword
  let known (rest : Parser Unit) : Parser (TypeName × Bool) := do
    let _ ← next
    rest
    return (.known k, false)
  let type ←
    if bareTypes.contains k then known (return ())
    else if sizedTypes.contains k then known optionalSize
    else if integerTypes.contains k then known do
      optionalSize
      let _ ← keyword "UNSIGNED"
    else if decimalTypes.contains k then known optionalPrecision
    else
      match k with
      | "DOUBLE" => known do
        let _ ← keyword "PRECISION"
      | "VARCHAR" => known optionalLength
      | "CHARACTER" | "CHAR" => known do
        if ← keyword "VARYING" then optionalLength
        else if ← keywords ["LARGE", "OBJECT"] then optionalSize
        else optionalLength
      | "TIMESTAMP" | "TIME" => known do
        optionalSize
        optionalZone
      | "TIMESTAMPTZ" | "TIMETZ" => known optionalSize
      | "INTERVAL" => do
        let _ ← next
        pure (.interval, false)
      | "ENUM" | "SET" => known textList
      | "ARRAY" => do
        let _ ← next
        expect "<"
        let (_, taken) ← r.typeName
        pure (.known k, ← closingBracket taken)
      | "STRUCT" => do
        let _ ← next
        pure (.known k, (← rowType r).2)
      | _ =>
        match ← peek with
        | some (.word _ _) => do
          let p ← path
          modifiers
          pure (.custom p, false)
        | _ => fail
  let _ ← many (only (← atSymbol "[") (do expect "["; expect "]"))
  return type

/-- A type with no bracket left over. -/
def type (r : Rules) : Parser TypeName := do
  let (t, taken) ← r.typeName
  if taken then fail else return t

end Enclave.Sql.Parser
