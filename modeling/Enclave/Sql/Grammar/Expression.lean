import Enclave.Sql.Grammar.TypeName

/-!
# The grammar of expressions

An expression is an operand followed by operators with further operands. Every operator has a
power; an expression is read up to the first operator that does not bind stronger than the power
asked for. The powers are in `operatorPower`, in rising order: `OR`, `AND`, `NOT`, `IS`, `LIKE`,
comparisons with `IN` and `BETWEEN`, the bit operators, sums, products, casts.
-/

namespace Enclave.Sql

/-! ## Powers -/

/-- The power of `NOT` in front of an operand. -/
def notPower : Nat := 15

/-- The power of `LIKE` and its kin. -/
def likePower : Nat := 19

/-- The power of comparisons, `IN` and `BETWEEN`. -/
def comparisonPower : Nat := 20

/-- The power of products. -/
def productPower : Nat := 40

/-- The power of a symbol behind an operand; zero for one that is no operator. -/
def symbolPower (s : String) : Nat :=
  if ["=", "<", "<=", "<>", ">", ">=", "==", "~", "~*", "!~", "!~*", "<=>"].contains s then
    comparisonPower
  else if s == "|" then 21
  else if ["^", "#", ">>", "<<"].contains s then 22
  else if s == "&" then 23
  else if ["+", "-"].contains s then 30
  else if ["*", "/", "//", "%", "||"].contains s then productPower
  else if ["::", ":", "!", "[", "->>", "->", "#>", "#>>", "@>", "<@", "#-", "@?", "@@"].contains s
  then 50
  else 0

/-- Words that compare a text with a pattern. -/
def patternKeywords : List String := ["LIKE", "ILIKE", "RLIKE", "REGEXP", "SIMILAR"]

/-- The power of a word behind an operand, from the words behind it. -/
def wordPower (k next afterNext : String) : Nat :=
  match k with
  | "OR" => 5
  | "AND" => 10
  | "XOR" => 24
  | "IS" => 17
  | "IN" | "BETWEEN" | "OPERATOR" => comparisonPower
  | "DIV" => productPower
  | "AT" => if next == "TIME" && afterNext == "ZONE" then 20 else 0
  | "NOT" =>
    if next == "IN" || next == "BETWEEN" then comparisonPower
    else if patternKeywords.contains next then likePower
    else 0
  | k => if patternKeywords.contains k then likePower else 0

/-- The power of the operator at the front of the tokens. -/
def operatorPower (ts : List Token) : Nat :=
  match ts with
  | .symbol s :: _ => symbolPower s
  | .word w none :: rest =>
    let keywordOf (t : Option Token) := (t.map Token.keyword).getD ""
    wordPower (Token.word w none).keyword (keywordOf rest.head?) (keywordOf rest[1]?)
  | _ => 0

namespace Parser

/-- An expression, one level of nesting deeper. -/
def expr (r : Rules) : Parser Expr := deeper (r.operand 0)

/-- Expressions with commas between them. -/
def exprs (r : Rules) : Parser (List Expr) := list (expr r)

/-! ## Parts of calls and windows -/

/-- The key of an order. -/
def orderKey (r : Rules) : Parser OrderKey := do
  let e ← expr r
  let direction ← oneOf ["ASC", "DESC"]
  let nulls ←
    if ← keywords ["NULLS", "FIRST"] then pure (some true)
    else if ← keywords ["NULLS", "LAST"] then pure (some false)
    else pure none
  return .mk e (direction == some "DESC") nulls

/-- An order, if one is given. -/
def optionalOrder (r : Rules) : Parser (List OrderKey) := do
  if ← keywords ["ORDER", "BY"] then list (orderKey r) else return []

/-- Which equal rows are kept. -/
def distinctness (r : Rules) : Parser Distinctness := do
  let everyOne ← keyword "ALL"
  if ← keyword "DISTINCT" then
    if everyOne then fail
    else if ← keyword "ON" then
      expect "("
      let keys ← if ← atSymbol ")" then pure [] else exprs r
      expect ")"
      return .on keys
    else return .distinct
  else return .all

/-- Whether equal rows are kept once. -/
def Distinctness.isDistinct : Distinctness → Bool
  | .all => false
  | _ => true

/-- The rest of a name with a star at its end, or nothing. -/
def qualifiedStar : Parser (Option (List String)) := fun σ ts =>
  let rec go : Nat → List String → Parser (Option (List String))
    | 0, _ => fail
    | fuel + 1, found => do
      if ← symbol "." then
        match ← next with
        | .word w _ => go fuel (w :: found)
        | .text .plain s => go fuel (s :: found)
        | .symbol "*" => return some found.reverse
        | _ => fail
      else return none
  match ts with
  | .word w _ :: rest => if rest.head? == some (.symbol ".") then go ts.length [w] σ rest else some (none, ts)
  | .text .plain s :: rest =>
    if rest.head? == some (.symbol ".") then go ts.length [s] σ rest else some (none, ts)
  | _ => some (none, ts)

/-- An expression, or a star with the name in front of it. -/
def starOrExpr (r : Rules) : Parser (List String ⊕ Expr) := fun σ ts =>
  match ts with
  | .symbol "*" :: rest => some (.inl [], rest)
  | _ =>
    match qualifiedStar σ ts with
    | none => none
    | some (some p, rest) => some (.inl p, rest)
    | some (none, _) => (Sum.inr <$> expr r) σ ts

/-- An argument without a name. -/
def plainArgument (r : Rules) : Parser Argument := do
  match ← starOrExpr r with
  | .inl p => return .everything p
  | .inr e => return .expr e

/-- An argument of a call. -/
def argument (r : Rules) : Parser Argument := do
  if (← peekAt 1) == some (.symbol "=>") then
    let n ← name
    expect "=>"
    return .named n (← plainArgument r)
  else plainArgument r

/-- The rest of a list of arguments behind its opening bracket. -/
def arguments (r : Rules) : Parser (List Argument) := do
  if ← symbol ")" then return []
  else
    let args ← list (argument r)
    expect ")"
    return args

/-- The rest of a list of arguments with an order behind them. -/
def orderedArguments (r : Rules) : Parser (List Argument) := do
  if ← symbol ")" then return []
  else
    let args ← list (argument r)
    let _ ← optionalOrder r
    expect ")"
    return args

/-- The length of an interval: an operand with all operators but the logical ones behind it. The
first rule reads an operand, the second an operator. -/
def intervalLength (operand : Parser Expr) (behind : Expr → Nat → Parser Expr) : Parser Expr :=
  fun σ ts =>
    let rec go : Nat → Expr → Parser Expr
      | 0, _ => fail
      | fuel + 1, left => do
        let k ← peekKeyword
        let power ← fun _ ts => some (operatorPower ts, ts)
        if ["AND", "OR", "XOR"].contains k || power = 0 then return left
        else go fuel (← behind left power)
    (do go (ts.length + 1) (← operand)) σ ts

/-- The unit of an interval. -/
def intervalUnit : Parser Unit := do
  let k ← peekKeyword
  let given := intervalUnits.contains k
  if given then datePart
  if k == "SECOND" then optionalPrecision
  else
    optionalSize
    if ← keyword "TO" then
      let last ← expectOneOf dateParts
      if last == "SECOND" then optionalSize

/-- An interval behind its keyword. -/
def interval (operand : Parser Expr) (behind : Expr → Nat → Parser Expr) : Parser Expr := do
  let length ← intervalLength operand behind
  intervalUnit
  return .special "INTERVAL" [length]

/-- One end of a window frame. -/
def frameBound (r : Rules) (interval : Parser Expr) : Parser Unit := do
  if ← keywords ["CURRENT", "ROW"] then return ()
  else
    if ← keyword "UNBOUNDED" then pure ()
    else
      match ← peek with
      | some (.text .plain _) =>
        let _ ← interval
      | _ =>
        let _ ← expr r
    let _ ← expectOneOf ["PRECEDING", "FOLLOWING"]

/-- A window behind its opening bracket. -/
def window (r : Rules) (interval : Parser Expr) : Parser Unit := do
  if ← keywords ["PARTITION", "BY"] then
    let _ ← exprs r
  let _ ← optionalOrder r
  if ← symbol ")" then return ()
  else
    let _ ← expectOneOf ["ROWS", "RANGE", "GROUPS"]
    if ← keyword "BETWEEN" then
      frameBound r interval
      expectKeyword "AND"
      frameBound r interval
    else frameBound r interval
    expect ")"

/-- A call behind the name of its function. -/
def call (r : Rules) (interval : Parser Expr) (function : List String) : Parser Expr := do
  expect "("
  let equals ← distinctness r
  let args ← orderedArguments r
  if (← oneOf ["RESPECT", "IGNORE"]).isSome then expectKeyword "NULLS"
  let windowed ← keyword "OVER"
  if windowed then
    if ← symbol "(" then window r interval
    else
      let _ ← name
  return .call function (Distinctness.isDistinct equals) args windowed

/-! ## Operands that begin with a keyword -/

/-- A query between brackets. -/
def bracketedQuery (r : Rules) : Parser Query := bracketed r.query

/-- The rest of a choice between values. -/
def choice (r : Rules) : Parser Expr := do
  let operand ←
    if ← keyword "WHEN" then pure none
    else
      let e ← expr r
      expectKeyword "WHEN"
      pure (some e)
  let branch : Parser (Expr × Expr) := do
    let condition ← expr r
    expectKeyword "THEN"
    return (condition, ← expr r)
  let first ← branch
  let more ← many (do only (← keyword "WHEN") branch)
  let otherwise ← only (← keyword "ELSE") (expr r)
  expectKeyword "END"
  return .choice operand (first :: more) otherwise

/-- The rest of a cast. -/
def castCall (r : Rules) (lenient : Bool) : Parser Expr := bracketed do
  let e ← expr r
  expectKeyword "AS"
  let t ← type r
  if ← keyword "FORMAT" then
    let _ ← constant
    if ← keywords ["AT", "TIME", "ZONE"] then
      let _ ← constant
  return .cast e t lenient

/-- The rest of a call that takes a part of a date. -/
def extractCall (r : Rules) : Parser Expr := bracketed do
  datePart
  expectKeyword "FROM"
  return .special "EXTRACT" [← expr r]

/-- The rest of a call that rounds, perhaps to a part of a date. -/
def roundingCall (r : Rules) (k : String) : Parser Expr := bracketed do
  let e ← expr r
  if ← keyword "TO" then
    datePart
    return .special k [e]
  else return .call [k] false [.expr e] false

/-- The rest of a call that looks for a text in another. -/
def positionCall (r : Rules) : Parser Expr := bracketed do
  let e ← r.operand comparisonPower
  expectKeyword "IN"
  return .special "POSITION" [e, ← expr r]

/-- The rest of a call that cuts out a part of a text. -/
def substringCall (r : Rules) : Parser Expr := bracketed do
  let e ← expr r
  let part (k : String) : Parser (Option Expr) := do
    if ← keyword k then some <$> expr r
    else if ← symbol "," then some <$> expr r
    else return none
  let start ← part "FROM"
  let length ← part "FOR"
  return .special "SUBSTRING" (e :: (start.toList ++ length.toList))

/-- The rest of a call that puts a text in the place of another. -/
def overlayCall (r : Rules) : Parser Expr := bracketed do
  let e ← expr r
  expectKeyword "PLACING"
  let new ← expr r
  expectKeyword "FROM"
  let start ← expr r
  let length ← only (← keyword "FOR") (expr r)
  return .special "OVERLAY" ([e, new, start] ++ length.toList)

/-- The rest of a call that removes characters at the ends of a text. -/
def trimCall (r : Rules) : Parser Expr := bracketed do
  let _ ← oneOf ["BOTH", "LEADING", "TRAILING"]
  let e ← expr r
  if ← keyword "FROM" then return .special "TRIM" [e, ← expr r]
  else if ← symbol "," then return .special "TRIM" (e :: (← exprs r))
  else return .special "TRIM" [e]

/-- The rest of a call that joins texts of several rows. -/
def listaggCall (r : Rules) : Parser Expr := do
  let parts ← bracketed do
    let _ ← distinctness r
    let e ← expr r
    let separator ← only (← symbol ",") (expr r)
    if ← keywords ["ON", "OVERFLOW"] then expectKeyword "ERROR"
    return e :: separator.toList
  if ← keywords ["WITHIN", "GROUP"] then bracketed do
    expectKeywords ["ORDER", "BY"]
    let _ ← list (orderKey r)
  return .special "LISTAGG" parts

/-- The bound on a number of rows; nothing when all rows are asked for. -/
def bound (r : Rules) : Parser (Option Expr) := do
  if ← keyword "ALL" then return none else some <$> expr r

/-- The rest of a call that makes a list of several rows. -/
def arrayAggCall (r : Rules) : Parser Expr := bracketed do
  let _ ← keyword "DISTINCT"
  let e ← expr r
  let _ ← optionalOrder r
  if ← keyword "LIMIT" then
    let _ ← bound r
  return .special "ARRAY_AGG" [e]

/-- The rest of a search in texts. -/
def matchCall : Parser Expr := do
  let _ ← nameList
  expectKeyword "AGAINST"
  bracketed do
    let _ ← constant
    if ← keywords ["IN", "NATURAL", "LANGUAGE", "MODE"] then
      let _ ← keywords ["WITH", "QUERY", "EXPANSION"]
    else if ← keywords ["IN", "BOOLEAN", "MODE"] then pure ()
    else
      let _ ← keywords ["WITH", "QUERY", "EXPANSION"]
  return .special "MATCH" []

/-- The rest of a row with named fields. -/
def rowCall (r : Rules) : Parser Expr := do
  let (typed, taken) ← rowType r
  if taken then fail
  else
    let field : Parser Expr := do
      let e ← expr r
      if ← keyword "AS" then
        if typed then fail
        else
          let _ ← name
      return e
    let fields ← bracketed (list field)
    return .special "STRUCT" fields

/-- A function of the moment, with or without arguments. -/
def momentCall (r : Rules) (k : String) : Parser Expr := do
  if ← symbol "(" then return .call [k] false (← orderedArguments r) false
  else return .special k []

/-! ## Operators behind an operand -/

/-- The character by which a pattern escapes its own. -/
def escapeCharacter : Parser (Option String) := do
  if ← keyword "ESCAPE" then
    let s ← literalText
    if s.utf8ByteSize = 1 then return some s else fail
  else return none

/-- The rest of a test whether a value is among others. -/
def among (r : Rules) (left : Expr) (negated : Bool) : Parser Expr := do
  if ← keyword "UNNEST" then
    return .special "UNNEST" [left, ← bracketed (expr r)]
  else
    bracketed do
      let k ← peekKeyword
      if k == "SELECT" || k == "WITH" then return .amongRows left (← r.query) negated
      else return .among left (← exprs r) negated

/-- The rest of a test behind `IS`. -/
def isTest (r : Rules) (left : Expr) : Parser Expr := do
  let negated ← keyword "NOT"
  if ← keyword "NULL" then return .truth left .null negated
  else if ← keyword "TRUE" then return .truth left .isTrue negated
  else if ← keyword "FALSE" then return .truth left .isFalse negated
  else if ← keyword "UNKNOWN" then return .truth left .unknown negated
  else if ← keywords ["DISTINCT", "FROM"] then
    return .special "DISTINCT FROM" [left, ← expr r]
  else fail

/-- The rest of a test with a pattern, a range or a set, in front of its keyword. -/
def patternTest (r : Rules) (left : Expr) : Parser Expr := do
  let negated ← keyword "NOT"
  match ← oneOf ("IN" :: "BETWEEN" :: patternKeywords) with
  | some "IN" => among r left negated
  | some "BETWEEN" =>
    let low ← r.operand comparisonPower
    expectKeyword "AND"
    let high ← r.operand comparisonPower
    return .between left low high negated
  | some "REGEXP" => return .like "REGEXP" left (← r.operand likePower) none negated
  | some "RLIKE" => return .like "RLIKE" left (← r.operand likePower) none negated
  | some k =>
    if k == "SIMILAR" then expectKeyword "TO"
    let pattern ← r.operand likePower
    return .like k left pattern (← escapeCharacter) negated
  | none => fail

/-- The name of an operator of somebody's own. -/
def customOperator : Parser Unit := fun σ ts =>
  let rec go : Nat → Parser Unit
    | 0 => fail
    | fuel + 1 => do
      let _ ← next
      if ← symbol "." then go fuel
  bracketed (go ts.length) σ ts

/-- The rest of a binary operation behind its operator. -/
def binary (r : Rules) (left : Expr) (op : String) (power : Nat) : Parser Expr := do
  match ← oneOf ["ANY", "ALL"] with
  | some k =>
    let right ← bracketed (r.operand power)
    if ["=", "==", "<>", ">", ">=", "<", "<="].contains op then return .special k [left, right]
    else fail
  | none => return .binary op left (← r.operand power)

/-- Symbols that stand between two operands. -/
def binarySymbols : List String :=
  ["<=>", "==", "=", "<>", ">", ">=", "<", "<=", "+", "-", "*", "%", "||", "|", "^", "&", "/",
   "//", "<<", ">>", "~", "~*", "!~", "!~*"]

/-- An operator of some power behind an operand, with what it needs behind it. -/
def operator (r : Rules) (left : Expr) (power : Nat) : Parser Expr := do
  match ← peek with
  | some (.symbol s) =>
    let _ ← next
    if binarySymbols.contains s then binary r left s power
    else
      match s with
      | "::" => return .cast left (← type r) false
      | "!" => return .special "FACTORIAL" [left]
      | ":" =>
        let _ ← constant
        return .special "MEMBER" [left]
      | "[" =>
        let i ← expr r
        expect "]"
        return .special "ELEMENT" [left, i]
      | s => return .special s [left, ← expr r]
  | some t =>
    match t.keyword with
    | "AND" | "OR" | "XOR" =>
      let _ ← next
      binary r left t.keyword power
    | "OPERATOR" =>
      let _ ← next
      customOperator
      binary r left "OPERATOR" power
    | "IS" =>
      let _ ← next
      isTest r left
    | "AT" =>
      expectKeywords ["AT", "TIME", "ZONE"]
      match ← next with
      | .text .plain _ => return .special "TIME ZONE" [left]
      | _ => fail
    | _ => patternTest r left
  | none => fail

/-! ## Operands -/

/-- The rest of an operand in brackets: a query, an expression or a tuple; behind it perhaps the
name of a part. -/
def bracketedOperand (r : Rules) : Parser Expr := do
  let k ← peekKeyword
  let e ←
    if k == "SELECT" || k == "WITH" then .subquery <$> r.query
    else do
      match ← exprs r with
      | [e] => pure (.bracketed e)
      | es => pure (.tuple es)
  expect ")"
  if ← symbol "." then
    match ← next with
    | .word _ _ => return .special "PART" [e]
    | _ => fail
  else return e

/-- The rest of a name behind its first part. -/
def nameBehind (first : String) : Parser (List String) := fun σ ts =>
  let rec go : Nat → List String → Parser (List String)
    | 0, _ => fail
    | fuel + 1, found => do
      if ← symbol "." then
        match ← next with
        | .word w _ => go fuel (w :: found)
        | .text .plain s => go fuel (s :: found)
        | _ => fail
      else return found.reverse
  go (ts.length + 1) [first] σ ts

/-- A text behind the word that tells its character set. -/
def introducedText (t : Option Token) : Bool :=
  match t with
  | some (.text .plain _) => true
  | some (.text .hexadecimal _) => true
  | _ => false

/-- An operand that begins with a word of no meaning of its own: a name or a call. -/
def namedOperand (r : Rules) (interval : Parser Expr) (w : String) : Parser Expr := do
  match ← peek with
  | some (.symbol "(") => call r interval [w]
  | some (.symbol ".") =>
    let p ← nameBehind w
    if ← atSymbol "(" then call r interval p else return .name p
  | t =>
    if introducedText t && w.toList.head? == some '_' then
      let _ ← next
      return .special "TEXT" []
    else return .name [w]

/-- A text behind the name of its type. Types of somebody's own do not count, lest every name in
front of a text were one. -/
def typedText (r : Rules) (interval : Parser Expr) : Parser Expr := do
  match ← type r with
  | .interval => interval
  | .custom _ => fail
  | .known k =>
    let _ ← literalText
    return .special k []

/-- Functions without arguments that name a user or a catalog. -/
def userKeywords : List String := ["CURRENT_CATALOG", "CURRENT_USER", "SESSION_USER", "USER"]

/-- Functions that give a moment. -/
def momentKeywords : List String :=
  ["CURRENT_TIMESTAMP", "CURRENT_TIME", "CURRENT_DATE", "LOCALTIME", "LOCALTIMESTAMP"]

/-- An operand that begins with a word, behind that word. -/
def wordOperand (r : Rules) (interval : Parser Expr) (t : Token) (w : String) : Parser Expr := do
  let k := t.keyword
  if userKeywords.contains k then return .special k []
  else if momentKeywords.contains k then momentCall r k
  else
    match k with
    | "TRUE" => return .constant (.bool true)
    | "FALSE" => return .constant (.bool false)
    | "NULL" => return .constant .null
    | "CASE" => choice r
    | "CAST" => castCall r false
    | "TRY_CAST" | "SAFE_CAST" => castCall r true
    | "EXISTS" => return .anyRow (← bracketedQuery r) false
    | "EXTRACT" => extractCall r
    | "CEIL" | "FLOOR" => roundingCall r k
    | "POSITION" => if ← atSymbol "(" then positionCall r else namedOperand r interval w
    | "SUBSTRING" => substringCall r
    | "OVERLAY" => overlayCall r
    | "TRIM" => trimCall r
    | "INTERVAL" => interval
    | "LISTAGG" => listaggCall r
    | "ARRAY" =>
      if ← symbol "[" then
        let items ← if ← atSymbol "]" then pure [] else exprs r
        expect "]"
        return .special "ARRAY" items
      else if ← atSymbol "(" then return .special "ARRAY" [.subquery (← bracketedQuery r)]
      else namedOperand r interval w
    | "ARRAY_AGG" => arrayAggCall r
    | "NOT" =>
      if ← keyword "EXISTS" then return .anyRow (← bracketedQuery r) true
      else return .unary "NOT" (← r.operand notPower)
    | "MATCH" => matchCall
    | "STRUCT" => rowCall r
    | _ => namedOperand r interval w

/-- An operand by its first token. -/
def plainOperand (r : Rules) (interval : Parser Expr) : Parser Expr := do
  match ← peek with
  | some (.word w q) =>
    let _ ← next
    wordOperand r interval (.word w q) w
  | some (.symbol "-") =>
    let _ ← next
    return .unary "-" (← r.operand productPower)
  | some (.symbol "+") =>
    let _ ← next
    return .unary "+" (← r.operand productPower)
  | some (.symbol "(") =>
    let _ ← next
    bracketedOperand r
  | some (.symbol "[") =>
    let _ ← next
    let items ← if ← atSymbol "]" then pure [] else exprs r
    expect "]"
    return .special "ARRAY" items
  | some (.symbol ":") => .constant <$> constant
  | some (.number _ _) => .constant <$> constant
  | some (.text _ _) => .constant <$> constant
  | _ => fail

/-- An operand, perhaps with the order of its characters. The first argument bounds the intervals
within intervals. -/
def operandRule (r : Rules) : Nat → Parser Expr
  | 0 => fail
  | fuel + 1 => do
    let interval := Parser.interval (operandRule r fuel) (operator r)
    match ← attempt (typedText r interval) with
    | some e => return e
    | none =>
      let e ← plainOperand r interval
      if ← keyword "COLLATE" then
        let _ ← path
        return .special "COLLATE" [e]
      else return e

/-- The operators behind an operand that bind stronger than a power. The first argument bounds
their number. -/
def operatorsBehind (r : Rules) (power : Nat) : Nat → Expr → Parser Expr
  | 0, _, _, _ => none
  | fuel + 1, left, σ, ts =>
    let next := operatorPower ts
    if next ≤ power then some (left, ts)
    else
      match operator r left next σ ts with
      | none => none
      | some (e, rest) => operatorsBehind r power fuel e σ rest

/-- An operand with the operators behind it that bind stronger than a power. -/
def exprRule (r : Rules) (power : Nat) : Parser Expr := fun σ ts =>
  match operandRule r (ts.length + 1) σ ts with
  | none => none
  | some (e, rest) => operatorsBehind r power (rest.length + 1) e σ rest

end Parser

end Enclave.Sql
