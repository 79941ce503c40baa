import Enclave.Sql.Syntax

/-!
# Reading tokens

A parser takes tokens from the front of a list, or fails. It knows how many levels of nesting it
may still enter and whether a list may end with a comma.

The rules of the grammar refer to each other. Those that do so with a nesting are gathered in
`Rules`; every other rule is a plain function of them, and the knot is tied once, with as many
levels as the statement has tokens.
-/

namespace Enclave.Sql

/-- What a parser has to know besides the tokens. -/
structure Setting where
  /-- The levels of nesting that may still be entered. -/
  depth : Nat
  /-- Whether a list may end with a comma. -/
  openLists : Bool

/-- A parser: what it read, and the tokens behind it. -/
abbrev Parser (α : Type) := ReaderT Setting (StateT (List Token) Option) α

/-- The rules by which the grammar refers to itself. -/
structure Rules where
  /-- An expression whose operators bind stronger than a power. -/
  operand : Nat → Parser Expr
  query : Parser Query
  /-- A query without order and bounds, combined by operators stronger than a power. -/
  body : Nat → Parser Body
  tables : Parser Joined
  /-- A type, and whether it also took the closing bracket of the type around it. -/
  typeName : Parser (TypeName × Bool)
  statement : Parser Statement

namespace Parser

/-- The parser that fails. -/
def fail {α : Type} : Parser α := fun _ _ => none

/-- The next token, left in place. -/
def peek : Parser (Option Token) := fun _ ts => some (ts.head?, ts)

/-- The token some places ahead, left in place. -/
def peekAt (n : Nat) : Parser (Option Token) := fun _ ts => some (ts[n]?, ts)

/-- The next token. -/
def next : Parser Token := fun _ ts =>
  match ts with
  | t :: rest => some (t, rest)
  | [] => none

/-- The word by which the next token may be a keyword. -/
def peekKeyword : Parser String := fun _ ts => some ((ts.head?.map Token.keyword).getD "", ts)

/-- The word by which a token further ahead may be a keyword. -/
def keywordAt (n : Nat) : Parser String := fun _ ts =>
  some ((ts[n]?.map Token.keyword).getD "", ts)

/-- Whether the next token is a symbol. -/
def atSymbol (s : String) : Parser Bool := fun _ ts => some (ts.head? == some (.symbol s), ts)

/-- Takes a symbol if it is next. -/
def symbol (s : String) : Parser Bool := fun _ ts =>
  match ts with
  | t :: rest => if t = .symbol s then some (true, rest) else some (false, ts)
  | [] => some (false, ts)

/-- Takes a symbol, or fails. -/
def expect (s : String) : Parser Unit := fun _ ts =>
  match ts with
  | t :: rest => if t = .symbol s then some ((), rest) else none
  | [] => none

/-- The tokens behind a sequence of keywords. -/
def behindKeywords : List String → List Token → Option (List Token)
  | [], ts => some ts
  | k :: ks, t :: ts => if t.keyword = k then behindKeywords ks ts else none
  | _ :: _, [] => none

/-- Takes a sequence of keywords if all of them are next. -/
def keywords (ks : List String) : Parser Bool := fun _ ts =>
  match behindKeywords ks ts with
  | some rest => some (true, rest)
  | none => some (false, ts)

/-- Takes a keyword if it is next. -/
def keyword (k : String) : Parser Bool := keywords [k]

/-- Takes a sequence of keywords, or fails. -/
def expectKeywords (ks : List String) : Parser Unit := fun _ ts =>
  (behindKeywords ks ts).map fun rest => ((), rest)

/-- Takes a keyword, or fails. -/
def expectKeyword (k : String) : Parser Unit := expectKeywords [k]

/-- Takes one of some keywords if it is next. -/
def oneOf (ks : List String) : Parser (Option String) := fun _ ts =>
  match ts with
  | t :: rest => if ks.contains t.keyword then some (some t.keyword, rest) else some (none, ts)
  | [] => some (none, ts)

/-- Takes one of some keywords, or fails. -/
def expectOneOf (ks : List String) : Parser String := do
  match ← oneOf ks with
  | some k => return k
  | none => fail

/-- What a parser reads, or nothing with every token left in place. -/
def attempt {α : Type} (p : Parser α) : Parser (Option α) := fun σ ts =>
  match p σ ts with
  | some (a, rest) => some (some a, rest)
  | none => some (none, ts)

/-- The parser if a condition holds. -/
def only {α : Type} (b : Bool) (p : Parser α) : Parser (Option α) :=
  if b then some <$> p else return none

/-- A parser one level of nesting deeper. -/
def deeper {α : Type} (p : Parser α) : Parser α := fun σ ts =>
  if σ.depth = 0 then none else p { σ with depth := σ.depth - 1 } ts

/-- A parser between round brackets. -/
def bracketed {α : Type} (p : Parser α) : Parser α := do
  expect "("
  let a ← p
  expect ")"
  return a

/-- Whether a list that may end with a comma ends in front of these tokens. -/
def endsList : List Token → Bool
  | [] => true
  | .symbol s :: _ => [")", ";", "]", "\x7d"].contains s
  | t :: _ => reservedBehindItem.contains t.keyword

/-- The rest of a list whose first items were read, the last of these first. The first argument
bounds the number of items. -/
def listBehind {α : Type} (p : Parser α) : Nat → List α → Parser (List α)
  | 0, _, _, _ => none
  | fuel + 1, found, σ, ts =>
    match p σ ts with
    | none => none
    | some (a, .symbol "," :: rest) =>
      if σ.openLists && endsList rest then some ((a :: found).reverse, rest)
      else listBehind p fuel (a :: found) σ rest
    | some (a, rest) => some ((a :: found).reverse, rest)

/-- Items with commas between them. -/
def list {α : Type} (p : Parser α) : Parser (List α) := fun σ ts =>
  listBehind p (ts.length + 1) [] σ ts

/-- Repeats a parser until it reads nothing. The first argument bounds the number of steps. -/
def manyBehind {α : Type} (p : Parser (Option α)) : Nat → List α → Parser (List α)
  | 0, _, _, _ => none
  | fuel + 1, found, σ, ts =>
    match p σ ts with
    | none => none
    | some (none, rest) => some (found.reverse, rest)
    | some (some a, rest) => manyBehind p fuel (a :: found) σ rest

/-- Repeats a parser until it reads nothing. -/
def many {α : Type} (p : Parser (Option α)) : Parser (List α) := fun σ ts =>
  manyBehind p (ts.length + 1) [] σ ts

/-! ## Names -/

/-- A name: a word, or a text between single quotes. -/
def name : Parser String := do
  match ← next with
  | .word w _ => return w
  | .text .plain s => return s
  | _ => fail

/-- A name with those in front of it, points between them. -/
def path : Parser (List String) := fun σ ts =>
  let rec go : Nat → List String → Parser (List String)
    | 0, _ => fail
    | fuel + 1, found => do
      let n ← name
      if ← symbol "." then go fuel (n :: found) else return (n :: found).reverse
  go (ts.length + 1) [] σ ts

/-- Names between brackets. -/
def nameList : Parser (List String) := bracketed (list name)

/-- Names between brackets, or nothing. -/
def optionalNameList : Parser (List String) := do
  if ← atSymbol "(" then nameList else return []

/-- The label behind something: any word behind `AS`, and without it one that is not reserved. -/
def label (reserved : List String) : Parser (Option String) := do
  let announced ← keyword "AS"
  match ← peek with
  | some (.word w q) =>
    if announced || !reserved.contains (Token.word w q).keyword then
      let _ ← next
      return some w
    else return none
  | some (.text .plain s) =>
    let _ ← next
    return some s
  | _ => if announced then fail else return none

/-- The label behind a table, perhaps with labels of its columns. -/
def tableLabel : Parser (Option String) := do
  match ← label reservedBehindTable with
  | some l =>
    let _ ← optionalNameList
    return some l
  | none => return none

/-! ## Constants -/

/-- The largest unsigned number of 64 bits. -/
def maxCount : Nat := UInt64.size - 1

/-- A whole number without a sign. -/
def count : Parser Nat := do
  match ← next with
  | .number digits _ =>
    if digits.toList.all Char.isDigit then
      let n := digits.toList.foldl (fun n d => n * 10 + (d.toNat - '0'.toNat)) 0
      if n ≤ maxCount then return n else fail
    else fail
  | _ => fail

/-- A text where the grammar wants one, or a word that is no keyword. -/
def literalText : Parser String := do
  match ← next with
  | .text .plain s => return s
  | .text .escaped s => return s
  | .word w q => if (Token.word w q).isKeyword then fail else return w
  | _ => fail

/-- Keywords that are read as constants where a value is wanted. -/
def valueKeywords : List String := ["LOCATION", "TYPE", "DATE"]

/-- A constant. -/
def constant : Parser Constant := do
  match ← next with
  | .number digits _ => return .number digits
  | .text .plain s => return .text s
  | .text _ _ => return .special
  | .symbol ":" =>
    match ← next with
    | .word _ _ => return .special
    | .number _ long => if long then fail else return .special
    | _ => fail
  | .word w q =>
    match (Token.word w q).keyword with
    | "TRUE" => return .bool true
    | "FALSE" => return .bool false
    | "NULL" => return .null
    | k =>
      if !(Token.word w q).isKeyword || valueKeywords.contains k then return .special else fail
  | _ => fail

/-- A number, or a parameter. -/
def numberConstant : Parser Constant := do
  let named ← match ← peek with
    | some (.word _ _) => pure true
    | some (.text _ _) => pure true
    | _ => pure false
  if named then fail else constant

/-- A part of a date or a time. -/
def datePart : Parser Unit := do
  let _ ← expectOneOf dateParts

end Parser

end Enclave.Sql
