import Enclave.Script.Grammar.Pattern

/-!
# The statements of a script

A line holds simple statements with semicolons between them, or begins a compound statement with
a block: either statements on the same line, or a line end and lines further to the right.
-/

namespace Enclave.Script

namespace Reader

/-- The node of a statement. -/
def statementNode (parts : List Tree) : Tree := .node .statement parts

/-- The node of a part of a statement. -/
def clauseNode (parts : List Tree) : Tree := .node .clause parts

/-- Whether a simple statement ends in front of a token. -/
def endsStatement : Option Token → Bool
  | some .newline => true
  | t => isSymbol ";" t

/-! ## Assignments -/

/-- The operators that change a place. -/
def changing : List String :=
  ["+=", "-=", "*=", "@=", "/=", "%=", "&=", "|=", "^=", "<<=", ">>=", "**=", "//="]

/-- The value of an assignment. -/
def assigned (r : Rules) : Reader Tree := do
  if ← keyword "yield" then yielded r else expressions r

/-- The rest of an assignment behind the places of its first targets, the last of these first,
and behind the sign. The first argument bounds the number of signs. -/
def assignmentBehind (r : Rules) : Nat → List Tree → Reader Tree
  | 0, _ => wrong
  | fuel + 1, found => do
    if ← keyword "yield" then
      let t ← yielded r
      if ← atSymbol "=" then wrong else return statementNode (found.reverse ++ [t])
    else
      let t ← expressions r
      if ← symbol "=" then
        if t.isTarget then assignmentBehind r fuel (t :: found) else wrong
      else return statementNode (found.reverse ++ [t])

/-- A statement that begins with an expression: an assignment, a change, an annotation, or the
expression alone. -/
def expressionStatement (r : Rules) : Reader Tree := do
  let t ← expressions r
  if ← symbol "=" then
    if t.isTarget then fun levels ts => assignmentBehind r (ts.length + 1) [t] levels ts else wrong
  else if ← symbol ":" then
    if t.isPlace then
      let a ← r.expression
      let value ← if ← symbol "=" then (fun v => [v]) <$> assigned r else pure []
      return statementNode (t :: a :: value)
    else wrong
  else
    match ← peek with
    | some (.symbol s) =>
      if changing.contains s then
        let _ ← next
        if t.isPlace then return statementNode [t, ← assigned r] else wrong
      else return statementNode [t]
    | _ => return statementNode [t]

/-! ## Imports -/

/-- Names behind one with points between them. The first argument bounds their number. -/
def dottedBehind : Nat → String → Reader String
  | 0, _ => wrong
  | fuel + 1, found => do
    if ← symbol "." then dottedBehind fuel (found ++ "." ++ (← name)) else return found

/-- Names with points between them. -/
def dottedName : Reader String := do
  let n ← name
  fun levels ts => dottedBehind (ts.length + 1) n levels ts

/-- The other name that something imported gets. -/
def otherName : Reader Unit := do
  if ← keyword "as" then
    let _ ← name
    return ()
  else return ()

/-- A module that is imported. -/
def importedModule : Reader Tree := do
  let n ← dottedName
  otherName
  return .leaf (.imported n)

/-- A name that is imported. -/
def importedName : Reader Tree := do
  let n ← name
  otherName
  return .leaf (.imported n)

/-- An import of modules, behind its keyword. -/
def importModules : Reader Tree := do
  return .node .importing (← strictItems importedModule)

/-- The points in front of the module of an import. The first argument bounds their number. -/
def pointsBehind : Nat → Nat → Reader Nat
  | 0, n => return n
  | fuel + 1, n => do
    if ← symbol "." then pointsBehind fuel (n + 1)
    else if ← symbol "..." then pointsBehind fuel (n + 3)
    else return n

/-- The points in front of the module of an import. -/
def points : Reader Nat := fun levels ts => pointsBehind (ts.length + 1) 0 levels ts

/-- The names of an import: all, some between brackets, or some without. -/
def importedNames : Reader (List Tree) := do
  if ← symbol "*" then return [.leaf (.imported "*")]
  else if ← symbol "(" then
    if ← atSymbol ")" then wrong else closed ")" importedName
  else strictItems importedName

/-- An import of names from a module, behind its keyword. -/
def importNames : Reader Tree := do
  let level ← points
  let bare := level != 0 && isKeyword "import" (← peek)
  let module ← if bare then pure "" else dottedName
  expectKeyword "import"
  return .node (.importingFrom level module) (← importedNames)

/-! ## Simple statements -/

/-- Names of another scope, behind the keyword. -/
def scopeNames : Reader Tree := do
  let _ ← strictItems name
  return statementNode []

/-- What a function gives back, behind the keyword. -/
def returned (r : Rules) : Reader Tree := do
  if beginsExpression (← peek) then return statementNode [← expressions r]
  else return statementNode []

/-- What is raised, behind the keyword. -/
def raised (r : Rules) : Reader Tree := do
  if beginsExpression (← peek) then
    let e ← r.expression
    if ← keyword "from" then return statementNode [e, ← r.expression] else return statementNode [e]
  else return statementNode []

/-- A place that is deleted. -/
def deleted (r : Rules) : Reader Tree := do
  let t ← r.primary
  if t.isDeletable then return t else wrong

/-- The places that are deleted, behind the keyword. -/
def deletion (r : Rules) : Reader Tree := do
  let (ts, _) ← items (deleted r) endsStatement
  if endsStatement (← peek) then return statementNode ts else wrong

/-- A condition that has to hold, behind the keyword. -/
def assertion (r : Rules) : Reader Tree := do
  let e ← r.expression
  if ← symbol "," then return statementNode [e, ← r.expression] else return statementNode [e]

/-- A simple statement. -/
def simpleStatement (r : Rules) : Reader Tree := do
  match ← peek with
  | some (.keyword w) =>
    match w with
    | "pass" | "break" | "continue" =>
      let _ ← next
      return statementNode []
    | "return" => next *> returned r
    | "import" => next *> importModules
    | "from" => next *> importNames
    | "raise" => next *> raised r
    | "del" => next *> deletion r
    | "assert" => next *> assertion r
    | "global" | "nonlocal" => next *> scopeNames
    | "yield" => next *> (fun t => statementNode [t]) <$> yielded r
    | _ => expressionStatement r
  | _ => expressionStatement r

/-- Simple statements on one line, behind those already read, the last of these first. The first
argument bounds their number. -/
def simpleBehind (r : Rules) : Nat → List Tree → Reader (List Tree)
  | 0, _ => wrong
  | fuel + 1, found => do
    let t ← simpleStatement r
    let more ← symbol ";"
    match ← peek with
    | some .newline =>
      let _ ← next
      return (t :: found).reverse
    | _ => if more then simpleBehind r fuel (t :: found) else wrong

/-- Simple statements on one line. -/
def simpleStatements (r : Rules) : Reader (List Tree) := fun levels ts =>
  simpleBehind r (ts.length + 1) [] levels ts

/-! ## Blocks -/

/-- The levels that a block takes. -/
def blockLevels : Nat := 6

/-- Whether a block ends with the next token. -/
def atDedent : Reader Bool := takeIf fun t => match t with
  | some .dedent => true
  | _ => false

/-- Lines further to the right, behind the step, with the step back. -/
def indented {α : Type} (line : Reader α) : Reader (List α) := do
  let first ← line
  let rest ← many do if ← atDedent then return none else return some (← line)
  return first :: rest

/-- Takes a line end with a step to the right behind it. -/
def openBlock : Reader Bool := fun _ ts =>
  match ts with
  | .newline :: .indent :: rest => .ok (true, rest)
  | _ => .ok (false, ts)

/-- The statements of a block, behind the colon. -/
def block (r : Rules) : Reader (List Tree) := deeper blockLevels do
  if ← openBlock then return (← indented r.statement).flatten else simpleStatements r

/-- A colon and a block. -/
def body (r : Rules) : Reader (List Tree) := do
  expect ":"
  block r

/-- A block behind `else`, if there is one. -/
def elseBlock (r : Rules) : Reader (List Tree) := do
  if ← keyword "else" then body r else return []

/-! ## Compound statements -/

/-- A condition and its block, and what stands behind it. -/
def conditional (r : Rules) : Reader Tree := do
  let test ← namedExpression r
  let inside ← body r
  return statementNode (test :: inside ++ (← deeper 1 r.otherwise))

/-- What stands behind the block of a condition: another condition, or a block. -/
def otherwiseRule (r : Rules) : Reader (List Tree) := do
  if ← keyword "elif" then return [← conditional r] else elseBlock r

/-- A loop over a condition, behind its keyword. -/
def whileLoop (r : Rules) : Reader Tree := do
  let test ← namedExpression r
  let inside ← body r
  return statementNode (test :: inside ++ (← elseBlock r))

/-- A loop over values, behind its keyword. -/
def forLoop (r : Rules) : Reader Tree := do
  let place ← targets r
  expectKeyword "in"
  let source ← expressions r
  let inside ← body r
  return statementNode (place :: source :: inside ++ (← elseBlock r))

/-- A value that is held during a block, and the place that it is given to. -/
def heldItem (r : Rules) : Reader Tree := do
  let e ← r.expression
  if ← keyword "as" then return clauseNode [e, ← target r] else return clauseNode [e]

/-- Values that are held during a block, up to the colon. They may stand between brackets. -/
def heldItems (r : Rules) : Reader (List Tree) := do
  let bracketed ← attempt do
    expect "("
    let (found, _) ← deeper bracketLevels (items (heldItem r) (isSymbol ")"))
    expect ")"
    expect ":"
    return found
  match bracketed with
  | some found => return found
  | none =>
    let found ← strictItems (heldItem r)
    expect ":"
    return found

/-- A block during which values are held, behind its keyword. -/
def withStatement (r : Rules) : Reader Tree := do
  let held ← heldItems r
  return statementNode (held ++ (← block r))

/-- A handler: what it handles, and its block. The first result says whether it takes a part of
a group of errors. -/
def handler (r : Rules) : Reader (Option (Bool × Tree)) := do
  if ← keyword "except" then
    let group ← symbol "*"
    let bare ← atSymbol ":"
    let kind ← if bare && !group then pure [] else do
      let e ← r.expression
      if ← keyword "as" then
        let _ ← name
        pure [e]
      else pure [e]
    return some (group, clauseNode (kind ++ (← body r)))
  else return none

/-- A block at the very end, if there is one. -/
def finalBlock (r : Rules) : Reader (Option (List Tree)) := do
  if ← keyword "finally" then return some (← body r) else return none

/-- A block with handlers, behind its keyword: handlers of one kind, or a block at the very end. -/
def tryStatement (r : Rules) : Reader Tree := do
  let inside ← body r
  let handlers ← many (handler r)
  if handlers.any (·.1) && !handlers.all (·.1) then wrong
  else
    let otherwise ← if handlers.isEmpty then pure [] else elseBlock r
    match ← finalBlock r with
    | some last => return statementNode (inside ++ handlers.map (·.2) ++ otherwise ++ last)
    | none =>
      if handlers.isEmpty then wrong
      else return statementNode (inside ++ handlers.map (·.2) ++ otherwise)

/-- A function, behind its keyword. -/
def functionDefinition (r : Rules) (decorators : List Tree) : Reader Tree := do
  let _ ← name
  expect "("
  let ps ← parameters r true ")"
  let result ← if ← symbol "->" then (fun e => [e]) <$> r.expression else pure []
  let inside ← body r
  return statementNode (ps :: inside ++ decorators ++ result)

/-- A class, behind its keyword. -/
def classDefinition (r : Rules) (decorators : List Tree) : Reader Tree := do
  let _ ← name
  let bases ← if ← symbol "(" then do
      let args ← closed ")" (argument r)
      if inOrder (args.map (·.1)) then pure (argumentParts args) else wrong
    else pure []
  let inside ← body r
  return statementNode (bases ++ inside ++ decorators)

/-- A function or a class with what stands in front of it. -/
def decorated (r : Rules) : Reader Tree := do
  let decorators ← many do
    if ← symbol "@" then
      let e ← namedExpression r
      endOfLine
      return some e
    else return none
  if ← keyword "class" then classDefinition r decorators
  else
    let _ ← keyword "async"
    expectKeyword "def"
    functionDefinition r decorators

/-- A statement behind `async`. -/
def asyncStatement (r : Rules) : Reader Tree := do
  if ← keyword "def" then functionDefinition r []
  else if ← keyword "for" then forLoop r
  else if ← keyword "with" then withStatement r
  else wrong

/-! ## Cases -/

/-- The value whose cases are told apart: an expression, or a tuple without brackets. -/
def subject (r : Rules) : Reader Tree := do
  let (ts, comma) ← items (starNamed r) endsExpressions
  match ts, comma with
  | [t], false => if hasStar t then wrong else return t
  | _, _ => return .node .tuple ts

/-- The beginning of a statement with cases, up to the first case. -/
def casesHead (r : Rules) : Reader Tree := do
  if isName "match" (← peek) then
    let _ ← next
    let t ← subject r
    expect ":"
    if ← openBlock then return t else wrong
  else wrong

/-- A case: its pattern, its condition and its block. -/
def caseBlock (r : Rules) : Reader Tree := do
  if isName "case" (← peek) then
    let _ ← next
    let p ← casePattern r
    let guard ← if ← keyword "if" then (fun e => [e]) <$> namedExpression r else pure []
    return clauseNode (p :: guard ++ (← body r))
  else wrong

/-! ## Lines -/

/-- The statements that one line begins. -/
def statementRule (r : Rules) : Reader (List Tree) := do
  let one := fun (p : Reader Tree) => (fun t => [t]) <$> p
  match ← peek with
  | some (.keyword w) =>
    match w with
    | "if" => next *> one (conditional r)
    | "while" => next *> one (whileLoop r)
    | "for" => next *> one (forLoop r)
    | "try" => next *> one (tryStatement r)
    | "with" => next *> one (withStatement r)
    | "def" => next *> one (functionDefinition r [])
    | "class" => next *> one (classDefinition r [])
    | "async" => next *> one (asyncStatement r)
    | _ => simpleStatements r
  | t =>
    if isSymbol "@" t then one (decorated r)
    else if isName "match" t then
      match ← attempt (casesHead r) with
      | some s =>
        let cases ← deeper blockLevels (indented (caseBlock r))
        return [statementNode (s :: cases)]
      | none => simpleStatements r
    else simpleStatements r

/-! ## The knot -/

/-- The rules with a number of levels. -/
def rules : Nat → Rules
  | 0 =>
    let deep : Reader Tree := fun _ _ => .error .tooDeep
    let deepLines : Reader (List Tree) := fun _ _ => .error .tooDeep
    ⟨deep, deep, deep, deep, deep, deep, deep, deepLines, deepLines⟩
  | n + 1 =>
    { expression := fun levels ts => expressionRule (rules n) levels ts
      disjunction := fun levels ts => disjunctionRule (rules n) levels ts
      inversion := fun levels ts => inversionRule (rules n) levels ts
      operands := fun levels ts => operandsRule (rules n) levels ts
      factor := fun levels ts => factorRule (rules n) levels ts
      primary := fun levels ts => primaryRule (rules n) levels ts
      pattern := fun levels ts => patternRule (rules n) levels ts
      statement := fun levels ts => statementRule (rules n) levels ts
      otherwise := fun levels ts => otherwiseRule (rules n) levels ts }

/-- The supply of levels of a script. -/
def supply : Nat := 5970

/-- The statements of a whole script. -/
def statements : Reader (List Tree) := do
  let r := rules (2 * supply + 2)
  let lines ← many do
    match ← peek with
    | some _ => return some (← r.statement)
    | none => return none
  return lines.flatten

end Reader

/-- The syntax tree of a script. -/
def Tree.ofText (text : String) : Except Misreading Tree :=
  match tokens? (normalLines text.toList) with
  | none => .error .wrong
  | some ts => (Reader.statements Reader.supply ts).map fun r => .node .module r.1

end Enclave.Script
