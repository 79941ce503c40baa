import Enclave.Script.Grammar.Basic

/-!
# The expressions of a script

Operators bind in the order `binaryPower`, `**` stronger than a sign, comparisons weaker, then
`not`, `and`, `or` and conditional expressions. Brackets hold tuples, lists, sets, mappings and
comprehensions; behind a value stand calls, indices and attributes.
-/

namespace Enclave.Script

namespace Reader

/-- An expression without a role of its own. -/
def plainNode (parts : List Tree) : Tree := .node .expression parts

/-- Whether an expression may begin with a token, perhaps with a star. -/
def beginsExpression : Option Token → Bool
  | some (.name _) | some (.number _) | some (.text _) => true
  | some (.keyword w) => ["None", "True", "False", "not", "lambda", "await"].contains w
  | some (.symbol s) => ["(", "[", "\x7b", "-", "+", "~", "...", "*"].contains s
  | _ => false

/-- Whether no further expression begins with a token. -/
def endsExpressions (t : Option Token) : Bool := !beginsExpression t

/-- Expressions as one: a tuple unless there is a single one and no comma behind it. -/
def asTuple : List Tree × Bool → Tree
  | ([t], false) => t
  | (ts, _) => .node .tuple ts

/-! ## Operators -/

/-- How strong a binary operator binds. -/
def binaryPower (s : String) : Option Nat :=
  match s with
  | "|" => some 1
  | "^" => some 2
  | "&" => some 3
  | "<<" | ">>" => some 4
  | "+" | "-" => some 5
  | "*" | "/" | "//" | "%" | "@" => some 6
  | _ => none

/-- Joins an operand with the waiting ones whose operators bind at least as strong as a given
one. -/
def joinDown (power : Nat) : List (Tree × Nat) → Tree → List (Tree × Nat) × Tree
  | [], t => ([], t)
  | (left, p) :: waiting, t =>
    if power ≤ p then joinDown power waiting (plainNode [left, t]) else ((left, p) :: waiting, t)

/-- Operands with the operators in front of them, as one tree. -/
def joinBehind : List (Tree × Nat) → Tree → List (Nat × Tree) → Tree
  | waiting, t, [] => (joinDown 0 waiting t).2
  | waiting, t, (p, u) :: rest =>
    let (waiting, left) := joinDown p waiting t
    joinBehind ((left, p) :: waiting) u rest

/-- A binary operator. -/
def binaryOperator : Reader (Option Nat) := fun _ ts =>
  match ts with
  | .symbol s :: rest =>
    match binaryPower s with
    | some p => .ok (some p, rest)
    | none => .ok (none, ts)
  | _ => .ok (none, ts)

/-- Operands with binary operators between them. -/
def operation (operand : Reader Tree) : Reader Tree := do
  let first ← operand
  let rest ← many do
    match ← binaryOperator with
    | some p => return some (p, ← operand)
    | none => return none
  return joinBehind [] first rest

/-- Takes a comparison if it is next. -/
def comparisonOperator : Reader Bool := fun _ ts =>
  match ts with
  | .symbol s :: rest =>
    if ["==", "!=", "<=", "<", ">=", ">"].contains s then .ok (true, rest) else .ok (false, ts)
  | .keyword "in" :: rest => .ok (true, rest)
  | .keyword "not" :: .keyword "in" :: rest => .ok (true, rest)
  | .keyword "is" :: .keyword "not" :: rest => .ok (true, rest)
  | .keyword "is" :: rest => .ok (true, rest)
  | _ => .ok (false, ts)

/-- Operands with something between them, flat under one node if there are several. -/
def flat (operand : Reader Tree) (between : Reader Bool) : Reader Tree := do
  let first ← operand
  let rest ← many do if ← between then return some (← operand) else return none
  return if rest.isEmpty then first else plainNode (first :: rest)

/-! ## Targets -/

/-- A place for a value, or several in brackets; a star may stand in front. -/
def target (r : Rules) : Reader Tree := do
  let star ← symbol "*"
  let t ← r.primary
  if !t.isTarget then wrong
  else return if star then .node .starred [t] else t

/-- Places for values with commas between them. -/
def targets (r : Rules) : Reader Tree := do
  return asTuple (← items (target r) endsExpressions)

/-! ## Parameters -/

/-- The parameters of a function that were read so far, the last ones first. -/
structure Parameters where
  plain : List Tree
  defaults : List Tree
  /-- Whether the parameters before are given by position alone. -/
  slash : Bool
  /-- The parameter for further positions. -/
  further : List Tree
  star : Bool
  named : List Tree
  namedDefaults : List Tree
  /-- The parameter for further names. -/
  rest : List Tree

namespace Parameters

/-- No parameters. -/
def none : Parameters := ⟨[], [], false, [], false, [], [], []⟩

/-- The node of some parameters. -/
def node (ps : Parameters) : Tree :=
  .node .parameter (ps.plain.reverse ++ ps.further ++ ps.named.reverse ++
    ps.namedDefaults.reverse ++ ps.rest ++ ps.defaults.reverse)

/-- Whether something has to follow: the star alone wants a name behind it. -/
def isOpen (ps : Parameters) : Bool := ps.star && ps.further.isEmpty && ps.named.isEmpty

/-- With one more parameter, unless one without a default follows one with a default. -/
def add (ps : Parameters) (p : Tree) (default : Option Tree) : Option Parameters :=
  if ps.star then
    some { ps with named := p :: ps.named, namedDefaults := default.toList ++ ps.namedDefaults }
  else
    match default with
    | some d => some { ps with plain := p :: ps.plain, defaults := d :: ps.defaults }
    | .none => if ps.defaults.isEmpty then some { ps with plain := p :: ps.plain } else .none

end Parameters

/-- The annotation of a parameter. -/
def annotation (annotated : Bool) (p : Reader Tree) : Reader (List Tree) := do
  if annotated then if ← symbol ":" then return [← p] else return [] else return []

/-- A name with its annotation. -/
def parameter (r : Rules) (annotated : Bool) : Reader Tree := do
  let _ ← name
  return .node .parameter (← annotation annotated r.expression)

/-- An operand with a star in front, or what stands without one. -/
def starredOr (operand : Reader Tree) (otherwise : Reader Tree) : Reader Tree := do
  if ← symbol "*" then return .node .starred [← operand] else otherwise

/-- One entry of a list of parameters. -/
def parameterEntry (r : Rules) (annotated : Bool) (ps : Parameters) :
    Reader Parameters := do
  if !ps.rest.isEmpty then wrong
  else if ← symbol "/" then
    if ps.slash || ps.star || ps.plain.isEmpty then wrong else return { ps with slash := true }
  else if ← symbol "**" then
    if ps.isOpen then wrong else return { ps with rest := [← parameter r annotated] }
  else if ← symbol "*" then
    if ps.star then wrong
    else if ← atSymbol "," then return { ps with star := true }
    else
      let _ ← name
      let a ← annotation annotated (starredOr r.operands r.expression)
      return { ps with star := true, further := [.node .parameter a] }
  else
    let p ← parameter r annotated
    let default ← if ← symbol "=" then some <$> r.expression else pure none
    match ps.add p default with
    | some ps => return ps
    | none => wrong

/-- Parameters behind those already read, up to a closing symbol. The first argument bounds the
number of entries. -/
def parametersBehind (r : Rules) (annotated : Bool) (close : String) :
    Nat → Parameters → Reader Tree
  | 0, _ => wrong
  | fuel + 1, ps => do
    if ← symbol close then
      if ps.isOpen then wrong else return ps.node
    else
      let ps ← parameterEntry r annotated ps
      if ← symbol "," then parametersBehind r annotated close fuel ps
      else if ps.isOpen then wrong
      else
        expect close
        return ps.node

/-- Parameters up to a closing symbol. -/
def parameters (r : Rules) (annotated : Bool) (close : String) :
    Reader Tree := fun levels ts =>
  parametersBehind r annotated close (ts.length + 1) .none levels ts

/-! ## Arguments -/

/-- What an argument of a call is. -/
inductive ArgumentKind where
  | plain
  | starred
  | named
  | doubleStarred
  deriving Repr, DecidableEq

/-- Whether arguments of these kinds may follow each other: no plain one stands behind a named
one, and no plain or starred one behind two stars. -/
def inOrder : List ArgumentKind → Bool
  | [] => true
  | k :: ks =>
    (match k with
      | .plain | .starred => true
      | .named => !ks.contains .plain
      | .doubleStarred => !ks.contains .plain && !ks.contains .starred) && inOrder ks

/-- The arguments of a call in the order of its parts: those by position before those by name. -/
def argumentParts (args : List (ArgumentKind × Tree)) : List Tree :=
  let byName := fun (a : ArgumentKind × Tree) =>
    match a.1 with
    | .named | .doubleStarred => true
    | _ => false
  (args.filter (!byName ·) ++ args.filter byName).map (·.2)

/-- Whether a name and a symbol behind it are next. -/
def atNameAnd (s : String) : Reader Bool := fun _ ts =>
  match ts with
  | .name _ :: t :: _ => .ok (isSymbol s (some t), ts)
  | _ => .ok (false, ts)

/-- An expression that may get a name. -/
def namedExpression (r : Rules) : Reader Tree := do
  if ← atNameAnd ":=" then
    let n ← name
    expect ":="
    return plainNode [.leaf (.name n), ← r.expression]
  else
    let e ← r.expression
    if ← atSymbol ":=" then wrong else return e

/-- An argument of a call. -/
def argument (r : Rules) : Reader (ArgumentKind × Tree) := do
  if ← symbol "*" then return (.starred, .node .starred [← r.expression])
  else if ← symbol "**" then return (.doubleStarred, .node .argument [← r.expression])
  else if ← atNameAnd "=" then
    let _ ← name
    expect "="
    return (.named, .node .argument [← r.expression])
  else
    let e ← namedExpression r
    if ← atSymbol "=" then wrong else return (.plain, e)

/-! ## Comprehensions -/

/-- Whether a comprehension goes on. -/
def atClause : Reader Bool := fun _ ts =>
  .ok (isKeyword "for" ts.head? || (isKeyword "async" ts.head? && isKeyword "for" ts[1]?), ts)

/-- The clauses of a comprehension. -/
def clauses (r : Rules) : Reader (List Tree) := many do
  if ← atClause then
    let _ ← keyword "async"
    expectKeyword "for"
    let t ← targets r
    expectKeyword "in"
    let source ← r.disjunction
    let conditions ← many do
      if ← keyword "if" then return some (← r.disjunction) else return none
    return some (.node .clause (t :: source :: conditions))
  else return none

/-- The rest of a comprehension behind its element, up to a closing symbol. -/
def comprehension (r : Rules) (element : List Tree) (close : String) : Reader Tree := do
  let cs ← clauses r
  expect close
  return plainNode (element ++ cs)

/-- The arguments of a call behind its opening bracket. -/
def arguments (r : Rules) : Reader (List Tree) := do
  if ← symbol ")" then return []
  else
    let first ← argument r
    if first.1 = .plain && (← atClause) then return [← comprehension r [first.2] ")"]
    else
      let rest ← if ← symbol "," then closed ")" (argument r) else
        expect ")"
        pure []
      let all := first :: rest
      if inOrder (all.map (·.1)) then return argumentParts all else wrong

/-! ## Indices -/

/-- An expression unless one of some symbols is next. -/
def optionalBefore (ends : List String) (e : Reader Tree) : Reader (List Tree) := do
  match ← peek with
  | some (.symbol s) => if ends.contains s then return [] else return [← e]
  | _ => return [← e]

/-- The rest of a range of indices behind its first colon. -/
def rangeBehind (r : Rules) (lower : List Tree) : Reader Tree := do
  let upper ← optionalBefore [":", ",", "]"] r.expression
  let step ← if ← symbol ":" then optionalBefore [",", "]"] r.expression else pure []
  return plainNode (lower ++ upper ++ step)

/-- One index, and whether it has a star. -/
def index (r : Rules) : Reader (Tree × Bool) := do
  if ← symbol "*" then return (.node .starred [← r.expression], true)
  else if ← symbol ":" then return (← rangeBehind r [], false)
  else if ← atNameAnd ":=" then return (← namedExpression r, false)
  else
    let e ← r.expression
    if ← symbol ":" then return (← rangeBehind r [e], false) else return (e, false)

/-- The indices of a value behind the opening bracket. -/
def indices (r : Rules) : Reader Tree := do
  let (found, comma) ← items (index r) (isSymbol "]")
  expect "]"
  match found, comma with
  | [(t, false)], false => return t
  | _, _ => return .node .tuple (found.map (·.1))

/-! ## Texts -/

/-- The expression of a field, read as if it stood between round brackets. -/
def fieldValue (value : Reader Tree) (code : List Char) : Reader Tree := fun levels ts =>
  match tokens? ('(' :: code ++ [')']) with
  | none => .error .wrong
  | some inner =>
    match value levels inner with
    | .ok (t, [.newline]) => .ok (t, ts)
    | .ok _ => .error .wrong
    | .error e => .error e

mutual

/-- A piece of a text with fields. -/
def pieceNode (value : Reader Tree) : Quotation.Piece → Reader Tree
  | .plain => return .leaf .expression
  | .field code none => return plainNode [← fieldValue value code]
  | .field code (some format) => do
    let v ← fieldValue value code
    return plainNode [v, plainNode (← pieceNodes value format)]

/-- The pieces of a text with fields. -/
def pieceNodes (value : Reader Tree) : List Quotation.Piece → Reader (List Tree)
  | [] => return []
  | p :: ps => do
    let t ← pieceNode value p
    return t :: (← pieceNodes value ps)

end

/-- The text that is next. -/
def nextText : Reader (Option Quotation.Content) := fun _ ts =>
  match ts with
  | .text c :: rest => .ok (some c, rest)
  | _ => .ok (none, ts)

/-- The parts of a text, if it has fields. -/
def contentParts (value : Reader Tree) : Quotation.Content → Reader (Option (List Tree))
  | .formatted ps => some <$> pieceNodes value ps
  | _ => return none

/-- Whether a text holds bytes. -/
def holdsBytes : Quotation.Content → Bool
  | .bytes => true
  | _ => false

/-- Texts in a row, which are one; bytes and characters do not mix. -/
def texts (value : Reader Tree) : Reader Tree := do
  let all ← many nextText
  if all.any holdsBytes && !all.all holdsBytes then wrong
  else
    let parts ← all.mapM (contentParts value)
    if parts.any Option.isSome then
      return plainNode ((parts.map fun p => p.getD [.leaf .expression]).flatten)
    else return .leaf .expression

/-! ## Brackets -/

/-- An expression that may have a star or get a name. -/
def starNamed (r : Rules) : Reader Tree :=
  starredOr r.operands (namedExpression r)

/-- Whether a tree has a star in front. -/
def hasStar (t : Tree) : Bool := t.form == .starred

/-- What `yield` gives away, behind the keyword. -/
def yielded (r : Rules) : Reader Tree := do
  if ← keyword "from" then return plainNode [← r.expression]
  else if beginsExpression (← peek) then
    return plainNode [asTuple (← items (starredOr r.operands r.expression) endsExpressions)]
  else return plainNode []

/-- What stands behind an opening round bracket: an expression, a tuple or a comprehension. -/
def round (r : Rules) : Reader Tree := do
  if ← symbol ")" then return .node .tuple []
  else if ← keyword "yield" then
    let t ← yielded r
    expect ")"
    return t
  else
    let first ← starNamed r
    if ← symbol "," then return .node .tuple (first :: (← closed ")" (starNamed r)))
    else if hasStar first then wrong
    else if ← atClause then comprehension r [first] ")"
    else
      expect ")"
      return first

/-- What stands behind an opening square bracket: a list or a comprehension. -/
def square (r : Rules) : Reader Tree := do
  if ← symbol "]" then return .node .list []
  else
    let first ← starNamed r
    if ← symbol "," then return .node .list (first :: (← closed "]" (starNamed r)))
    else if ← atClause then if hasStar first then wrong else comprehension r [first] "]"
    else
      expect "]"
      return .node .list [first]

/-- An entry of a mapping: its key, if it has one, and its value. -/
def entry (r : Rules) : Reader (List Tree × Tree) := do
  if ← symbol "**" then return ([], ← r.operands)
  else
    let k ← r.expression
    expect ":"
    return ([k], ← r.expression)

/-- A mapping: all keys before all values. -/
def mappingNode (entries : List (List Tree × Tree)) : Tree :=
  plainNode ((entries.map (·.1)).flatten ++ entries.map (·.2))

/-- What stands behind an opening curly bracket: a mapping, a set or a comprehension. -/
def curly (r : Rules) : Reader Tree := do
  if ← symbol "\x7d" then return plainNode []
  else if ← atSymbol "**" then return mappingNode (← closed "\x7d" (entry r))
  else
    let named ← atNameAnd ":="
    let first ← starNamed r
    if !named && !hasStar first && (← symbol ":") then
      let value ← r.expression
      if ← atClause then comprehension r [first, value] "\x7d"
      else
        let rest ← if ← symbol "," then closed "\x7d" (entry r) else
          expect "\x7d"
          pure []
        return mappingNode (([first], value) :: rest)
    else if ← atClause then if hasStar first then wrong else comprehension r [first] "\x7d"
    else
      let rest ← if ← symbol "," then closed "\x7d" (starNamed r) else
        expect "\x7d"
        pure []
      return plainNode (first :: rest)

/-! ## Values -/

/-- Expressions with commas between them, perhaps with stars. -/
def expressions (r : Rules) : Reader Tree := do
  return asTuple (← items (starredOr r.operands r.expression) endsExpressions)

/-- A value without anything behind it. -/
def atom (r : Rules) : Reader Tree := do
  match ← peek with
  | some (.text _) => texts (deeper 1 (expressions r))
  | _ =>
    match ← next with
    | .name n => return .leaf (.name n)
    | .number _ => return .leaf .expression
    | .keyword w => if ["None", "True", "False"].contains w then return .leaf .expression else wrong
    | .symbol s =>
      match s with
      | "..." => return .leaf .expression
      | "(" => deeper bracketLevels (round r)
      | "[" => deeper bracketLevels (square r)
      | "\x7b" => deeper bracketLevels (curly r)
      | _ => wrong
    | _ => wrong

/-- What stands behind a value, added to it until nothing does. The first argument bounds the
number of steps. -/
def suffixesBehind (r : Rules) : Nat → Tree → Reader Tree
  | 0, _ => wrong
  | fuel + 1, t => do
    if ← symbol "." then
      let n ← name
      suffixesBehind r fuel (.node (.attribute n) [t])
    else if ← symbol "(" then
      let args ← deeper bracketLevels (arguments r)
      suffixesBehind r fuel (.node .call (t :: args))
    else if ← symbol "[" then
      let i ← deeper bracketLevels (indices r)
      suffixesBehind r fuel (.node .subscript [t, i])
    else return t

/-- A value with everything behind it. -/
def primaryRule (r : Rules) : Reader Tree := do
  let t ← atom r
  fun levels ts => suffixesBehind r (ts.length + 1) t levels ts

/-- A value for which `await` may wait, with its power. -/
def power (r : Rules) : Reader Tree := do
  let base ← if ← keyword "await" then (plainNode [·]) <$> primaryRule r else primaryRule r
  if ← symbol "**" then return plainNode [base, ← deeper 2 r.factor] else return base

/-- A value with its signs and its power. -/
def factorRule (r : Rules) : Reader Tree := do
  match ← peek with
  | some (.symbol s) =>
    if ["+", "-", "~"].contains s then
      let _ ← next
      return plainNode [← deeper 1 r.factor]
    else power r
  | _ => power r

/-- Operands with binary operators between them. -/
def operandsRule (r : Rules) : Reader Tree := operation (factorRule r)

/-- Comparisons of operands, perhaps negated. -/
def inversionRule (r : Rules) : Reader Tree := do
  if ← keyword "not" then return plainNode [← deeper 1 r.inversion]
  else flat (operandsRule r) comparisonOperator

/-- An expression without a condition. -/
def disjunctionRule (r : Rules) : Reader Tree :=
  flat (flat (inversionRule r) (keyword "and")) (keyword "or")

/-- A function without a name, behind its keyword. -/
def function (r : Rules) : Reader Tree := do
  let ps ← parameters r false ":"
  return plainNode [ps, ← r.expression]

/-- An expression. The condition of a conditional one comes before both values. -/
def expressionRule (r : Rules) : Reader Tree := do
  if ← keyword "lambda" then deeper 2 (function r)
  else
    let value ← disjunctionRule r
    if ← keyword "if" then
      let condition ← disjunctionRule r
      expectKeyword "else"
      return plainNode [condition, value, ← deeper 1 r.expression]
    else return value

end Reader

end Enclave.Script
