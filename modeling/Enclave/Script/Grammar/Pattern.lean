import Enclave.Script.Grammar.Expression

/-!
# The patterns of cases

A pattern is a literal, a name that is bound, a name with attributes that is compared, a sequence,
a mapping, a class with the patterns of its attributes, or several patterns as alternatives. Only
names that are compared or called are names of the tree; a bound name is no access to anything.
-/

namespace Enclave.Script

namespace Reader

/-- The node of a pattern. -/
def patternNode (parts : List Tree) : Tree := .node .pattern parts

/-- A number of a kind. -/
def numeral (imaginary : Bool) : Reader Unit := do
  match ← next with
  | .number i => if i == imaginary then return () else wrong
  | _ => wrong

/-- A number with or without a sign, or the sum or difference of such a real number and an
imaginary one. -/
def numberLiteral : Reader Tree := do
  let negative ← symbol "-"
  let real ← match ← next with
    | .number imaginary => pure !imaginary
    | _ => wrong
  let value := if negative then plainNode [.leaf .expression] else .leaf .expression
  if (← symbol "+") || (← symbol "-") then
    if real then
      numeral true
      return plainNode [value, .leaf .expression]
    else wrong
  else return value

/-- Whether a literal begins with the next token. -/
def atLiteral : Reader Bool := fun _ ts =>
  .ok (match ts.head? with
    | some (.number _) | some (.text _) => true
    | some (.symbol s) => s == "-"
    | some (.keyword w) => ["None", "True", "False"].contains w
    | _ => false, ts)

/-- A literal; the values without a node of their own have none. -/
def literal (r : Rules) : Reader (List Tree) := do
  match ← peek with
  | some (.text _) => return [← texts (deeper 1 (expressions r))]
  | some (.keyword _) =>
    let _ ← next
    return []
  | _ => return [← numberLiteral]

/-- Attributes behind a value. The first argument bounds their number. -/
def attributesBehind : Nat → Tree → Reader Tree
  | 0, _ => wrong
  | fuel + 1, t => do
    if ← symbol "." then attributesBehind fuel (.node (.attribute (← name)) [t]) else return t

/-- A name with its attributes. -/
def attributes : Reader Tree := do
  let n ← name
  fun levels ts => attributesBehind (ts.length + 1) (.leaf (.name n)) levels ts

/-- A name that is bound, other than the one for anything. -/
def captured : Reader Unit := do
  if (← name) == "_" then wrong
  else
    match ← peek with
    | some (.symbol s) => if [".", "(", "="].contains s then wrong else return ()
    | _ => return ()

/-- A pattern that may stand for the rest of a sequence. -/
def starPattern (r : Rules) : Reader (Tree × Bool) := do
  if ← symbol "*" then
    if isName "_" (← peek) then
      let _ ← name
      return (.leaf .pattern, true)
    else
      captured
      return (.leaf .pattern, true)
  else return (← r.pattern, false)

/-- The rest of a sequence between brackets, with the closing one. -/
def sequenceBehind (r : Rules) (close : String) (first : Tree) : Reader Tree := do
  return patternNode (first :: (← closed close (starPattern r)).map (·.1))

/-- A pattern between round brackets, or a sequence. -/
def roundPattern (r : Rules) : Reader Tree := do
  if ← symbol ")" then return patternNode []
  else
    let (first, star) ← starPattern r
    if ← symbol "," then sequenceBehind r ")" first
    else if star then wrong
    else
      expect ")"
      return first

/-- What an entry of a mapping pattern is: a key with its pattern, or the rest. -/
def mappingEntry (r : Rules) : Reader (Option (Tree × Tree)) := do
  if ← symbol "**" then
    captured
    return none
  else
    let key ← if ← atLiteral then literal r else do
      let t ← attributes
      match t.form with
      | .attribute _ => pure [t]
      | _ => wrong
    expect ":"
    return some (key.headD (.leaf .expression), ← r.pattern)

/-- A mapping pattern behind its bracket: the rest comes last, and at most once. -/
def curlyPattern (r : Rules) : Reader Tree := do
  let entries ← closed "\x7d" (mappingEntry r)
  if entries.dropLast.any Option.isNone then wrong
  else
    let pairs := entries.filterMap id
    return patternNode (pairs.map (·.1) ++ pairs.map (·.2))

/-- The pattern of an attribute of a class, and whether the attribute is named. -/
def classEntry (r : Rules) : Reader (Tree × Bool) := do
  if ← atNameAnd "=" then
    let _ ← name
    expect "="
    return (← r.pattern, true)
  else return (← r.pattern, false)

/-- The patterns of the attributes of a class, behind the bracket: those without a name first. -/
def classPattern (r : Rules) (cls : Tree) : Reader Tree := do
  let entries ← closed ")" (classEntry r)
  if (entries.dropWhile (!·.2)).all (·.2) then return patternNode (cls :: entries.map (·.1))
  else wrong

/-- A pattern that begins with a name: anything, a name that is bound, a name with attributes that
is compared, or a class. -/
def namedPattern (r : Rules) : Reader Tree := do
  if isName "_" (← peek) then
    let _ ← name
    return .leaf .pattern
  else
    let t ← attributes
    if ← symbol "(" then deeper bracketLevels (classPattern r t)
    else if ← atSymbol "=" then wrong
    else
      match t.form with
      | .attribute _ => return patternNode [t]
      | _ => return .leaf .pattern

/-- A pattern without alternatives. -/
def closedPattern (r : Rules) : Reader Tree := do
  if ← atLiteral then return patternNode (← literal r)
  else if ← symbol "(" then deeper bracketLevels (roundPattern r)
  else if ← symbol "[" then
    deeper bracketLevels do return patternNode ((← closed "]" (starPattern r)).map (·.1))
  else if ← symbol "\x7b" then deeper bracketLevels (curlyPattern r)
  else namedPattern r

/-- A pattern: alternatives, perhaps bound to a name. -/
def patternRule (r : Rules) : Reader Tree := do
  let t ← do
    let first ← closedPattern r
    let rest ← many do if ← symbol "|" then return some (← closedPattern r) else return none
    pure (if rest.isEmpty then first else patternNode (first :: rest))
  if ← keyword "as" then
    captured
    return patternNode [t]
  else return t

/-- The pattern of a case, which may be a sequence without brackets. -/
def casePattern (r : Rules) : Reader Tree := do
  let ends := fun t => isSymbol ":" t || isKeyword "if" t
  match ← items (starPattern r) ends with
  | ([(t, false)], false) => return t
  | ([(_, true)], false) => wrong
  | (ts, _) => return patternNode (ts.map (·.1))

end Reader

end Enclave.Script
