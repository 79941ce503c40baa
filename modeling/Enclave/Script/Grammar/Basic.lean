import Enclave.Script.Layout
import Enclave.Script.Tree

/-!
# Reading the tokens of a script

A reader takes tokens from the front of a list and gives what they stand for, or finds a fault.
Constructs that hold others of their kind take levels out of a fixed supply: a script that needs
more is too deep, and this fault, unlike any other, is never undone by trying something else.

The rules of the grammar refer to each other. Those that do so with a nesting are gathered in
`Rules`; every other rule is a plain function of them, and the knot is tied once.
-/

namespace Enclave.Script

/-- Why tokens were not read. -/
inductive Misreading where
  | wrong
  | tooDeep
  deriving Repr, DecidableEq

/-- A reader: with a supply of levels, what it read and the tokens behind it. -/
abbrev Reader (α : Type) := ReaderT Nat (StateT (List Token) (Except Misreading)) α

/-- The rules by which the grammar refers to itself. -/
structure Rules where
  expression : Reader Tree
  /-- An expression without a condition. -/
  disjunction : Reader Tree
  /-- Comparisons, perhaps with `not` in front. -/
  inversion : Reader Tree
  /-- Operands with binary operators between them. -/
  operands : Reader Tree
  /-- A value with its signs and its power. -/
  factor : Reader Tree
  /-- A value with everything behind it. -/
  primary : Reader Tree
  pattern : Reader Tree
  /-- The statements that one line of a block begins. -/
  statement : Reader (List Tree)
  /-- What stands behind the body of a condition. -/
  otherwise : Reader (List Tree)

namespace Reader

/-- The reader that finds nothing it could read. -/
def wrong {α : Type} : Reader α := fun _ _ => .error .wrong

/-- The next token, left in place. -/
def peek : Reader (Option Token) := fun _ ts => .ok (ts.head?, ts)

/-- The next token. -/
def next : Reader Token := fun _ ts =>
  match ts with
  | t :: rest => .ok (t, rest)
  | [] => .error .wrong

/-- Whether a token is a symbol of this spelling. -/
def isSymbol (s : String) : Option Token → Bool
  | some (.symbol t) => t == s
  | _ => false

/-- Whether a token is this keyword. -/
def isKeyword (w : String) : Option Token → Bool
  | some (.keyword v) => v == w
  | _ => false

/-- Whether a token is this name. -/
def isName (n : String) : Option Token → Bool
  | some (.name m) => m == n
  | _ => false

/-- Whether the next token is a symbol. -/
def atSymbol (s : String) : Reader Bool := fun _ ts => .ok (isSymbol s ts.head?, ts)

/-- Whether the next token is a keyword. -/
def atKeyword (w : String) : Reader Bool := fun _ ts => .ok (isKeyword w ts.head?, ts)

/-- Takes the next token if it is of a kind. -/
def takeIf (is : Option Token → Bool) : Reader Bool := fun _ ts =>
  if is ts.head? then .ok (true, ts.drop 1) else .ok (false, ts)

/-- Takes a symbol if it is next. -/
def symbol (s : String) : Reader Bool := takeIf (isSymbol s)

/-- Takes a keyword if it is next. -/
def keyword (w : String) : Reader Bool := takeIf (isKeyword w)

/-- Takes a symbol, or is wrong. -/
def expect (s : String) : Reader Unit := do if ← symbol s then return () else wrong

/-- Takes a keyword, or is wrong. -/
def expectKeyword (w : String) : Reader Unit := do if ← keyword w then return () else wrong

/-- Takes the end of a line, or is wrong. -/
def endOfLine : Reader Unit := do
  match ← next with
  | .newline => return ()
  | _ => wrong

/-- A name. -/
def name : Reader String := do
  match ← next with
  | .name n => return n
  | _ => wrong

/-- What a reader reads, or nothing with every token left in place. -/
def attempt {α : Type} (p : Reader α) : Reader (Option α) := fun levels ts =>
  match p levels ts with
  | .ok (a, rest) => .ok (some a, rest)
  | .error .wrong => .ok (none, ts)
  | .error .tooDeep => .error .tooDeep

/-- A reader that takes levels out of the supply. -/
def deeper {α : Type} (levels : Nat) (p : Reader α) : Reader α := fun supply ts =>
  if supply < levels then .error .tooDeep else p (supply - levels) ts

/-- Repeats a reader until it reads nothing; `found` is what it read already, the last first. The
first argument bounds the number of steps. -/
def manyBehind {α : Type} (p : Reader (Option α)) : Nat → List α → Reader (List α)
  | 0, _, _, _ => .error .wrong
  | fuel + 1, found, levels, ts =>
    match p levels ts with
    | .error e => .error e
    | .ok (none, rest) => .ok (found.reverse, rest)
    | .ok (some a, rest) => manyBehind p fuel (a :: found) levels rest

/-- Repeats a reader until it reads nothing. -/
def many {α : Type} (p : Reader (Option α)) : Reader (List α) := fun levels ts =>
  manyBehind p (ts.length + 1) [] levels ts

/-- Items with commas between them, behind those already read, the last of these first; a comma
may also stand behind the last one, and whether it did is given too. `ends` tells the tokens that
no item begins with. The first argument bounds the number of items. -/
def itemsBehind {α : Type} (p : Reader α) (ends : Option Token → Bool) :
    Nat → List α → Reader (List α × Bool)
  | 0, _, _, _ => .error .wrong
  | fuel + 1, found, levels, ts =>
    match p levels ts with
    | .error e => .error e
    | .ok (a, rest) =>
      if isSymbol "," rest.head? then
        if ends rest[1]? then .ok (((a :: found).reverse, true), rest.drop 1)
        else itemsBehind p ends fuel (a :: found) levels (rest.drop 1)
      else .ok (((a :: found).reverse, false), rest)

/-- Items with commas between them, and whether a comma stands behind the last one. -/
def items {α : Type} (p : Reader α) (ends : Option Token → Bool) : Reader (List α × Bool) :=
  fun levels ts => itemsBehind p ends (ts.length + 1) [] levels ts

/-- Items with commas between them and none behind the last one. -/
def strictItems {α : Type} (p : Reader α) : Reader (List α) := do
  return (← items p fun _ => false).1

/-- The levels that a pair of brackets takes. -/
def bracketLevels : Nat := 28

/-- The rest of what stands between brackets, with the closing one: nothing, or items with commas
between them and perhaps behind them. -/
def closed {α : Type} (close : String) (p : Reader α) : Reader (List α) := do
  if ← symbol close then return []
  else
    let (found, _) ← items p (isSymbol close)
    expect close
    return found

end Reader

end Enclave.Script
