import Enclave.Decimal.Binary

/-!
# JSON values

The tree of a JSON document. Whole numbers stand apart from decimals, since `1` and `1.0` are
written differently. An object is the list of its members: a record that is about to be written
lists them in the order of its declaration, a document that was read lists them in the order of
their names with no name twice (`Value.canonical`). `Value.get?` and `Fields.insert` are the view
and the update of such an object.
-/

namespace Enclave.Json

/-- A JSON value. Integers lie between `-2 ^ 63` and `2 ^ 64 - 1`, floats are finite. -/
inductive Value where
  | null
  | bool (b : Bool)
  | int (n : Int)
  | float (f : Float)
  | str (s : String)
  | arr (items : List Value)
  | obj (fields : List (String × Value))
  deriving Inhabited, BEq, Repr

/-- Members of an object. -/
abbrev Fields := List (String × Value)

/-- Puts a member at its place; a member of the same name is replaced. -/
def Fields.insert (k : String) (v : Value) : Fields → Fields
  | [] => [(k, v)]
  | (k', v') :: rest =>
    if k = k' then (k, v) :: rest
    else if k < k' then (k, v) :: (k', v') :: rest
    else (k', v') :: insert k v rest

/-- The object with these members, later ones winning over earlier ones of the same name. -/
def Fields.ofList (kvs : List (String × Value)) : Fields :=
  kvs.foldl (fun acc kv => acc.insert kv.1 kv.2) []

namespace Value

/-- The object with these members, brought into order. -/
def object (kvs : List (String × Value)) : Value := .obj (Fields.ofList kvs)

/-- A natural number. -/
def nat (n : Nat) : Value := .int n

/-- An array of strings. -/
def strings (ss : List String) : Value := .arr (ss.map .str)

/-- A string or null. -/
def ofOption (s : Option String) : Value := s.elim .null .str

/-- The member of an object; `none` for a missing member and for what is no object. -/
def get? (v : Value) (k : String) : Option Value :=
  match v with
  | .obj fields => fields.lookup k
  | _ => none

def asString? : Value → Option String
  | .str s => some s
  | _ => none

def asBool? : Value → Option Bool
  | .bool b => some b
  | _ => none

def asArray? : Value → Option (List Value)
  | .arr items => some items
  | _ => none

/-- The integer of a value that fits into a signed 64-bit word. -/
def asInt64? : Value → Option Int
  | .int n => if -(2 ^ 63) ≤ n ∧ n < 2 ^ 63 then some n else none
  | _ => none

def isNull : Value → Bool
  | .null => true
  | _ => false

mutual

/-- How deep arrays and objects are nested in a value. -/
def nesting : Value → Nat
  | .arr items => itemNesting items + 1
  | .obj fields => fieldNesting fields + 1
  | .null => 0
  | .bool _ => 0
  | .int _ => 0
  | .float _ => 0
  | .str _ => 0

def itemNesting : List Value → Nat
  | [] => 0
  | v :: rest => max v.nesting (itemNesting rest)

def fieldNesting : List (String × Value) → Nat
  | [] => 0
  | (_, v) :: rest => max v.nesting (fieldNesting rest)

end

mutual

/-- The same value with the members of every object in the order of their names. -/
def canonical : Value → Value
  | .arr items => .arr (canonicalItems items)
  | .obj fields => .obj (canonicalFields fields)
  | .null => .null
  | .bool b => .bool b
  | .int n => .int n
  | .float f => .float f
  | .str s => .str s

def canonicalItems : List Value → List Value
  | [] => []
  | v :: rest => v.canonical :: canonicalItems rest

def canonicalFields : List (String × Value) → Fields
  | [] => []
  | (k, v) :: rest =>
    let others := canonicalFields rest
    if (others.lookup k).isSome then others else Fields.insert k v.canonical others

end

end Value

end Enclave.Json
