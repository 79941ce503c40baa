import Enclave.Json.Value
import Enclave.Text.Blank
import Enclave.Decimal.Reading
import Enclave.Decimal.Notation

/-!
# Literals of scripts

A reader of the literals that a script prints for its values: mappings with string keys, lists,
tuples, strings in either kind of quotes, numbers, `True`, `False` and `None`. The value is a JSON
value; numbers that JSON does not know become null. Containers nest at most as deep as they may in
JSON.

A fault carries the text from which on the reader could not go on, so that its place is the number
of characters in front of that text.
-/

namespace Enclave.Script.Literal

open Json (Value)

/-- The depth to which containers may be nested. -/
def maxDepth : Nat := 128

/-- Why a text is no literal. -/
inductive Fault where
  | trailing
  | tooDeep
  | noValue
  | unknownName (name : String)
  | keyNoString
  | expected (c : Char)
  | mappingEnd
  | sequenceEnd
  | openString
  | openEscape
  | shortHex
  | badHex
  | badNumber (text : String)
  deriving Repr, DecidableEq

/-- The wording of a fault. -/
def Fault.message : Fault → String
  | .trailing => "trailing characters"
  | .tooDeep => "nesting too deep"
  | .noValue => "expected a value"
  | .unknownName name => "unknown name '" ++ name ++ "'"
  | .keyNoString => "mapping keys must be strings"
  | .expected c => "expected '" ++ String.ofList [c] ++ "'"
  | .mappingEnd => "expected ',' or '\x7d'"
  | .sequenceEnd => "expected ',' or closing bracket"
  | .openString => "unterminated string"
  | .openEscape => "dangling escape"
  | .shortHex => "short hex escape"
  | .badHex => "invalid hex escape"
  | .badNumber text => "invalid number '" ++ text ++ "'"

/-- What a reader found and the text behind it, or a fault and the text behind it. -/
abbrev Step (α : Type) := Except (Fault × List Char) (α × List Char)

/-- The text behind its blanks. -/
def skipBlank (cs : List Char) : List Char := cs.dropWhile Text.isBlank

/-! ## Strings -/

/-- The value of a hexadecimal digit. -/
def hexValue? (c : Char) : Option Nat :=
  if c.isDigit then some (c.toNat - '0'.toNat)
  else if 'a' ≤ c ∧ c ≤ 'f' then some (c.toNat - 'a'.toNat + 10)
  else if 'A' ≤ c ∧ c ≤ 'F' then some (c.toNat - 'A'.toNat + 10)
  else none

/-- The number that hexadecimal digits stand for. -/
def hexNumber? (cs : List Char) : Option Nat :=
  if cs.isEmpty then none
  else cs.foldl (fun acc c => match acc, hexValue? c with
    | some n, some d => some (n * 16 + d)
    | _, _ => none) (some 0)

/-- The character of a code point in hexadecimal, which may begin with a plus sign. -/
def codePoint? (cs : List Char) : Option Char :=
  match hexNumber? (match cs with | '+' :: rest => rest | cs => cs) with
  | some n => if n.isValidChar then some (Char.ofNat n) else none
  | none => none

/-- The code point of an escape with a fixed number of digits. -/
def hexEscape (digits : Nat) (cs : List Char) : Step Char :=
  if (cs.take digits).length < digits then .error (.shortHex, cs)
  else
    match codePoint? (cs.take digits) with
    | some c => .ok (c, cs.drop digits)
    | none => .error (.badHex, cs.drop digits)

/-- The characters of an escape, behind its backslash. -/
def escape : List Char → Step (List Char)
  | [] => .error (.openEscape, [])
  | c :: rest =>
    match c with
    | 'n' => .ok (['\n'], rest)
    | 't' => .ok (['\t'], rest)
    | 'r' => .ok (['\r'], rest)
    | '0' => .ok (['\x00'], rest)
    | '\\' => .ok (['\\'], rest)
    | '\'' => .ok (['\''], rest)
    | '"' => .ok (['"'], rest)
    | 'x' => (hexEscape 2 rest).map fun r => ([r.1], r.2)
    | 'u' => (hexEscape 4 rest).map fun r => ([r.1], r.2)
    | 'U' => (hexEscape 8 rest).map fun r => ([r.1], r.2)
    | c => .ok (['\\', c], rest)

/-- The rest of a string behind its opening quote; `found` are the characters read already, the
last one first. The first argument bounds the number of steps. -/
def stringBehind (quote : Char) : Nat → List Char → List Char → Step String
  | 0, _, cs => .error (.openString, cs)
  | _ + 1, _, [] => .error (.openString, [])
  | fuel + 1, found, c :: cs =>
    if c = quote then .ok (String.ofList found.reverse, cs)
    else if c = '\\' then
      match escape cs with
      | .error e => .error e
      | .ok (more, rest) => stringBehind quote fuel (more.reverse ++ found) rest
    else stringBehind quote fuel (c :: found) cs

/-- The rest of a string behind its opening quote. -/
def string (quote : Char) (cs : List Char) : Step String := stringBehind quote (cs.length + 1) [] cs

/-! ## Numbers and names -/

/-- The characters of a number behind those already read, the last of these first. A sign belongs
to it only behind the letter of an exponent. -/
def numeral (found : List Char) : List Char → List Char × List Char
  | [] => (found.reverse, [])
  | c :: cs =>
    let sign := c == '+' || c == '-'
    let inExponent := found.head? == some 'e' || found.head? == some 'E'
    if (c.isAlphanum || c == '.' || c == '_' || sign) && !(sign && !inExponent) then
      numeral (c :: found) cs
    else (found.reverse, c :: cs)

/-- The value of a numeral: an integer where a signed word holds it, else a decimal. -/
def numeralValue? (cs : List Char) : Option Value :=
  match (Decimal.readInt? cs).filter fun n => -(2 ^ 63) ≤ n ∧ n < 2 ^ 63 with
  | some n => some (.int n)
  | none => (Decimal.readFloat? cs).map fun f => if Decimal.isFinite f then .float f else .null

/-- A number. Underscores in it count for nothing. -/
def number (cs : List Char) : Step Value :=
  let (sign, body) := match cs with
    | '-' :: r => (['-'], r)
    | '+' :: r => (['+'], r)
    | r => ([], r)
  let (text, rest) := numeral sign body
  let text := text.filter (· != '_')
  match numeralValue? text with
  | some v => .ok (v, rest)
  | none => .error (.badNumber (String.ofList text), rest)

/-- A character of a name. -/
def isNamePart (c : Char) : Bool := c.isAlphanum || c == '_'

/-- A name that stands for a value. -/
def namedValue (cs : List Char) : Step Value :=
  let name := String.ofList (cs.takeWhile isNamePart)
  let rest := cs.dropWhile isNamePart
  match name with
  | "True" => .ok (.bool true, rest)
  | "False" => .ok (.bool false, rest)
  | "None" | "nan" | "inf" => .ok (.null, rest)
  | name => .error (.unknownName name, rest)

/-! ## Containers -/

mutual

/-- A value inside `depth` containers. The first argument bounds the number of steps. -/
def value : Nat → Nat → List Char → Step Value
  | 0, _, cs => .error (.noValue, cs)
  | fuel + 1, depth, cs =>
    match skipBlank cs with
    | [] => .error (.noValue, [])
    | c :: rest =>
      if c = '{' ∨ c = '[' ∨ c = '(' then
        if maxDepth ≤ depth then .error (.tooDeep, c :: rest)
        else if c = '{' then
          match members fuel (depth + 1) [] rest with
          | .error e => .error e
          | .ok (kvs, rest) => .ok (.object kvs, rest)
        else
          match items fuel (depth + 1) (if c = '[' then ']' else ')') [] rest with
          | .error e => .error e
          | .ok (vs, rest) => .ok (.arr vs, rest)
      else if c = '\'' ∨ c = '"' then
        match string c rest with
        | .error e => .error e
        | .ok (s, rest) => .ok (.str s, rest)
      else if c = '-' ∨ c = '+' ∨ c.isDigit then number (c :: rest)
      else if c.isAlpha then namedValue (c :: rest)
      else .error (.noValue, c :: rest)

/-- The members of a mapping behind those already read, the last of these first. -/
def members : Nat → Nat → List (String × Value) → List Char → Step (List (String × Value))
  | 0, _, _, cs => .error (.noValue, cs)
  | fuel + 1, depth, found, cs =>
    match skipBlank cs with
    | '}' :: rest => .ok (found.reverse, rest)
    | cs =>
      match value fuel depth cs with
      | .error e => .error e
      | .ok (.str key, rest) =>
        match skipBlank rest with
        | ':' :: rest =>
          match value fuel depth rest with
          | .error e => .error e
          | .ok (v, rest) =>
            match skipBlank rest with
            | ',' :: rest => members fuel depth ((key, v) :: found) rest
            | '}' :: rest => .ok (((key, v) :: found).reverse, rest)
            | rest => .error (.mappingEnd, rest)
        | rest => .error (.expected ':', rest)
      | .ok (_, rest) => .error (.keyNoString, rest)

/-- The items of a list or tuple behind those already read, the last of these first. -/
def items : Nat → Nat → Char → List Value → List Char → Step (List Value)
  | 0, _, _, _, cs => .error (.noValue, cs)
  | fuel + 1, depth, close, found, cs =>
    match skipBlank cs with
    | [] => .error (.noValue, [])
    | c :: rest =>
      if c = close then .ok (found.reverse, rest)
      else
        match value fuel depth (c :: rest) with
        | .error e => .error e
        | .ok (v, rest) =>
          match skipBlank rest with
          | ',' :: rest => items fuel depth close (v :: found) rest
          | d :: rest =>
            if d = close then .ok ((v :: found).reverse, rest)
            else .error (.sequenceEnd, d :: rest)
          | [] => .error (.sequenceEnd, [])

end

/-- A text as one literal: its value, or the fault with the number of characters in front of
it. -/
def read (text : String) : Except (Nat × Fault) Value :=
  let cs := text.toList
  let place (rest : List Char) := cs.length - rest.length
  match value (2 * cs.length + 2) 0 cs with
  | .error (f, rest) => .error (place rest, f)
  | .ok (v, rest) =>
    match skipBlank rest with
    | [] => .ok v
    | rest => .error (place rest, .trailing)

end Enclave.Script.Literal
