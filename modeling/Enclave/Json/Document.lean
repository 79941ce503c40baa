import Enclave.Json.Value
import Enclave.Decimal.Binary

/-!
# Reading JSON

A strict reader of JSON texts. Its result is a `Doc`: the tree as far as the text could be read,
with the first fault of the text standing at the place where it was met. A decoder that walks the
tree in order therefore meets a fault of the text and a fault of shape in the order in which the
text shows them.

Two faults do not stop the reader, because the text goes on unambiguously behind them: a string
whose escapes name half of a surrogate pair, and a number beyond the largest double. They are
marks on the leaf, and count only for a decoder that looks at it.

* `Doc.read` reads a text; `Doc.toValue` turns a tree into a value, or gives its first fault.
* `Value.parse` is both, with nothing left over.
-/

namespace Enclave.Json

/-- What can be wrong with a JSON text. -/
inductive Fault where
  | endOfList
  | endOfObject
  | endOfString
  | endOfValue
  | expectedColon
  | expectedListCommaOrEnd
  | expectedObjectCommaOrEnd
  | expectedIdent
  | expectedValue
  | invalidEscape
  | invalidNumber
  | numberOutOfRange
  | controlCharacter
  | keyMustBeString
  | loneSurrogate
  | unexpectedEndOfHexEscape
  | trailingComma
  | trailingCharacters
  | recursionLimit
  deriving Repr, DecidableEq

/-- The wording of a fault. -/
def Fault.message : Fault → String
  | .endOfList => "EOF while parsing a list"
  | .endOfObject => "EOF while parsing an object"
  | .endOfString => "EOF while parsing a string"
  | .endOfValue => "EOF while parsing a value"
  | .expectedColon => "expected `:`"
  | .expectedListCommaOrEnd => "expected `,` or `]`"
  | .expectedObjectCommaOrEnd => "expected `,` or `\x7d`"
  | .expectedIdent => "expected ident"
  | .expectedValue => "expected value"
  | .invalidEscape => "invalid escape"
  | .invalidNumber => "invalid number"
  | .numberOutOfRange => "number out of range"
  | .controlCharacter => "control character (\\u0000-\\u001F) found while parsing a string"
  | .keyMustBeString => "key must be a string"
  | .loneSurrogate => "lone leading surrogate in hex escape"
  | .unexpectedEndOfHexEscape => "unexpected end of hex escape"
  | .trailingComma => "trailing comma"
  | .trailingCharacters => "trailing characters"
  | .recursionLimit => "recursion limit exceeded"

/-- A number as it was read. -/
inductive Numeral where
  | int (n : Int)
  | float (f : Float)
  | tooLarge
  deriving Inhabited, BEq, Repr

/-- A JSON text as far as it could be read. -/
inductive Doc where
  | null
  | bool (b : Bool)
  | num (n : Numeral)
  /-- A string; `flaw` when its escapes do not form characters. -/
  | str (text : String) (flaw : Option Fault)
  /-- A list; `stop` when it is not closed. -/
  | arr (items : List Doc) (stop : Option Fault)
  /-- An object, its members in the order of the text; `stop` when it is not closed. -/
  | obj (fields : List (String × Option Fault × Doc)) (stop : Option Fault)
  /-- No value could be read here, and nothing behind it. -/
  | broken (fault : Fault)
  deriving Inhabited

/-! ## Leaves -/

/-- A blank of JSON. -/
def isJsonBlank (c : Char) : Bool := c == ' ' || c == '\n' || c == '\t' || c == '\r'

/-- The text behind its blanks. -/
def skipBlank (cs : List Char) : List Char := cs.dropWhile isJsonBlank

/-- The value of a hexadecimal digit. -/
def hexValue? (c : Char) : Option Nat :=
  if c.isDigit then some (c.toNat - '0'.toNat)
  else if 'a' ≤ c ∧ c ≤ 'f' then some (c.toNat - 'a'.toNat + 10)
  else if 'A' ≤ c ∧ c ≤ 'F' then some (c.toNat - 'A'.toNat + 10)
  else none

/-- Four hexadecimal digits. -/
def readHex4 : List Char → Except Fault (Nat × List Char)
  | a :: b :: c :: d :: rest =>
    match hexValue? a, hexValue? b, hexValue? c, hexValue? d with
    | some a, some b, some c, some d => .ok (((a * 16 + b) * 16 + c) * 16 + d, rest)
    | _, _, _, _ => .error .invalidEscape
  | _ => .error .endOfString

/-- What an escape in a string stands for: a character, or a flaw of the string. -/
inductive Escaped where
  | char (c : Char)
  | flaw (f : Fault)

/-- The rest of an escape `\u`, behind the letter: one unit, or a pair of surrogates. -/
def readUnicode (cs : List Char) : Except Fault (Escaped × List Char) := do
  let (n, rest) ← readHex4 cs
  if 0xDC00 ≤ n ∧ n ≤ 0xDFFF then return (.flaw .loneSurrogate, rest)
  if 0xD800 ≤ n ∧ n ≤ 0xDBFF then
    match rest with
    | '\\' :: 'u' :: rest' =>
      let (m, rest'') ← readHex4 rest'
      if 0xDC00 ≤ m ∧ m ≤ 0xDFFF then
        return (.char (Char.ofNat ((n - 0xD800) * 1024 + (m - 0xDC00) + 0x10000)), rest'')
      else return (.flaw .loneSurrogate, rest'')
    | _ => return (.flaw .unexpectedEndOfHexEscape, rest)
  return (.char (Char.ofNat n), rest)

/-- The rest of an escape, behind the backslash. -/
def readEscape : List Char → Except Fault (Escaped × List Char)
  | [] => .error .endOfString
  | '"' :: r => .ok (.char '"', r)
  | '\\' :: r => .ok (.char '\\', r)
  | '/' :: r => .ok (.char '/', r)
  | 'b' :: r => .ok (.char '\x08', r)
  | 'f' :: r => .ok (.char '\x0c', r)
  | 'n' :: r => .ok (.char '\n', r)
  | 'r' :: r => .ok (.char '\r', r)
  | 't' :: r => .ok (.char '\t', r)
  | 'u' :: r => readUnicode r
  | _ => .error .invalidEscape

/-- What a string literal gives: its characters, its first flaw, and the text behind it. -/
structure StringToken where
  chars : List Char
  flaw : Option Fault
  rest : List Char

/-- A character that stands for itself in a string. -/
def isPlain (c : Char) : Bool := c != '"' && c != '\\' && !(c.toNat < 0x20)

/-- The rest of a string, behind its opening quote: runs of plain characters with escapes between
them. The first argument bounds the number of escapes read. -/
def readString : Nat → List Char → Except Fault StringToken
  | 0, _ => .error .endOfString
  | fuel + 1, cs =>
    let run := cs.takeWhile isPlain
    match cs.dropWhile isPlain with
    | [] => .error .endOfString
    | c :: rest =>
      if c = '"' then .ok ⟨run, none, rest⟩
      else if c = '\\' then
        match readEscape rest with
        | .error f => .error f
        | .ok (e, rest') =>
          match readString fuel rest' with
          | .error f => .error f
          | .ok t =>
            match e with
            | .char c => .ok { t with chars := run ++ c :: t.chars }
            | .flaw f => .ok { t with flaw := some f }
      else .error .controlCharacter

/-! ## Numbers -/

/-- The largest unsigned word of 64 bits. -/
def maxWord : Nat := 2 ^ 64 - 1

/-- The value of a decimal digit. -/
def digitValue (c : Char) : Nat := c.toNat - '0'.toNat

/-- Digits taken into a word as long as it holds them: the word and the number of digits left
out. -/
def accumulate (word : Nat) : List Char → Nat × Nat
  | [] => (word, 0)
  | d :: ds =>
    let next := word * 10 + digitValue d
    if next ≤ maxWord then accumulate next ds else (word, (d :: ds).length)

/-- A word as a double. -/
def wordFloat (n : Nat) : Float := (UInt64.ofNat n).toFloat

/-- A power of ten as a double. -/
def tenTo (n : Nat) : Float := Decimal.nearestDecimal 1 n

/-- A word scaled by a power of ten in double arithmetic: one multiplication or division by the
power, after divisions by `1e308` where the power lies below the table. The first argument bounds
those. -/
def scaled : Nat → Float → Int → Numeral
  | 0, _, _ => .float 0.0
  | fuel + 1, f, e =>
    if e.natAbs ≤ 308 then
      if 0 ≤ e then
        let g := f * tenTo e.natAbs
        if Decimal.isFinite g then .float g else .tooLarge
      else .float (f / tenTo e.natAbs)
    else if f == 0.0 then .float f
    else if 0 ≤ e then .tooLarge
    else scaled fuel (f / tenTo 308) (e + 308)

/-- A numeral with the opposite sign. -/
def Numeral.negate : Numeral → Numeral
  | .int n => .int (-n)
  | .float f => .float (-f)
  | .tooLarge => .tooLarge

/-- A decimal with a word of digits and an exponent. -/
def decimalNumeral (negative : Bool) (word : Nat) (exponent : Int) : Numeral :=
  let n := scaled 5 (wordFloat word) exponent
  if negative then n.negate else n

/-- A whole number: an integer where a word holds it, else a decimal. A negative zero is a
decimal. -/
def wholeNumeral (negative : Bool) (word : Nat) (left : Nat) : Numeral :=
  if left ≠ 0 then decimalNumeral negative word left
  else if !negative then .int word
  else if 1 ≤ word ∧ word ≤ 2 ^ 63 then .int (-word)
  else .float (-(wordFloat word))

/-- The sign of an exponent: whether it points up, and the text behind it. -/
def exponentSign : List Char → Bool × List Char
  | '+' :: r => (true, r)
  | '-' :: r => (false, r)
  | r => (true, r)

/-- The text behind the letter of an exponent; `none` where there is none. -/
def behindLetter? : List Char → Option (List Char)
  | 'e' :: r => some r
  | 'E' :: r => some r
  | _ => none

/-- The exponent of a number, behind its letter. -/
def readExponent (negative : Bool) (word : Nat) (start : Int) (cs : List Char) :
    Except Fault (Numeral × List Char) :=
  let (up, cs) := exponentSign cs
  let ds := cs.takeWhile Char.isDigit
  let rest := cs.dropWhile Char.isDigit
  if cs.isEmpty then .error .endOfValue
  else if ds.isEmpty then .error .invalidNumber
  else
    let size := ds.foldl (fun n d => if n < 2 ^ 31 then n * 10 + digitValue d else n) 0
    if size < 2 ^ 31 then
      .ok (decimalNumeral negative word (if up then start + size else start - size), rest)
    else if up && word ≠ 0 then .ok (.tooLarge, rest)
    else .ok (.float (if negative then -0.0 else 0.0), rest)

/-- The rest of a number, behind its whole part. -/
def readNumberTail (negative : Bool) (word left : Nat) (cs : List Char) :
    Except Fault (Numeral × List Char) :=
  match cs with
  | '.' :: r =>
    let ds := r.takeWhile Char.isDigit
    let rest := r.dropWhile Char.isDigit
    if ds.isEmpty then .error (if rest.isEmpty then .endOfValue else .invalidNumber)
    else
      let (word', unused) := accumulate word ds
      let exponent : Int := (left : Int) - ((ds.length : Int) - unused)
      match behindLetter? rest with
      | some r => readExponent negative word' exponent r
      | none => .ok (decimalNumeral negative word' exponent, rest)
  | cs =>
    match behindLetter? cs with
    | some r => readExponent negative word left r
    | none => .ok (wholeNumeral negative word left, cs)

/-- A number, behind its minus sign if it has one. -/
def readNumber (negative : Bool) (cs : List Char) : Except Fault (Numeral × List Char) :=
  match cs with
  | [] => .error .endOfValue
  | '0' :: r =>
    if (r.head?.map Char.isDigit).getD false then .error .invalidNumber
    else readNumberTail negative 0 0 r
  | _ =>
    let ds := cs.takeWhile Char.isDigit
    if ds.isEmpty then .error .invalidNumber
    else
      let (word, left) := accumulate 0 ds
      readNumberTail negative word left (cs.dropWhile Char.isDigit)

/-! ## Trees -/

/-- The rest of a word such as `null`, behind its first letter. -/
def readWord : List Char → Doc → List Char → Doc × Option (List Char)
  | [], d, cs => (d, some cs)
  | _ :: _, _, [] => (.broken .endOfValue, none)
  | w :: ws, d, c :: cs => if c = w then readWord ws d cs else (.broken .expectedIdent, none)

/-- A leaf and the text behind it. -/
def leaf (r : Except Fault (Numeral × List Char)) : Doc × Option (List Char) :=
  match r with
  | .ok (n, rest) => (.num n, some rest)
  | .error f => (.broken f, none)

mutual

/-- One value; `none` for the text behind a fault that stops the reader. The first argument bounds
the number of steps. -/
def readValue : Nat → List Char → Doc × Option (List Char)
  | 0, _ => (.broken .endOfValue, none)
  | fuel + 1, cs =>
    match skipBlank cs with
    | [] => (.broken .endOfValue, none)
    | 'n' :: r => readWord ['u', 'l', 'l'] .null r
    | 't' :: r => readWord ['r', 'u', 'e'] (.bool true) r
    | 'f' :: r => readWord ['a', 'l', 's', 'e'] (.bool false) r
    | '-' :: r => leaf (readNumber true r)
    | '"' :: r =>
      match readString (r.length + 1) r with
      | .error f => (.broken f, none)
      | .ok t => (.str (String.ofList t.chars) t.flaw, some t.rest)
    | '[' :: r =>
      let (items, stop, rest) := readItems fuel true r
      (.arr items stop, rest)
    | '{' :: r =>
      let (fields, stop, rest) := readFields fuel true r
      (.obj fields stop, rest)
    | c :: r => if c.isDigit then leaf (readNumber false (c :: r)) else (.broken .expectedValue, none)

/-- The rest of a list; `first` right behind its bracket. -/
def readItems : Nat → Bool → List Char → List Doc × Option Fault × Option (List Char)
  | 0, _, _ => ([], some .endOfList, none)
  | fuel + 1, first, cs =>
    match skipBlank cs with
    | [] => ([], some .endOfList, none)
    | c :: r =>
      if c = ']' then ([], none, some r)
      else if c = ',' && !first then
        match skipBlank r with
        | [] => ([], some .endOfValue, none)
        | ']' :: _ => ([], some .trailingComma, none)
        | r' => readItem fuel r'
      else if first then readItem fuel (c :: r)
      else ([], some .expectedListCommaOrEnd, none)

/-- An item of a list and the items behind it. -/
def readItem : Nat → List Char → List Doc × Option Fault × Option (List Char)
  | 0, _ => ([], some .endOfList, none)
  | fuel + 1, cs =>
    match readValue fuel cs with
    | (d, none) => ([d], none, none)
    | (d, some rest) =>
      let (ds, stop, rest') := readItems fuel false rest
      (d :: ds, stop, rest')

/-- The rest of an object; `first` right behind its brace. -/
def readFields : Nat → Bool → List Char →
    List (String × Option Fault × Doc) × Option Fault × Option (List Char)
  | 0, _, _ => ([], some .endOfObject, none)
  | fuel + 1, first, cs =>
    match skipBlank cs with
    | [] => ([], some .endOfObject, none)
    | c :: r =>
      if c = '}' then ([], none, some r)
      else if c = ',' && !first then
        match skipBlank r with
        | [] => ([], some .endOfValue, none)
        | '}' :: _ => ([], some .trailingComma, none)
        | r' => readField fuel r'
      else if first then readField fuel (c :: r)
      else ([], some .expectedObjectCommaOrEnd, none)

/-- A member of an object and the members behind it. -/
def readField : Nat → List Char →
    List (String × Option Fault × Doc) × Option Fault × Option (List Char)
  | 0, _ => ([], some .endOfObject, none)
  | fuel + 1, cs =>
    match cs with
    | '"' :: r =>
      match readString (r.length + 1) r with
      | .error f => ([], some f, none)
      | .ok t =>
        let key := String.ofList t.chars
        match skipBlank t.rest with
        | ':' :: r =>
          match readValue fuel r with
          | (d, none) => ([(key, t.flaw, d)], none, none)
          | (d, some rest) =>
            let (fs, stop, rest') := readFields fuel false rest
            ((key, t.flaw, d) :: fs, stop, rest')
        | [] => ([(key, t.flaw, .broken .endOfObject)], none, none)
        | _ => ([(key, t.flaw, .broken .expectedColon)], none, none)
    | _ => ([], some .keyMustBeString, none)

end

/-- A text as a tree, and what is wrong behind it. -/
def Doc.read (text : String) : Doc × Option Fault :=
  let cs := text.toList
  match readValue (3 * cs.length + 3) cs with
  | (d, none) => (d, none)
  | (d, some rest) => (d, if (skipBlank rest).isEmpty then none else some .trailingCharacters)

/-! ## Values of trees -/

/-- The depth to which values may be nested. -/
def maxDepth : Nat := 127

mutual

/-- The value of a tree whose nesting is at most `depth`, or its first fault. -/
def Doc.toValue (depth : Nat) : Doc → Except Fault Value
  | .null => .ok .null
  | .bool b => .ok (.bool b)
  | .num (.int n) => .ok (.int n)
  | .num (.float f) => .ok (.float f)
  | .num .tooLarge => .error .numberOutOfRange
  | .str _ (some f) => .error f
  | .str s none => .ok (.str s)
  | .broken f => .error f
  | .arr items stop =>
    match depth with
    | 0 => .error .recursionLimit
    | depth + 1 =>
      match itemValues depth items, stop with
      | .error f, _ => .error f
      | .ok _, some f => .error f
      | .ok vs, none => .ok (.arr vs)
  | .obj fields stop =>
    match depth with
    | 0 => .error .recursionLimit
    | depth + 1 =>
      match fieldValues depth fields, stop with
      | .error f, _ => .error f
      | .ok _, some f => .error f
      | .ok kvs, none => .ok (.object kvs)

def itemValues (depth : Nat) : List Doc → Except Fault (List Value)
  | [] => .ok []
  | d :: ds =>
    match d.toValue depth with
    | .error f => .error f
    | .ok v =>
      match itemValues depth ds with
      | .error f => .error f
      | .ok vs => .ok (v :: vs)

def fieldValues (depth : Nat) :
    List (String × Option Fault × Doc) → Except Fault (List (String × Value))
  | [] => .ok []
  | (_, some f, _) :: _ => .error f
  | (k, none, d) :: rest =>
    match d.toValue depth with
    | .error f => .error f
    | .ok v =>
      match fieldValues depth rest with
      | .error f => .error f
      | .ok kvs => .ok ((k, v) :: kvs)

end

mutual

/-- The first fault that a decoder meets which passes over a tree without looking at it. -/
def Doc.hardFault : Doc → Option Fault
  | .broken f => some f
  | .arr items stop => (itemsFault items).or stop
  | .obj fields stop => (fieldsFault fields).or stop
  | .null => none
  | .bool _ => none
  | .num _ => none
  | .str _ _ => none

def itemsFault : List Doc → Option Fault
  | [] => none
  | d :: ds => d.hardFault.or (itemsFault ds)

def fieldsFault : List (String × Option Fault × Doc) → Option Fault
  | [] => none
  | (_, _, d) :: rest => d.hardFault.or (fieldsFault rest)

end

mutual

/-- The tree of a value. -/
def Doc.ofValue : Value → Doc
  | .null => .null
  | .bool b => .bool b
  | .int n => .num (.int n)
  | .float f => .num (.float f)
  | .str s => .str s none
  | .arr items => .arr (docItems items) none
  | .obj fields => .obj (docFields fields) none

def docItems : List Value → List Doc
  | [] => []
  | v :: rest => Doc.ofValue v :: docItems rest

def docFields : List (String × Value) → List (String × Option Fault × Doc)
  | [] => []
  | (k, v) :: rest => (k, none, Doc.ofValue v) :: docFields rest

end

/-- The value of a text, with nothing but blanks around it. -/
def Value.parse (text : String) : Except Fault Value :=
  match Doc.read text with
  | (d, trailing) =>
    match d.toValue maxDepth, trailing with
    | .error f, _ => .error f
    | .ok _, some f => .error f
    | .ok v, none => .ok v

end Enclave.Json
