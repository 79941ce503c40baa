import Enclave.Script.Numeral

/-!
# Texts in scripts

A text stands between quotes, one or three on each side. Letters in front of the opening quote
say whether it holds bytes, whether backslashes stand for themselves, and whether it has fields:
expressions between braces whose values are put into the text.

* `read` reads a text from its first letter or quote on.
* `escapesHold` says whether every escape of a text is complete.
* `pieces` cuts a text with fields into plain pieces and fields. A field has its expression,
  perhaps a conversion, and perhaps a format; the format may have fields of its own, and these no
  further ones.
-/

namespace Enclave.Script.Quotation

/-- A piece of a text with fields. -/
inductive Piece where
  | plain
  /-- A field: its expression, and the pieces of its format. -/
  | field (code : List Char) (format : Option (List Piece))
  deriving Inhabited

/-- What a text is. -/
inductive Content where
  | text
  | bytes
  | formatted (pieces : List Piece)
  deriving Inhabited

/-- What the letters in front of a quote say. -/
structure Marks where
  bytes : Bool
  raw : Bool
  formatted : Bool
  deriving Repr, DecidableEq

/-- The letters that may stand in front of a quote, in lower case. -/
def marksOf (letters : List Char) : Option Marks :=
  match letters.map Char.toLower with
  | [] => some ⟨false, false, false⟩
  | ['u'] => some ⟨false, false, false⟩
  | ['r'] => some ⟨false, true, false⟩
  | ['b'] => some ⟨true, false, false⟩
  | ['f'] => some ⟨false, false, true⟩
  | ['b', 'r'] => some ⟨true, true, false⟩
  | ['r', 'b'] => some ⟨true, true, false⟩
  | ['f', 'r'] => some ⟨false, true, true⟩
  | ['r', 'f'] => some ⟨false, true, true⟩
  | _ => none

/-- Whether a character opens and closes texts. -/
def isQuote (c : Char) : Bool := c == '\'' || c == '"'

/-- The letters at the beginning of a text in front of its quote, and the rest from the quote
on. -/
def opening (cs : List Char) : Option (Marks × List Char) :=
  let letters := (cs.take 3).takeWhile fun c => !isQuote c
  let rest := cs.drop letters.length
  if (rest.head?.map isQuote).getD false then (marksOf letters).map fun m => (m, rest) else none

/-- The characters of a text up to its closing quote, and what stands behind it. The characters
read already come first, the last of these in front; `triple` says whether three quotes close the
text. Only then may a line end in it without a backslash. -/
def body (quote : Char) (triple : Bool) (found : List Char) :
    List Char → Option (List Char × List Char)
  | [] => none
  | c :: cs =>
    if c = '\\' then
      match cs with
      | d :: rest => body quote triple (d :: c :: found) rest
      | [] => none
    else if c = quote then
      if triple then
        match cs with
        | d :: e :: rest =>
          if d = quote && e = quote then some (found.reverse, rest)
          else body quote triple (c :: found) (d :: e :: rest)
        | _ => none
      else some (found.reverse, cs)
    else if c = '\n' && !triple then none
    else body quote triple (c :: found) cs

/-- The characters of a text from its opening quote on, and what stands behind it. -/
def content (cs : List Char) : Option (List Char × List Char) :=
  match cs with
  | q :: d :: e :: rest =>
    if d = q && e = q then body q true [] rest else body q false [] (d :: e :: rest)
  | [q, d] => body q false [] [d]
  | _ => none

/-! ## Escapes -/

/-- Whether a text begins with so many hexadecimal digits. -/
def beginsHex (n : Nat) (cs : List Char) : Bool :=
  (cs.take n).length == n && (cs.take n).all Numeral.isHexDigit

/-- The number of a hexadecimal digit. -/
def hexValue (c : Char) : Nat :=
  if c.isDigit then c.toNat - '0'.toNat else c.toLower.toNat - 'a'.toNat + 10

/-- The number that hexadecimal digits stand for. -/
def hexNumber (cs : List Char) : Nat := cs.foldl (fun n c => n * 16 + hexValue c) 0

/-- Whether a text begins with the name of a character between braces. -/
def beginsNamed (cs : List Char) : Bool :=
  match cs with
  | '{' :: rest =>
    let name := rest.takeWhile fun c => c.isAlphanum || c == ' ' || c == '-'
    !name.isEmpty && rest[name.length]? == some '}'
  | _ => false

/-- Whether every escape of a text is complete. Bytes know only the short one. -/
def escapesHold (bytes : Bool) : List Char → Bool
  | [] => true
  | c :: cs =>
    if c = '\\' then
      match cs with
      | [] => true
      | d :: rest =>
        let holds :=
          if d = 'x' then beginsHex 2 rest
          else if bytes then true
          else if d = 'u' then beginsHex 4 rest
          else if d = 'U' then beginsHex 8 rest && hexNumber (rest.take 8) ≤ 0x10FFFF
          else if d = 'N' then beginsNamed rest
          else true
        if holds then escapesHold bytes rest else false
    else escapesHold bytes cs

/-! ## Fields -/

/-- Whether a character opens a bracket. -/
def isOpening (c : Char) : Bool := c == '(' || c == '[' || c == '{'

/-- Whether a character closes a bracket. -/
def isClosing (c : Char) : Bool := c == ')' || c == ']' || c == '}'

/-- Whether two brackets belong together. -/
def pairs (o c : Char) : Bool :=
  (o == '(' && c == ')') || (o == '[' && c == ']') || (o == '{' && c == '}')

/-- The expression of a field and the text from the character on that ends it, outside of quotes
and brackets. `quote` is the quote of the text that is open, and whether it is a triple one;
`brackets` are the open brackets. Backslashes and comments may not occur. -/
def code (found : List Char) (quote : Option (Char × Bool)) (brackets : List Char) :
    List Char → Option (List Char × List Char)
  | [] => none
  | c :: cs =>
    if c = '\\' then none
    else
      match quote with
      | some (q, triple) =>
        if c = q then
          if triple then
            match cs with
            | d :: e :: rest =>
              if d = q && e = q then code (e :: d :: c :: found) none brackets rest
              else code (c :: found) quote brackets (d :: e :: rest)
            | _ => none
          else code (c :: found) none brackets cs
        else code (c :: found) quote brackets cs
      | none =>
        if isQuote c then
          match cs with
          | d :: e :: rest =>
            if d = c && e = c then code (e :: d :: c :: found) (some (c, true)) brackets rest
            else code (c :: found) (some (c, false)) brackets (d :: e :: rest)
          | [d] => code (c :: found) (some (c, false)) brackets [d]
          | [] => none
        else if isOpening c then code (c :: found) none (c :: brackets) cs
        else if c = '#' then none
        else if brackets.isEmpty && ['!', ':', '}', '=', '<', '>'].contains c then
          match cs with
          | d :: rest =>
            if d = '=' && ['!', '=', '<', '>'].contains c then
              code (d :: c :: found) none brackets rest
            else if c = '<' || c = '>' then code (c :: found) none brackets (d :: rest)
            else some (found.reverse, c :: d :: rest)
          | [] => if c = '<' || c = '>' then none else some (found.reverse, [c])
        else if isClosing c then
          match brackets with
          | o :: outer => if pairs o c then code (c :: found) none outer cs else none
          | [] => none
        else code (c :: found) none brackets cs

/-- A blank in front of which an expression of a field is still empty. -/
def isFieldBlank (c : Char) : Bool := c == ' ' || c == '\t' || c == '\n' || c == '\x0c'

/-- The text behind the sign that repeats the expression of a field, and behind the blanks after
it. -/
def behindEcho (cs : List Char) : List Char :=
  match cs with
  | '=' :: rest => rest.dropWhile fun c => isFieldBlank c || c == '\r' || c == '\x0b'
  | _ => cs

/-- The text behind a conversion, if there is one. -/
def behindConversion (cs : List Char) : Option (List Char) :=
  match cs with
  | '!' :: c :: rest => if ['s', 'r', 'a'].contains c then some rest else none
  | ['!'] => none
  | _ => some cs

/-- The format of a field, if there is one. -/
def formatOf (format : List Char → Option (List Piece × List Char)) (cs : List Char) :
    Option (Option (List Piece) × List Char) :=
  match cs with
  | ':' :: rest => if rest.isEmpty then none else (format rest).map fun r => (some r.1, r.2)
  | _ => some (none, cs)

/-- A field behind its opening brace, and the text behind its closing one. -/
def field (format : List Char → Option (List Piece × List Char)) (cs : List Char) :
    Option (Piece × List Char) := do
  let (expression, rest) ← code [] none [] cs
  if expression.all isFieldBlank then none
  let rest ← behindConversion (behindEcho rest)
  let (spec, rest) ← formatOf format rest
  match rest with
  | '}' :: rest => return (.field expression spec, rest)
  | _ => none

/-- The plain text in front of a field, whether a doubled brace ended it, and the text behind. The
characters read already come first, the last of these in front; `named` says whether they end
within the name of a character. Braces are doubled only outside of formats. -/
def plainText (raw inFormat named : Bool) (found : List Char) :
    List Char → Option (List Char × Bool × List Char)
  | [] => some (found.reverse, false, [])
  | c :: cs =>
    if named then plainText raw inFormat (c != '}') (c :: found) cs
    else if c = '\\' && !raw then
      match cs with
      | [] => some ((c :: found).reverse, false, [])
      | d :: rest =>
        if d = '{' || d = '}' then plainText raw inFormat false (c :: found) (d :: rest)
        else if d = 'N' then
          match rest with
          | e :: more => plainText raw inFormat (e == '{') (e :: d :: c :: found) more
          | [] => some ((d :: c :: found).reverse, false, [])
        else plainText raw inFormat false (d :: c :: found) rest
    else if c = '{' || c = '}' then
      match inFormat, cs with
      | true, _ => some (found.reverse, false, c :: cs)
      | false, d :: rest =>
        if d = c then some ((c :: found).reverse, true, rest)
        else if c = '}' then none
        else some (found.reverse, false, c :: d :: rest)
      | false, [] => if c = '}' then none else some (found.reverse, false, [c])
    else plainText raw inFormat false (c :: found) cs

/-- The pieces of a text behind those already read, the last of these first, and the text from
the brace on that ends them. The first argument bounds the number of steps. -/
def piecesBehind (raw inFormat : Bool) (field : List Char → Option (Piece × List Char)) :
    Nat → List Piece → List Char → Option (List Piece × List Char)
  | 0, _, _ => none
  | fuel + 1, found, cs =>
    match plainText raw inFormat false [] cs with
    | none => none
    | some (text, doubled, rest) =>
      if raw || escapesHold false text then
        let found := if text.isEmpty then found else .plain :: found
        if doubled then piecesBehind raw inFormat field fuel found rest
        else
          match rest with
          | '{' :: more =>
            match field more with
            | some (f, rest) => piecesBehind raw inFormat field fuel (f :: found) rest
            | none => none
          | _ => some (found.reverse, rest)
      else none

/-- The pieces of a text with fields, and the text behind them; so many levels of formats may
have fields. -/
def piecesFrom (raw : Bool) : Nat → Bool → List Char → Option (List Piece × List Char)
  | 0, inFormat, cs => piecesBehind raw inFormat (fun _ => none) (cs.length + 1) [] cs
  | n + 1, inFormat, cs =>
    piecesBehind raw inFormat (field (piecesFrom raw n true)) (cs.length + 1) [] cs

/-- The pieces of a text with fields. -/
def pieces (raw : Bool) (cs : List Char) : Option (List Piece) :=
  match piecesFrom raw 2 false cs with
  | some (ps, []) => some ps
  | _ => none

/-- A text at the beginning of some characters, and the characters behind it. -/
def read (cs : List Char) : Option (Content × List Char) := do
  let (marks, rest) ← opening cs
  let (text, rest) ← content rest
  if marks.formatted then return (.formatted (← pieces marks.raw text), rest)
  else if marks.bytes && !text.all Text.isAscii then none
  else if marks.raw || escapesHold marks.bytes text then
    return (if marks.bytes then .bytes else .text, rest)
  else none

end Enclave.Script.Quotation
