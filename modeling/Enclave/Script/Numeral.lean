import Enclave.Text.Identifier

/-!
# Numbers in scripts

A number is decimal, with a fraction and an exponent where they are written, or stands in one of
the bases 16, 8 and 2 behind a prefix. Single underscores may divide its digits; a `j` at the end
makes it imaginary. A whole number other than zero begins with no zero. Behind a number no
character of an identifier may follow, unless it begins one of the words that may stand behind a
value.
-/

namespace Enclave.Script.Numeral

/-- A number that was read: whether it is imaginary, and the text behind it. -/
structure Found where
  imaginary : Bool
  rest : List Char
  deriving Repr, DecidableEq

/-- A digit of base 16. -/
def isHexDigit (c : Char) : Bool :=
  c.isDigit || ('a' ≤ c && c ≤ 'f') || ('A' ≤ c && c ≤ 'F')

/-- A digit of base 8. -/
def isOctalDigit (c : Char) : Bool := '0' ≤ c && c ≤ '7'

/-- A digit of base 2. -/
def isBinaryDigit (c : Char) : Bool := c == '0' || c == '1'

/-- A character that may belong to an identifier: every one beyond ASCII might. -/
def mayBelongToWord (c : Char) : Bool := c.isAlphanum || c == '_' || !Text.isAscii c

/-- The text behind some digits. An underscore has to stand in front of a digit. -/
def behindDigits (isDigit : Char → Bool) : List Char → Option (List Char)
  | [] => some []
  | c :: cs =>
    if isDigit c then behindDigits isDigit cs
    else if c = '_' then
      if (cs.head?.map isDigit).getD false then behindDigits isDigit cs else none
    else some (c :: cs)

/-- Whether a text begins with a word that no further character of an identifier follows. -/
def beginsWith (word : String) (cs : List Char) : Bool :=
  word.toList.isPrefixOf cs && !((cs[word.length]?.map mayBelongToWord).getD false)

/-- Whether a number may end in front of a text. -/
def mayEndBefore (cs : List Char) : Bool :=
  match cs with
  | [] => true
  | c :: _ =>
    !mayBelongToWord c || ["and", "else", "for", "or", "not"].any (beginsWith · cs) ||
      ["if", "in", "is"].any fun w => w.toList.isPrefixOf cs

/-- A number that ends in front of a text, if it may. -/
def ending (imaginary : Bool) (cs : List Char) : Option Found :=
  if mayEndBefore cs then some ⟨imaginary, cs⟩ else none

/-- The end of a decimal number, perhaps with the letter of an imaginary one. -/
def suffix (cs : List Char) : Option Found :=
  match cs with
  | c :: rest => if c = 'j' || c = 'J' then ending true rest else ending false cs
  | [] => ending false []

/-- The exponent of a decimal number, if it has one, and its end. A letter of an exponent with
neither a digit nor a sign behind it does not belong to the number. -/
def exponent (cs : List Char) : Option Found :=
  match cs with
  | e :: rest =>
    if e = 'e' || e = 'E' then
      match rest with
      | d :: more =>
        if d.isDigit then (behindDigits Char.isDigit more).bind suffix
        else if d = '+' || d = '-' then
          if (more.head?.map Char.isDigit).getD false then
            (behindDigits Char.isDigit more).bind suffix
          else none
        else ending false cs
      | [] => ending false cs
    else suffix cs
  | [] => suffix []

/-- The digits behind a point, if there are any, and the rest of the number. -/
def fraction (cs : List Char) : Option Found :=
  if (cs.head?.map Char.isDigit).getD false then (behindDigits Char.isDigit cs).bind exponent
  else exponent cs

/-- The most digits that a decimal whole number may have. -/
def maxWholeDigits : Nat := 4300

/-- Whether digits may be written for a whole number. -/
def isWhole (digits : List Char) : Bool :=
  if digits.head? == some '0' then digits.all fun c => c == '0' || c == '_'
  else digits.countP Char.isDigit ≤ maxWholeDigits

/-- A decimal number at the beginning of a text that begins with a digit. -/
def decimal (cs : List Char) : Option Found :=
  (behindDigits Char.isDigit cs).bind fun rest =>
    match rest with
    | '.' :: more => fraction more
    | c :: _ =>
      let whole := cs.take (cs.length - rest.length)
      if c = 'e' || c = 'E' then
        (exponent rest).bind fun found =>
          if found.rest.length = rest.length && !isWhole whole then none else some found
      else if c = 'j' || c = 'J' then suffix rest
      else if isWhole whole then ending false rest else none
    | [] => if isWhole cs then some ⟨false, []⟩ else none

/-- The digits of a number behind the prefix of its base. -/
def based (isDigit : Char → Bool) (cs : List Char) : Option Found :=
  if (cs.head?.map fun c => isDigit c || c == '_').getD false then
    (behindDigits isDigit cs).bind (ending false)
  else none

/-- A number at the beginning of a text that begins with a digit. -/
def read (cs : List Char) : Option Found :=
  match cs with
  | '0' :: x :: rest =>
    if x = 'x' || x = 'X' then based isHexDigit rest
    else if x = 'o' || x = 'O' then based isOctalDigit rest
    else if x = 'b' || x = 'B' then based isBinaryDigit rest
    else decimal cs
  | _ => decimal cs

end Enclave.Script.Numeral
