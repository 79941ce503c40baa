/-!
# Blank and control characters

Two classes of characters that the whole library shares, and trimming by the first of them.

* `isBlank` is the White_Space property: 25 code points, six of them in ASCII.
* `isControl` is the general category Cc: the two blocks of control codes.
* `trim` removes blanks at both ends and nothing else.
-/

namespace Enclave.Text

/-- A character with the White_Space property. -/
def isBlank (c : Char) : Bool :=
  let n := c.toNat
  (0x09 ≤ n && n ≤ 0x0D) || n == 0x20 || n == 0x85 || n == 0xA0 || n == 0x1680 ||
  (0x2000 ≤ n && n ≤ 0x200A) || n == 0x2028 || n == 0x2029 || n == 0x202F || n == 0x205F ||
  n == 0x3000

/-- A control code: below the space, or from U+007F to U+009F. -/
def isControl (c : Char) : Bool :=
  c.toNat < 0x20 || (0x7F ≤ c.toNat && c.toNat ≤ 0x9F)

/-- An ASCII letter or digit. -/
def isAsciiAlnum (c : Char) : Bool := c.isAlphanum

/-- Blanks that lie in ASCII, without the vertical tab. -/
def isAsciiBlank (c : Char) : Bool :=
  c == ' ' || c == '\t' || c == '\n' || c == '\r' || c == '\x0c'

/-- A list without its blank beginning. -/
def trimStart (cs : List Char) : List Char := cs.dropWhile isBlank

/-- A list without its blank end. -/
def trimEnd (cs : List Char) : List Char := (cs.reverse.dropWhile isBlank).reverse

/-- A list without blanks at either end. -/
def trimChars (cs : List Char) : List Char := trimEnd (trimStart cs)

/-- A text without blanks at either end. -/
def trim (s : String) : String := String.ofList (trimChars s.toList)

/-- A text that holds nothing but blanks. -/
def isBlankText (s : String) : Bool := s.toList.all isBlank

/-- The ASCII letters in lower case; every other character as it is. -/
def asciiLower (s : String) : String := String.ofList (s.toList.map Char.toLower)

/-- The ASCII letters in upper case; every other character as it is. -/
def asciiUpper (s : String) : String := String.ofList (s.toList.map Char.toUpper)

/-- The lines of a text: cut at every line feed, a carriage return before it removed, and no
empty line after a final line feed. -/
def linesOf (cs : List Char) : List (List Char) :=
  let step (c : Char) (acc : List Char × List (List Char)) : List Char × List (List Char) :=
    if c == '\n' then ([], acc.1 :: acc.2) else (c :: acc.1, acc.2)
  let (first, rest) := cs.foldr step ([], [])
  let all := first :: rest
  let kept := if all.getLast? == some [] then all.dropLast else all
  kept.map fun line => if line.getLast? == some '\r' then line.dropLast else line

end Enclave.Text
