import Enclave.Text.Identifier.Letters

/-!
# Identifiers

An identifier begins with a letter or an underscore and goes on with letters, digits, marks and
underscores. In ASCII these are the obvious characters; beyond it the ranges of `identifierStarts`
and `identifierParts` say which.
-/

namespace Enclave.Text

/-- Whether a character lies in one of some ranges of code points. -/
def liesIn (ranges : List (Nat × Nat)) (c : Char) : Bool :=
  ranges.any fun r => r.1 ≤ c.toNat && c.toNat ≤ r.2

/-- A character of ASCII. -/
def isAscii (c : Char) : Bool := c.toNat < 0x80

/-- A character that an identifier may begin with. -/
def isIdentifierStart (c : Char) : Bool :=
  if isAscii c then c.isAlpha || c == '_' else liesIn identifierStarts c

/-- A character that an identifier may go on with. -/
def isIdentifierPart (c : Char) : Bool :=
  if isAscii c then c.isAlphanum || c == '_'
  else liesIn identifierStarts c || liesIn identifierParts c

/-- Whether a text is an identifier. -/
def isIdentifier : List Char → Bool
  | [] => false
  | c :: cs => isIdentifierStart c && cs.all isIdentifierPart

end Enclave.Text
