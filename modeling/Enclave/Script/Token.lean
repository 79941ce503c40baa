import Enclave.Script.Quotation

/-!
# The tokens of a script

A script is cut into words, numbers, texts and symbols, and its layout into line ends and steps
of indentation. Of the symbols that fit, the longest is taken. A word is a keyword or a name.
-/

namespace Enclave.Script

/-- A token of a script. -/
inductive Token where
  | keyword (word : String)
  | name (id : String)
  | number (imaginary : Bool)
  | text (content : Quotation.Content)
  | symbol (spelling : String)
  /-- The end of a line that holds a statement. -/
  | newline
  /-- A step to the right in front of a line. -/
  | indent
  /-- A step back to the left in front of a line. -/
  | dedent
  deriving Inhabited

/-- The words that are no names. -/
def keywords : List String :=
  ["False", "None", "True", "and", "as", "assert", "async", "await", "break", "class", "continue",
   "def", "del", "elif", "else", "except", "finally", "for", "from", "global", "if", "import",
   "in", "is", "lambda", "nonlocal", "not", "or", "pass", "raise", "return", "try", "while",
   "with", "yield"]

/-- The symbols of the language, the longer ones first. -/
def symbols : List (List Char) :=
  ["...", "**=", "//=", ">>=", "<<=",
   "!=", "%=", "&=", "**", "*=", "+=", "-=", "->", "//", "/=", ":=", "<<", "<=", "<>", "==",
   ">=", ">>", "@=", "^=", "|=",
   "%", "&", "(", ")", "*", "+", ",", "-", ".", "/", ":", ";", "<", "=", ">", "@", "[", "]",
   "^", "\x7b", "|", "\x7d", "~"].map String.toList

namespace Token

/-- The token of a word. -/
def ofWord (word : List Char) : Option Token :=
  let w := String.ofList word
  if keywords.contains w then some (keyword w)
  else if Text.isIdentifier word then some (name w)
  else none

/-- The longest symbol at the beginning of a text, and the text behind it. -/
def readSymbol (cs : List Char) : Option (Token × List Char) :=
  (symbols.find? fun s => s.isPrefixOf cs).map fun s =>
    (symbol (String.ofList s), cs.drop s.length)

/-- A number at the beginning of a text, and the text behind it. -/
def ofNumeral (found : Option Numeral.Found) : Option (Token × List Char) :=
  found.map fun f => (number f.imaginary, f.rest)

/-- The token at the beginning of a text, and the text behind it. -/
def read (cs : List Char) : Option (Token × List Char) :=
  match cs with
  | [] => none
  | c :: rest =>
    if (Quotation.opening cs).isSome then
      (Quotation.read cs).map fun r => (text r.1, r.2)
    else if c.isDigit then ofNumeral (Numeral.read cs)
    else if c = '.' && (rest.head?.map Char.isDigit).getD false then
      ofNumeral (Numeral.fraction rest)
    else if Numeral.mayBelongToWord c then
      (ofWord (cs.takeWhile Numeral.mayBelongToWord)).map fun t =>
        (t, cs.dropWhile Numeral.mayBelongToWord)
    else readSymbol cs

end Token

end Enclave.Script
