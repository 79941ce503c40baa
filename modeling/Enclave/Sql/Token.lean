import Enclave.Text.Blank

/-!
# The tokens of a statement

A statement is cut into tokens from left to right. A quotation runs from its quote to the first
quote of the same kind that is not doubled; a letter right in front of it may say what kind of text
it is. Words are letters, digits and underscores behind a letter or an underscore; numbers are
digits with at most one point and an exponent. Of the symbols that fit, the longest is taken.

`lexemes` keeps with every token the number of its characters, so that the places of the
quotations can be read off; `tokens` are what the grammar reads, without blanks.
-/

namespace Enclave.Sql

/-- What a text between quotes stands for. -/
inductive TextKind where
  | plain
  | national
  | escaped
  | hexadecimal
  | bytes
  | raw
  | dollar
  deriving Repr, DecidableEq

/-- A token of a statement. -/
inductive Token where
  /-- A word or, with its quote, a quoted name. -/
  | word (text : String) (quote : Option Char)
  | number (digits : String) (long : Bool)
  | text (kind : TextKind) (content : String)
  | symbol (spelling : String)
  | blank
  | comment
  deriving Repr, DecidableEq, Inhabited

/-- A token and the number of characters behind its first. -/
structure Lexeme where
  token : Token
  extra : Nat
  deriving Repr, DecidableEq

/-- The number of characters of a token. -/
def Lexeme.width (l : Lexeme) : Nat := l.extra + 1

/-! ## Quotations -/

/-- The rest of a quotation behind its opening quote: its characters, doubled quotes undone, and
the number of characters up to and with the closing quote. The first arguments are what was read
already, the last character first. -/
def quotation (quote : Char) (content : List Char) (used : Nat) :
    List Char → Option (List Char × Nat)
  | [] => none
  | c :: cs =>
    if c = quote then
      match cs with
      | d :: rest =>
        if d = quote then quotation quote (quote :: content) (used + 2) rest
        else some (content.reverse, used + 1)
      | [] => some (content.reverse, used + 1)
    else quotation quote (c :: content) (used + 1) cs

/-- The rest of a quotation in which a backslash takes the next character with it. -/
def escapedQuotation (content : List Char) (used : Nat) : List Char → Option (List Char × Nat)
  | [] => none
  | [c] => if c = '\'' then some (content.reverse, used + 1) else none
  | c :: d :: rest =>
    if c = '\\' then escapedQuotation (d :: c :: content) (used + 2) rest
    else if c = '\'' then
      if d = '\'' then escapedQuotation ('\'' :: content) (used + 2) rest
      else some (content.reverse, used + 1)
    else escapedQuotation (c :: content) (used + 1) (d :: rest)

/-- A text token from the rest of its quotation; `before` characters stand between the first
character of the token and that rest. -/
def textLexeme (kind : TextKind) (before : Nat) (q : Option (List Char × Nat)) : Option Lexeme :=
  q.map fun r => ⟨.text kind (String.ofList r.1), before + r.2⟩

/-! ## Words and numbers -/

/-- A character that a word may begin with. -/
def isWordStart (c : Char) : Bool := c.isAlpha || c == '_'

/-- A character that a word may go on with. -/
def isWordPart (c : Char) : Bool := c.isAlphanum || c == '_'

/-- A word from its first character on. -/
def wordLexeme (first : Char) (cs : List Char) : Lexeme :=
  let more := cs.takeWhile isWordPart
  ⟨.word (String.ofList (first :: more)) none, more.length⟩

/-- A hexadecimal digit. -/
def isHexDigit (c : Char) : Bool :=
  c.isDigit || ('a' ≤ c && c ≤ 'f') || ('A' ≤ c && c ≤ 'F')

/-- An exponent at the beginning of a text: a letter, perhaps a sign, and digits. -/
def exponentChars (cs : List Char) : List Char :=
  match cs with
  | e :: rest =>
    if e = 'e' || e = 'E' then
      let sign := rest.take 1 |>.filter fun c => c == '+' || c == '-'
      let digits := (rest.drop sign.length).takeWhile Char.isDigit
      if digits.isEmpty then [] else e :: (sign ++ digits)
    else []
  | [] => []

/-- A number, or a single point. -/
def numberLexeme (cs : List Char) : Lexeme :=
  let whole := cs.takeWhile Char.isDigit
  let behind := cs.dropWhile Char.isDigit
  match whole, behind with
  | ['0'], 'x' :: rest =>
    let digits := rest.takeWhile isHexDigit
    ⟨.text .hexadecimal (String.ofList digits), digits.length + 1⟩
  | _, _ =>
    let point := behind.take 1 |>.filter (· == '.')
    let fraction := (behind.drop point.length).takeWhile Char.isDigit
    let mantissa := whole ++ point ++ fraction
    if mantissa = ['.'] then ⟨.symbol ".", 0⟩
    else
      let behind := behind.drop (point.length + fraction.length)
      let exponent := exponentChars behind
      let digits := mantissa ++ exponent
      let long := (behind.drop exponent.length).head? == some 'L'
      ⟨.number (String.ofList digits) long, digits.length - 1 + long.toNat⟩

/-! ## Comments and symbols -/

/-- The characters of a comment up to its end, where comments nest; `depth` of them are open. -/
def commentWidth (depth used : Nat) : List Char → Option Nat
  | [] => none
  | '*' :: '/' :: rest =>
    if depth ≤ 1 then some (used + 2) else commentWidth (depth - 1) (used + 2) rest
  | '/' :: '*' :: rest => commentWidth (depth + 1) (used + 2) rest
  | _ :: rest => commentWidth depth (used + 1) rest

/-- The symbols of more than one character, a longer one before its beginnings. -/
def longSymbols : List String :=
  ["<=>", "->>", "||/", "!~~*", "!~~", "!~*", "~~*", "#>>",
   "<=", "<>", "<<", "<@", ">=", ">>", "->", "||", "|/", "=>", "==", "!=", "!!", "!~", "//",
   "::", ":=", "&&", "^@", "~~", "~*", "#-", "#>", "@@", "@>", "@?"]

/-- The symbol at the beginning of a text. Two ways to write that something differs are one. -/
def symbolLexeme (first : Char) (cs : List Char) : Lexeme :=
  match longSymbols.find? fun s => s.toList.isPrefixOf (first :: cs) with
  | some s => ⟨.symbol (if s == "!=" then "<>" else s), s.toList.length - 1⟩
  | none => ⟨.symbol (String.ofList [first]), 0⟩

/-- A text between dollars with a tag: the characters up to the closing tag. -/
def dollarContent (tag content : List Char) : List Char → Option (List Char)
  | [] => none
  | c :: cs =>
    if tag.isPrefixOf (c :: cs) then some content.reverse
    else dollarContent tag (c :: content) cs

/-- A text between dollars, or a parameter. -/
def dollarLexeme (cs : List Char) : Option Lexeme :=
  let name := cs.takeWhile isWordPart
  match cs.dropWhile isWordPart with
  | '$' :: rest =>
    let tag := '$' :: (name ++ ['$'])
    (dollarContent tag [] rest).map fun content =>
      ⟨.text .dollar (String.ofList content), name.length + 1 + content.length + tag.length⟩
  | _ => some ⟨.symbol (String.ofList ('$' :: name)), name.length⟩

/-! ## The tokens of a text -/

/-- The kind of text that a letter in front of a single quote announces. -/
def announcedKind (c : Char) : Option TextKind :=
  match c with
  | 'b' | 'B' => some .bytes
  | 'r' | 'R' => some .raw
  | 'n' | 'N' => some .national
  | 'e' | 'E' => some .escaped
  | 'x' | 'X' => some .hexadecimal
  | _ => none

/-- The letters that announce a text also in front of a double quote. -/
def announcesAnyQuote (k : TextKind) : Bool := k = .bytes || k = .raw

/-- The token that begins with a character and goes on in a text; `none` when a quotation or a
comment is not closed. -/
def lexeme (c : Char) (cs : List Char) : Option Lexeme :=
  match announcedKind c, cs with
  | some .escaped, '\'' :: rest => textLexeme .escaped 1 (escapedQuotation [] 0 rest)
  | some kind, '\'' :: rest => textLexeme kind 1 (quotation '\'' [] 0 rest)
  | some kind, '"' :: rest =>
    if announcesAnyQuote kind then textLexeme kind 1 (quotation '"' [] 0 rest)
    else some (wordLexeme c cs)
  | _, _ =>
    if isWordStart c then some (wordLexeme c cs)
    else if c = '\'' then textLexeme .plain 0 (quotation '\'' [] 0 cs)
    else if c = '"' || c = '`' then
      (quotation c [] 0 cs).map fun r => ⟨.word (String.ofList r.1) (some c), r.2⟩
    else if c.isDigit || c = '.' then some (numberLexeme (c :: cs))
    else if c = '-' && cs.head? == some '-' then
      some ⟨.comment, (cs.takeWhile (· != '\n')).length + ((cs.dropWhile (· != '\n')).take 1).length⟩
    else if c = '/' && cs.head? == some '*' then
      (commentWidth 1 1 (cs.drop 1)).map fun n => ⟨.comment, n⟩
    else if c = '$' then dollarLexeme cs
    else if Text.isBlank c then some ⟨.blank, 0⟩
    else some (symbolLexeme c cs)

/-- The tokens of a text behind those already read, the last of these first. -/
def lexemesBehind (found : List Lexeme) (cs : List Char) : Option (List Lexeme) :=
  match cs with
  | [] => some found.reverse
  | c :: rest =>
    match lexeme c rest with
    | none => none
    | some l => lexemesBehind (l :: found) (rest.drop l.extra)
termination_by cs.length
decreasing_by simp only [List.length_drop, List.length_cons]; omega

/-- The tokens of a text with their widths. -/
def lexemes (cs : List Char) : Option (List Lexeme) := lexemesBehind [] cs

/-- A token that the grammar passes over. -/
def Token.isBlank : Token → Bool
  | .blank | .comment => true
  | _ => false

/-- The tokens that the grammar reads. -/
def grammarTokens (ls : List Lexeme) : List Token :=
  ls.filterMap fun l => if l.token.isBlank then none else some l.token

end Enclave.Sql
