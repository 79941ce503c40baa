import Enclave.Text.Quoted
import Enclave.Decimal.Notation
import Enclave.Sql.Token

/-!
# The screening of a statement

Two passes over a statement before its grammar is looked at. `screen` walks over the characters:
outside quotations it lets through ASCII words, blanks and a few punctuation marks; everywhere it
refuses backslashes and characters that can hide structure from a reader. `screenTokens` repeats
the checks of words on the tokens, so that nothing can hide behind a quotation that the first pass
saw elsewhere.

Both stop at the first offence, in the order of the text.
-/

namespace Enclave.Sql

/-- Why a statement is refused. -/
inductive Refusal where
  | blank
  | tooLong (size limit : Nat)
  | hidden (c : Char)
  | escapeText
  | keyword (word : String)
  | function (name : String)
  | separator
  | comment
  | notAscii (c : Char)
  | character (c : Char)
  | backslash
  | openText
  | openName
  | unparseable
  | notQuery
  | statements (count : Nat)
  deriving Repr, DecidableEq

/-- The wording of a refusal. -/
def Refusal.message : Refusal → String
  | .blank => "empty statement"
  | .tooLong size limit =>
    "statement is " ++ Decimal.natText size ++ " bytes, limit is " ++ Decimal.natText limit
  | .hidden c => "control or invisible character U+" ++ Text.codePointText c.toNat
  | .escapeText => "escape string literals are not allowed"
  | .keyword word => "keyword '" ++ word ++ "' is not allowed"
  | .function name => "function '" ++ name ++ "' is not allowed"
  | .separator => "statement separator ';' is not allowed"
  | .comment => "comments are not allowed"
  | .notAscii c => "non-ASCII character U+" ++ Text.codePointText c.toNat ++ " outside a literal"
  | .character c => "character '" ++ String.ofList [c] ++ "' is not allowed"
  | .backslash => "backslash is not allowed in SQL text"
  | .openText => "unterminated string literal"
  | .openName => "unterminated quoted identifier"
  | .unparseable => "unparseable statement"
  | .notQuery => "only SELECT queries are allowed"
  | .statements count => "expected exactly one statement, found " ++ Decimal.natText count

/-- Words that begin or belong to statements which change something. -/
def deniedKeywords : List String :=
  ["INSERT", "UPDATE", "DELETE", "MERGE", "UPSERT", "DROP", "CREATE", "ALTER", "TRUNCATE",
   "RENAME", "ATTACH", "DETACH", "COPY", "EXPORT", "IMPORT", "LOAD", "INSTALL", "PRAGMA",
   "SET", "RESET", "GRANT", "REVOKE", "CALL", "EXEC", "EXECUTE", "PREPARE", "DEALLOCATE",
   "VACUUM", "BEGIN", "COMMIT", "ROLLBACK", "SAVEPOINT", "LOCK", "UNLOCK", "INTO", "OUTFILE"]

/-- Functions that would let a statement reach files directly. -/
def deniedFunctions : List String :=
  ["read_csv", "read_csv_auto", "read_parquet", "read_json", "read_json_auto",
   "read_ndjson", "read_ipc", "read_text", "read_blob", "scan_csv", "scan_parquet",
   "scan_ndjson", "glob", "system", "shell"]

/-- The punctuation marks that may stand outside quotations. -/
def allowedPunctuation : List Char := "_,.()*+-/%<>=!|:".toList

/-- A character that can hide structure from a reader: a control code that is no ordinary blank, a
character without width, one that changes the direction of writing, or a byte order mark. -/
def isHidden (c : Char) : Bool :=
  let n := c.toNat
  (Text.isControl c && !(c == '\n' || c == '\r' || c == '\t')) ||
  (0x200B ≤ n && n ≤ 0x200F) || (0x202A ≤ n && n ≤ 0x202E) || (0x2060 ≤ n && n ≤ 0x2069) ||
  n == 0xFEFF

/-- A name that may not be called, whatever its case. -/
def isDeniedFunction (name : String) : Bool := deniedFunctions.contains (Text.asciiLower name)

/-- A word that may not stand in a statement, whatever its case. -/
def isDeniedKeyword (word : String) : Bool := deniedKeywords.contains (Text.asciiUpper word)

/-- The check of a word outside quotations. -/
def checkWord (word : String) : Except Refusal Unit :=
  if isDeniedKeyword word then .error (.keyword word)
  else if isDeniedFunction word then .error (.function word)
  else .ok ()

/-- The check of a name between quotes. -/
def checkName (name : String) : Except Refusal Unit :=
  if isDeniedFunction name then .error (.function name) else .ok ()

/-- Where the first pass stands: outside quotations with the word read so far, in a text, or in a
name with the characters read so far. Words and names are kept with the last character first. -/
inductive Place where
  | code (word : List Char)
  | text
  | name (content : List Char)
  deriving Repr, DecidableEq

/-- The text that was kept with its last character first. -/
def kept (cs : List Char) : String := String.ofList cs.reverse

/-- Whether the word read so far announces a text with escapes. -/
def announcesEscapes (word : List Char) : Bool := word == ['e'] || word == ['E']

/-- The step of the first pass over a character that ends a word outside quotations; `next` is the
character behind it. -/
def codeStep (word : List Char) (c : Char) (next : Option Char) : Except Refusal Place :=
  if c = '\'' && announcesEscapes word then .error .escapeText
  else
    match checkWord (kept word) with
    | .error r => .error r
    | .ok () =>
      if c = '\'' then .ok .text
      else if c = '"' then .ok (.name [])
      else if c = ';' then .error .separator
      else if c = '-' && next == some '-' then .error .comment
      else if c = '/' && next == some '*' then .error .comment
      else if Text.isAsciiBlank c || allowedPunctuation.contains c then .ok (.code [])
      else if c.toNat < 128 then .error (.character c)
      else .error (.notAscii c)

/-- The end of a statement at a place. -/
def endAt : Place → Except Refusal Unit
  | .code word => checkWord (kept word)
  | .text => .error .openText
  | .name _ => .error .openName

/-- The first pass, from a place on. -/
def screenFrom (place : Place) : List Char → Except Refusal Unit
  | [] => endAt place
  | c :: cs =>
    if isHidden c then .error (.hidden c)
    else
      match place with
      | .code word =>
        if isWordPart c then screenFrom (.code (c :: word)) cs
        else
          match codeStep word c cs.head? with
          | .error r => .error r
          | .ok next => screenFrom next cs
      | .text =>
        if c = '\\' then .error .backslash
        else if c = '\'' then
          match cs with
          | d :: rest => if d = '\'' then screenFrom .text rest else screenFrom (.code []) (d :: rest)
          | [] => screenFrom (.code []) []
        else screenFrom .text cs
      | .name content =>
        if c = '\\' then .error .backslash
        else if c = '"' then
          match cs with
          | d :: rest =>
            if d = '"' then screenFrom (.name ('"' :: content)) rest
            else
              match checkName (kept content) with
              | .error r => .error r
              | .ok () => screenFrom (.code []) (d :: rest)
          | [] =>
            match checkName (kept content) with
            | .error r => .error r
            | .ok () => screenFrom (.code []) []
        else screenFrom (.name (c :: content)) cs

/-- The first pass over a statement. -/
def screen (cs : List Char) : Except Refusal Unit := screenFrom (.code []) cs

/-- The check of a token. -/
def Token.check : Token → Except Refusal Unit
  | .symbol ";" => .error .separator
  | .comment => .error .comment
  | .text .escaped _ => .error .escapeText
  | .text .dollar _ => .error .escapeText
  | .word w none => checkWord w
  | .word w (some _) => checkName w
  | _ => .ok ()

/-- The second pass over a statement. -/
def screenTokens : List Lexeme → Except Refusal Unit
  | [] => .ok ()
  | l :: ls =>
    match l.token.check with
    | .error r => .error r
    | .ok () => screenTokens ls

end Enclave.Sql
