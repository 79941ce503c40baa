import Enclave.Json.Value
import Enclave.Decimal.Notation

/-!
# Writing JSON

`Value.compact` writes a value on one line without blanks, `Value.pretty` with one member a line
and two blanks of indentation. Strings escape the quote, the backslash and the control codes below
the space, the six common ones by a letter; everything else stands for itself.
-/

namespace Enclave.Json

open Enclave.Decimal (Notation natText intText)

/-- JSON numbers: an exponent below `1e-5` and from `1e16`, with a sign and two digits. -/
def notation64 : Notation := ⟨.toEven, some (-5), some 15, true, true, 2⟩

/-- The text of a finite double. -/
def floatText (f : Float) : String := notation64.render f

/-- The hexadecimal digit of a number below sixteen. -/
def hexDigit (n : Nat) : Char := "0123456789abcdef".toList.getD n '0'

/-- A character inside a JSON string. -/
def escapeChar (c : Char) : List Char :=
  if c = '"' then ['\\', '"']
  else if c = '\\' then ['\\', '\\']
  else if c = '\n' then ['\\', 'n']
  else if c = '\r' then ['\\', 'r']
  else if c = '\t' then ['\\', 't']
  else if c = '\x08' then ['\\', 'b']
  else if c = '\x0c' then ['\\', 'f']
  else if c.toNat < 0x20 then
    ['\\', 'u', '0', '0', hexDigit (c.toNat / 16), hexDigit (c.toNat % 16)]
  else [c]

/-- A string between its quotes. -/
def stringChars (s : String) : List Char := '"' :: (s.toList.flatMap escapeChar ++ ['"'])

/-- A string as JSON text. -/
def stringText (s : String) : String := String.ofList (stringChars s)

/-- Pieces with a separator between neighbours. -/
def joinChars (sep : List Char) : List (List Char) → List Char
  | [] => []
  | [piece] => piece
  | piece :: rest => piece ++ sep ++ joinChars sep rest

mutual

/-- The characters of a value on one line. -/
def Value.chars : Value → List Char
  | .null => "null".toList
  | .bool true => "true".toList
  | .bool false => "false".toList
  | .int n => (intText n).toList
  | .float f => (floatText f).toList
  | .str s => stringChars s
  | .arr items => '[' :: (joinChars [','] (itemChars items) ++ [']'])
  | .obj fields => '{' :: (joinChars [','] (fieldChars fields) ++ ['}'])

def itemChars : List Value → List (List Char)
  | [] => []
  | v :: rest => v.chars :: itemChars rest

def fieldChars : List (String × Value) → List (List Char)
  | [] => []
  | (k, v) :: rest => (stringChars k ++ ':' :: v.chars) :: fieldChars rest

end

/-- A value on one line. -/
def Value.compact (v : Value) : String := String.ofList v.chars

/-- A line feed and the indentation of a depth. -/
def newline (depth : Nat) : List Char := '\n' :: List.replicate (2 * depth) ' '

mutual

/-- The characters of a value spread over lines. -/
def Value.prettyChars (depth : Nat) : Value → List Char
  | .arr [] => ['[', ']']
  | .arr (v :: rest) =>
    '[' :: (newline (depth + 1) ++
      joinChars (',' :: newline (depth + 1)) (prettyItems (depth + 1) (v :: rest)) ++
      newline depth ++ [']'])
  | .obj [] => ['{', '}']
  | .obj (f :: rest) =>
    '{' :: (newline (depth + 1) ++
      joinChars (',' :: newline (depth + 1)) (prettyFields (depth + 1) (f :: rest)) ++
      newline depth ++ ['}'])
  | .null => "null".toList
  | .bool true => "true".toList
  | .bool false => "false".toList
  | .int n => (intText n).toList
  | .float f => (floatText f).toList
  | .str s => stringChars s

def prettyItems (depth : Nat) : List Value → List (List Char)
  | [] => []
  | v :: rest => v.prettyChars depth :: prettyItems depth rest

def prettyFields (depth : Nat) : List (String × Value) → List (List Char)
  | [] => []
  | (k, v) :: rest => (stringChars k ++ ':' :: ' ' :: v.prettyChars depth) ::
      prettyFields depth rest

end

/-- A value spread over lines. -/
def Value.pretty (v : Value) : String := String.ofList (v.prettyChars 0)

end Enclave.Json
