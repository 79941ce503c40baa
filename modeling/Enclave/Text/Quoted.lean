import Enclave.Decimal.Notation

/-!
# Quoted text in messages

A message that shows a text puts it between double quotes. The quote, the backslash and the
characters that a reader could not see are escaped: by a letter where there is one, else by their
code point in hexadecimal.
-/

namespace Enclave.Text

/-- Lower-case hexadecimal digits of a natural. -/
def hexText (n : Nat) : String := String.ofList (Nat.toDigits 16 n)

/-- Upper-case hexadecimal digits of a natural, at least four. -/
def codePointText (n : Nat) : String :=
  let ds := (Nat.toDigits 16 n).map Char.toUpper
  String.ofList (List.replicate (4 - ds.length) '0' ++ ds)

/-- Code points that show nothing by themselves: controls, blanks other than the space, format
characters, private use and non-characters, and marks that combine with the character before
them. -/
def isUnseen (c : Char) : Bool :=
  let n := c.toNat
  let between (a b : Nat) : Bool := a ≤ n && n ≤ b
  between 0x00 0x1F || between 0x7F 0xA0 || n == 0xAD || between 0x0300 0x036F ||
  between 0x0483 0x0489 || between 0x0591 0x05BD || between 0x0600 0x0605 ||
  between 0x064B 0x065F || n == 0x061C || n == 0x06DD || n == 0x070F || n == 0x1680 ||
  n == 0x180E || between 0x1AB0 0x1ACE || between 0x1DC0 0x1DFF || between 0x2000 0x200F ||
  between 0x2028 0x202F || between 0x205F 0x206F || between 0x20D0 0x20F0 || n == 0x3000 ||
  between 0x302A 0x302F || between 0x3099 0x309A || between 0xE000 0xF8FF ||
  between 0xFE00 0xFE0F || between 0xFE20 0xFE2F || n == 0xFEFF || between 0xFFF0 0xFFFB ||
  between 0xFFFE 0xFFFF || between 0xE0000 0xE0FFF || between 0xF0000 0x10FFFF

/-- A character as it stands between the quotes of a message. -/
def quotedChar (c : Char) : List Char :=
  if c = '"' then ['\\', '"']
  else if c = '\\' then ['\\', '\\']
  else if c = '\n' then ['\\', 'n']
  else if c = '\r' then ['\\', 'r']
  else if c = '\t' then ['\\', 't']
  else if c = '\x00' then ['\\', '0']
  else if isUnseen c then '\\' :: 'u' :: '{' :: (Nat.toDigits 16 c.toNat ++ ['}'])
  else [c]

/-- A text between double quotes. -/
def quoted (s : String) : String :=
  String.ofList ('"' :: (s.toList.flatMap quotedChar ++ ['"']))

/-- Texts with a separator between neighbours. -/
def joined (sep : String) : List String → String
  | [] => ""
  | [s] => s
  | s :: rest => s ++ sep ++ joined sep rest

end Enclave.Text
