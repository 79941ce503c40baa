import Enclave.Decimal.Binary

/-!
# Reading decimals

A decimal is an optional sign, digits with at most one point among or around them, and an optional
exponent; there are also the words for infinity and for no number, in any case. The double read is
the one nearest to the decimal. An integer is an optional sign and digits.
-/

namespace Enclave.Decimal

/-- The number that digits stand for. -/
def ofDigits (ds : List Char) : Nat := ds.foldl (fun n d => n * 10 + (d.toNat - '0'.toNat)) 0

/-- A sign, if there is one: whether the number is negative, and the text behind it. -/
def takeSign : List Char → Bool × List Char
  | '-' :: rest => (true, rest)
  | '+' :: rest => (false, rest)
  | cs => (false, cs)

/-- An integer with an optional sign. -/
def readInt? (cs : List Char) : Option Int :=
  let (negative, ds) := takeSign cs
  if ds.isEmpty || !ds.all Char.isDigit then none
  else some (if negative then -(ofDigits ds : Int) else ofDigits ds)

/-- The exponent at the end of a decimal; zero when there is none. -/
def readExponent? : List Char → Option Int
  | [] => some 0
  | e :: rest => if e = 'e' || e = 'E' then readInt? rest else none

/-- The words for numbers that are not finite. -/
def infinityWords : List String := ["inf", "infinity"]

/-- A decimal as the double nearest to it. -/
def readFloat? (cs : List Char) : Option Float :=
  let (negative, body) := takeSign cs
  let sign (f : Float) : Float := if negative then -f else f
  let word := String.ofList (body.map Char.toLower)
  if infinityWords.contains word then some (sign (1.0 / 0.0))
  else if word == "nan" then some (0.0 / 0.0)
  else
    let whole := body.takeWhile Char.isDigit
    let rest := body.dropWhile Char.isDigit
    let (fraction, rest) := match rest with
      | '.' :: r => (r.takeWhile Char.isDigit, r.dropWhile Char.isDigit)
      | r => ([], r)
    if whole.isEmpty && fraction.isEmpty then none
    else (readExponent? rest).map fun e =>
      sign (nearestDecimal (ofDigits (whole ++ fraction)) (e - fraction.length))

end Enclave.Decimal
