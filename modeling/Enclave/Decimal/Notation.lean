import Enclave.Decimal.Shortest

/-!
# How a decimal is laid out

The digits of a double come from `Binary.shortest`; where the point stands, when an exponent is
written and what the exponent looks like are the decisions of an output format. One record holds
them, and each place that writes numbers has its own value of it.
-/

namespace Enclave.Decimal

/-- The decisions of an output format on decimals. -/
structure Notation where
  /-- Which of two equally near digit strings is written. -/
  tie : Tie
  /-- Decimal exponents (of the first digit) below this are written with an exponent. -/
  lowest : Option Int
  /-- Decimal exponents above this are written with an exponent. -/
  highest : Option Int
  /-- Whether a whole number keeps `.0` when it is written positionally. -/
  pointZero : Bool
  /-- Whether a positive exponent carries a plus sign. -/
  plusSign : Bool
  /-- The least number of digits of an exponent. -/
  exponentWidth : Nat

/-- The decimal digits of a natural, most significant first. -/
def digitChars (n : Nat) : List Char := Nat.toDigits 10 n

/-- A natural in decimal. -/
def natText (n : Nat) : String := String.ofList (digitChars n)

/-- An integer in decimal, with a minus sign when it is negative. -/
def intText : Int → String
  | .ofNat n => natText n
  | .negSucc n => "-" ++ natText (n + 1)

namespace Notation

/-- Digits with a decimal point: `k` is the exponent of the last digit. -/
def positional (c : Notation) (ds : List Char) (k : Int) : List Char :=
  if 0 ≤ k then
    ds ++ List.replicate k.toNat '0' ++ if c.pointZero then ['.', '0'] else []
  else
    let places := (-k).toNat
    if places < ds.length then
      ds.take (ds.length - places) ++ '.' :: ds.drop (ds.length - places)
    else
      '0' :: '.' :: (List.replicate (places - ds.length) '0' ++ ds)

/-- Digits with an exponent: one digit, a point if more follow, and the exponent of the first
digit. -/
def exponential (c : Notation) (ds : List Char) (e : Int) : List Char :=
  let mantissa := match ds with
    | d :: e :: r => d :: '.' :: e :: r
    | short => short
  let size := digitChars e.natAbs
  let padded := List.replicate (c.exponentWidth - size.length) '0' ++ size
  let sign := if e < 0 then ['-'] else if c.plusSign then ['+'] else []
  mantissa ++ 'e' :: sign ++ padded

/-- The text of a size that is not zero. -/
def sizeText (c : Notation) (s : Scientific) : List Char :=
  let ds := digitChars s.digits
  let e : Int := s.exponent + ds.length - 1
  let small := match c.lowest with
    | some low => decide (e < low)
    | none => false
  let large := match c.highest with
    | some high => decide (high < e)
    | none => false
  if small || large then c.exponential ds e else c.positional ds s.exponent

/-- The text of a double: the shortest digits that read back, laid out by the notation. Infinities
and undefined numbers are spelled `inf`, `-inf` and `NaN`. -/
def render (c : Notation) (f : Float) : String :=
  match Reading.ofFloat f with
  | .notANumber => "NaN"
  | .infinite negative => if negative then "-inf" else "inf"
  | .finite negative size =>
    let body := if size.mantissa = 0 then c.positional ['0'] 0 else c.sizeText (size.shortest c.tie)
    String.ofList (if negative then '-' :: body else body)

end Notation

/-- Decimals without exponent and without a needless `.0`. -/
def plain : Notation := ⟨.up, none, none, false, false, 1⟩

end Enclave.Decimal
