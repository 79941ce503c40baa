/-!
# Doubles as exact fractions

A finite double is a natural number times a power of two. This module opens a double into that
form and goes the other way: `nearest` is the double closest to a quotient of naturals, a tie
going to the even mantissa. Everything is exact arithmetic on naturals; no rounding happens
except the one that `nearest` names.
-/

/- Powers of numbers are those of the core library, also where further instances are in scope. -/
attribute [instance (high + 1), default_instance high + 1] instPowNat

namespace Enclave.Decimal

/-- The size of a finite double: `mantissa * 2 ^ exponent`. -/
structure Binary where
  mantissa : Nat
  exponent : Int
  /-- The gap to the next smaller double is half the gap to the next larger one. -/
  narrowBelow : Bool
  deriving Repr, DecidableEq

/-- What the bits of a double say: a signed size, an infinity, or no number. -/
inductive Reading where
  | finite (negative : Bool) (size : Binary)
  | infinite (negative : Bool)
  | notANumber
  deriving Repr, DecidableEq

/-- Opens the 64 bits of a double: one of sign, eleven of exponent, fifty-two of fraction. -/
def Reading.ofBits (bits : UInt64) : Reading :=
  let n := bits.toNat
  let negative := 2 ^ 63 ≤ n
  let biased : Nat := n / 2 ^ 52 % 2 ^ 11
  let fraction : Nat := n % 2 ^ 52
  if biased = 2047 then
    if fraction = 0 then .infinite negative else .notANumber
  else if biased = 0 then
    .finite negative ⟨fraction, -1074, false⟩
  else
    .finite negative ⟨2 ^ 52 + fraction, (biased : Int) - 1075, fraction = 0 && 1 < biased⟩

/-- Opens a double. -/
def Reading.ofFloat (f : Float) : Reading := .ofBits f.toBits

/-- A number that is neither an infinity nor undefined. -/
def isFinite (f : Float) : Bool :=
  match Reading.ofFloat f with
  | .finite _ _ => true
  | _ => false

/-- A quotient rounded to the nearest natural, a half going to the even neighbour. -/
def divNearestEven (num den : Nat) : Nat :=
  let q := num / den
  let r := num % den
  if 2 * r < den then q
  else if den < 2 * r then q + 1
  else if q % 2 = 0 then q else q + 1

/-- The bits of the double nearest to `num / den`, for a positive `den`. The quotient is scaled so
that its integer part has 53 bits, or fewer at the smallest exponent, and rounded once; a size
beyond the largest double gives the bits of infinity. -/
def nearestBits (num den : Nat) : Nat :=
  if num = 0 then 0
  else
    -- `shift` is chosen so that `num / den * 2 ^ (-shift)` lies in `[2 ^ 52, 2 ^ 53)`.
    let guess : Int := (num.log2 : Int) - (den.log2 : Int) - 52
    let fits (e : Int) : Bool :=
      let a := if e < 0 then num * 2 ^ (-e).toNat else num
      let b := if e < 0 then den else den * 2 ^ e.toNat
      b * 2 ^ 52 ≤ a
    let shift : Int := if fits guess then guess else guess - 1
    let e : Int := if shift < -1074 then -1074 else shift
    let a := if e < 0 then num * 2 ^ (-e).toNat else num
    let b := if e < 0 then den else den * 2 ^ e.toNat
    let m := divNearestEven a b
    -- A mantissa that rounds up to 2 ^ 53 carries into the exponent field by itself.
    let bits : Nat := if m < 2 ^ 52 then m else ((e + 1074).toNat) * 2 ^ 52 + m
    if 2047 * 2 ^ 52 ≤ bits then 2047 * 2 ^ 52 else bits

/-- The double nearest to `num / den`, for a positive `den`. -/
def nearest (num den : Nat) : Float := Float.ofBits (UInt64.ofNat (nearestBits num den))

/-- The double nearest to `digits * 10 ^ exponent`. Exponents outside the range of doubles are cut
first, so that a text such as `1e999999999` costs nothing. -/
def nearestDecimal (digits : Nat) (exponent : Int) : Float :=
  if digits = 0 then 0.0
  else
    let places : Int := (Nat.toDigits 10 digits).length
    if 400 < exponent + places then nearest (10 ^ 400) 1
    else if exponent + places < -400 then 0.0
    else if 0 ≤ exponent then nearest (digits * 10 ^ exponent.toNat) 1
    else nearest digits (10 ^ (-exponent).toNat)

end Enclave.Decimal
