import Enclave.Decimal.Binary

/-!
# The shortest decimal that reads back

`Binary.shortest` selects, among the decimals that round to a given double, one with the fewest
digits and of those the nearest. For one digit, two digits and so on it looks at the two grid
points next to the value and keeps those that lie in the interval of reals that round to it; the
first grid with a hit wins.
-/

namespace Enclave.Decimal

/-- `digits * 10 ^ exponent`, with no trailing zero among the digits. -/
structure Scientific where
  digits : Nat
  exponent : Int
  deriving Repr, DecidableEq

/-- Which of two equally near candidates is taken. -/
inductive Tie where
  | toEven
  | up
  deriving Repr, DecidableEq

/-- Moves trailing zeros of the digits into the exponent. The first argument bounds the number of
zeros moved. -/
def Scientific.strip : Nat → Scientific → Scientific
  | 0, s => s
  | n + 1, s =>
    if s.digits ≠ 0 ∧ s.digits % 10 = 0 then strip n ⟨s.digits / 10, s.exponent + 1⟩ else s

/-- The number of decimal digits of a natural. -/
def digitCount (n : Nat) : Nat := (Nat.toDigits 10 n).length

/-- The exponent `k` with `10 ^ k ≤ num / den < 10 ^ (k + 1)`, for positive arguments. -/
def magnitude (num den : Nat) : Int :=
  if den ≤ num then (digitCount (num / den) : Int) - 1
  else
    let k := digitCount (den / num)
    -- `den / num` has `k` digits, so the quotient lies between `10 ^ (-k)` and `10 ^ (1 - k)`.
    if den ≤ num * 10 ^ (k - 1) then 1 - (k : Int) else -(k : Int)

namespace Binary

/-- A size and the two ends of its rounding interval as numerators over one denominator. -/
structure Interval where
  low : Nat
  value : Nat
  high : Nat
  den : Nat
  /-- Whether the ends themselves round to the value. -/
  closed : Bool

/-- The reals that round to a size: halfway to each neighbour, the ends included when the mantissa
is even. -/
def interval (b : Binary) : Interval :=
  let e := b.exponent - 2
  let scale := 2 ^ e.toNat
  ⟨(4 * b.mantissa - if b.narrowBelow then 1 else 2) * scale, 4 * b.mantissa * scale,
    (4 * b.mantissa + 2) * scale, 2 ^ (-e).toNat, b.mantissa % 2 = 0⟩

namespace Interval

/-- Whether `digits * 10 ^ k` rounds to the value. -/
def holds (i : Interval) (digits : Nat) (k : Int) : Bool :=
  let point := digits * 10 ^ k.toNat * i.den
  let unit := 10 ^ (-k).toNat
  if i.closed then i.low * unit ≤ point && point ≤ i.high * unit
  else i.low * unit < point && point < i.high * unit

/-- The candidates on the grid `10 ^ k`: the two grid points next to the value that round to it,
the nearer one chosen. -/
def onGrid (i : Interval) (tie : Tie) (k : Int) : Option Nat :=
  let num := i.value * 10 ^ (-k).toNat
  let den := i.den * 10 ^ k.toNat
  let d := num / den
  let r := num % den
  match i.holds d k, i.holds (d + 1) k with
  | false, false => none
  | true, false => some d
  | false, true => some (d + 1)
  | true, true =>
    if 2 * r < den then some d
    else if den < 2 * r then some (d + 1)
    else match tie with
      | .up => some (d + 1)
      | .toEven => if d % 2 = 0 then some d else some (d + 1)

/-- Tries the grids with one more digit each; seventeen digits always suffice. -/
def search (i : Interval) (tie : Tie) (top : Int) : Nat → Nat → Scientific
  | 0, n => ⟨i.value * 10 ^ (n - top).toNat / i.den, top - n⟩
  | fuel + 1, n =>
    match i.onGrid tie (top - n) with
    | some d => ⟨d, top - n⟩
    | none => search i tie top fuel (n + 1)

end Interval

/-- The shortest decimal that rounds to a positive size. -/
def shortest (b : Binary) (tie : Tie) : Scientific :=
  if b.mantissa = 0 then ⟨0, 0⟩
  else
    let i := b.interval
    (i.search tie (magnitude i.value i.den) 17 0).strip 20

end Binary

end Enclave.Decimal
