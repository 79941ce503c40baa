import Enclave.Text.Blank
import Enclave.Decimal.Reading
import Enclave.Decimal.Notation

/-!
# Moments

A moment is a date and a time of day in universal time, to the nanosecond. It is written as
`2024-01-01T00:00:00Z`, with three, six or nine digits of a second where they are needed. The
reader also takes an offset, blanks in places, and a letter in lower case or a blank between date
and time; a moment with an offset is moved to universal time.
-/

namespace Enclave

/-- A moment in universal time. -/
structure Instant where
  year : Int
  month : Nat
  day : Nat
  hour : Nat
  minute : Nat
  second : Nat
  nanos : Nat
  deriving Repr, DecidableEq

namespace Instant

/-! ## The calendar -/

def isLeap (year : Int) : Bool := (year % 4 == 0 && year % 100 != 0) || year % 400 == 0

/-- The number of days of a month. -/
def daysIn (year : Int) (month : Nat) : Nat :=
  if month = 2 then (if isLeap year then 29 else 28)
  else if month = 4 ∨ month = 6 ∨ month = 9 ∨ month = 11 then 30
  else 31

/-- The day after. -/
def nextDay (i : Instant) : Instant :=
  if i.day < daysIn i.year i.month then { i with day := i.day + 1 }
  else if i.month < 12 then { i with month := i.month + 1, day := 1 }
  else { i with year := i.year + 1, month := 1, day := 1 }

/-- The day before. -/
def previousDay (i : Instant) : Instant :=
  if 1 < i.day then { i with day := i.day - 1 }
  else if 1 < i.month then { i with month := i.month - 1, day := daysIn i.year (i.month - 1) }
  else { i with year := i.year - 1, month := 12, day := 31 }

/-- The moment some seconds earlier or later, at most a day. The second of the minute is kept
apart, so that a leap second stays one. -/
def shift (i : Instant) (seconds : Int) : Instant :=
  let leap := i.second - 59
  let ofDay : Int := (i.hour * 3600 + i.minute * 60 + (i.second - leap) : Nat) + seconds
  let (day, ofDay) :=
    if ofDay < 0 then (i.previousDay, ofDay + 86400)
    else if 86400 ≤ ofDay then (i.nextDay, ofDay - 86400)
    else (i, ofDay)
  let n := ofDay.toNat
  { day with hour := n / 3600, minute := n / 60 % 60, second := n % 60 + leap }

/-! ## Writing -/

/-- A number with at least so many digits. -/
def padded (width n : Nat) : List Char :=
  let ds := Decimal.digitChars n
  List.replicate (width - ds.length) '0' ++ ds

/-- The digits of a second behind its point. -/
def fraction (nanos : Nat) : List Char :=
  if nanos = 0 then []
  else if nanos % 1000000 = 0 then '.' :: padded 3 (nanos / 1000000)
  else if nanos % 1000 = 0 then '.' :: padded 6 (nanos / 1000)
  else '.' :: padded 9 nanos

/-- A year; one of more than four digits has a sign. -/
def yearChars (year : Int) : List Char :=
  if 0 ≤ year ∧ year ≤ 9999 then padded 4 year.toNat
  else (if year < 0 then '-' else '+') :: padded 4 year.natAbs

def text (i : Instant) : String := String.ofList
  (yearChars i.year ++ '-' :: padded 2 i.month ++ '-' :: padded 2 i.day ++
    'T' :: padded 2 i.hour ++ ':' :: padded 2 i.minute ++ ':' :: padded 2 i.second ++
    fraction i.nanos ++ ['Z'])

/-! ## Reading -/

/-- Why a text is no moment. -/
inductive Fault where
  | invalid
  | tooShort
  | tooLong
  | outOfRange
  deriving Repr, DecidableEq

/-- The wording of a fault. -/
def Fault.message : Fault → String
  | .invalid => "input contains invalid characters"
  | .tooShort => "premature end of input"
  | .tooLong => "trailing input"
  | .outOfRange => "input is out of range"

/-- The text behind its blanks. -/
def skipBlank (cs : List Char) : List Char := cs.dropWhile Text.isBlank

/-- A number of at most so many digits, blanks in front of it left out. -/
def number (most : Nat) (cs : List Char) : Except Fault (Nat × List Char) :=
  let cs := skipBlank cs
  let ds := (cs.take most).takeWhile Char.isDigit
  if ds.isEmpty then .error (if cs.isEmpty then .tooShort else .invalid)
  else .ok (Decimal.ofDigits ds, cs.drop ds.length)

/-- A number within bounds. -/
def numberIn (low high : Nat) (cs : List Char) : Except Fault (Nat × List Char) := do
  let (n, rest) ← number 2 cs
  if low ≤ n ∧ n ≤ high then return (n, rest) else .error .outOfRange

/-- A year: four digits, or any number of them behind a sign. -/
def readYear (cs : List Char) : Except Fault (Int × List Char) :=
  match skipBlank cs with
  | '-' :: rest => (number rest.length rest).map fun r => (-(r.1 : Int), r.2)
  | '+' :: rest => (number rest.length rest).map fun r => ((r.1 : Int), r.2)
  | cs => (number 4 cs).map fun r => ((r.1 : Int), r.2)

/-- A sign between numbers, with blanks in front of it. -/
def separator (c : Char) (cs : List Char) : Except Fault (List Char) :=
  match skipBlank cs with
  | [] => .error .tooShort
  | d :: rest => if d = c then .ok rest else .error .invalid

/-- The digits of a second behind its point, as nanoseconds; digits beyond the ninth are left
out. -/
def readFraction (cs : List Char) : Except Fault (Nat × List Char) :=
  match cs with
  | '.' :: rest =>
    let ds := rest.takeWhile Char.isDigit
    if ds.isEmpty then .error (if rest.isEmpty then .tooShort else .invalid)
    else
      let kept := ds.take 9
      .ok (Decimal.ofDigits kept * 10 ^ (9 - kept.length), rest.drop ds.length)
  | cs => .ok (0, cs)

/-- A digit. -/
def digit (cs : List Char) : Except Fault (Nat × List Char) :=
  match cs with
  | [] => .error .tooShort
  | c :: rest => if c.isDigit then .ok (c.toNat - '0'.toNat, rest) else .error .invalid

/-- Two digits. -/
def twoDigits (cs : List Char) : Except Fault (Nat × List Char) := do
  let (a, cs) ← digit cs
  let (b, cs) ← digit cs
  return (a * 10 + b, cs)

/-- The minutes of an offset, with colons and blanks in front of them. -/
def readOffsetMinutes (cs : List Char) : Except Fault (Nat × List Char) := do
  let cs := cs.dropWhile fun c => c == ':' || Text.isBlank c
  let (m, cs) ← twoDigits cs
  if m < 60 then return (m, cs) else .error .outOfRange

/-- The seconds by which a local time is ahead of universal time. -/
def readOffset (cs : List Char) : Except Fault (Int × List Char) :=
  match cs with
  | [] => .error .tooShort
  | c :: rest =>
    if c = 'Z' ∨ c = 'z' then .ok (0, rest)
    else if String.ofList ((cs.take 3).map Char.toLower) = "utc" then .ok (0, cs.drop 3)
    else if c = '+' ∨ c = '-' ∨ c = '−' then do
      let (h, rest) ← twoDigits rest
      let (m, rest) ← readOffsetMinutes rest
      let seconds : Int := (h * 3600 + m * 60 : Nat)
      return (if c = '+' then seconds else -seconds, rest)
    else .error .invalid

/-- The moment that a text names. -/
def ofText (text : String) : Except Fault Instant := do
  let (year, cs) ← readYear text.toList
  let cs ← separator '-' cs
  let (month, cs) ← numberIn 1 12 cs
  let cs ← separator '-' cs
  let (day, cs) ← numberIn 1 31 cs
  let cs ← match cs with
    | [] => .error .tooShort
    | c :: rest => if c = 'T' ∨ c = 't' ∨ c = ' ' then .ok rest else .error .invalid
  let (hour, cs) ← numberIn 0 23 cs
  let cs ← separator ':' cs
  let (minute, cs) ← numberIn 0 59 cs
  let cs ← separator ':' cs
  let (second, cs) ← numberIn 0 60 cs
  let (nanos, cs) ← readFraction cs
  let (offset, cs) ← readOffset (skipBlank cs)
  if !(skipBlank cs).isEmpty then .error .tooLong
  else if daysIn year month < day ∨ 86400 ≤ offset.natAbs then .error .outOfRange
  else return shift ⟨year, month, day, hour, minute, second, nanos⟩ (-offset)

end Instant

end Enclave
