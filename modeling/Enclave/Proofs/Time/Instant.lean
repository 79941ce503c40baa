import Enclave.Time.Instant
import Enclave.Proofs.Decimal.Numeral
import Enclave.Proofs.Decimal.Reading
import Enclave.Proofs.Outcome
import Mathlib.Data.List.TakeWhile

/-!
# Moments read back

A text is read only as a moment that the calendar has (`valid_of_ofText`), and such a moment reads
back from what is written of it (`Valid.ofText_text`). The numbers of a moment are written with as
many digits as are read of them, so what follows a number never matters; only a year may have more
digits than are asked for, and then it has a sign.
-/

namespace Enclave

open Decimal (Digits digits_digitChars digitChars ofDigits)

/-! ## Numbers -/

namespace Instant

theorem digits_padded (width n : Nat) : Digits (padded width n) := (digits_digitChars n).zeros _

theorem ofDigits_padded (width n : Nat) : ofDigits (padded width n) = n := by
  have hzeros : ∀ k, ofDigits (List.replicate k '0') = 0 := by
    intro k
    induction k with
    | zero => rfl
    | succ k ih => exact ih
  rw [padded, ofDigits, List.foldl_append, ← ofDigits, hzeros, ← ofDigits]
  exact Decimal.ofDigits_digitChars n

theorem length_padded {width n : Nat} (hwidth : 0 < width) (h : n < 10 ^ width) :
    (padded width n).length = width := by
  have hdigits : (digitChars n).length ≤ width := Nat.toDigits_length 10 n width hwidth h
  rw [padded, List.length_append, List.length_replicate]
  omega

/-- A text whose first character is no digit. -/
def NoDigitAhead (rest : List Char) : Prop := ∀ c ∈ rest.head?, c.isDigit = false

theorem NoDigitAhead.cons {c : Char} (h : c.isDigit = false) (rest : List Char) :
    NoDigitAhead (c :: rest) := by
  rintro d hd
  obtain rfl := Option.some.inj hd
  exact h

theorem NoDigitAhead.takeWhile_take {rest : List Char} (h : NoDigitAhead rest) (k : Nat) :
    (rest.take k).takeWhile Char.isDigit = [] := by
  cases rest with
  | nil => simp
  | cons c rest =>
    cases k with
    | zero => rfl
    | succ k => exact List.takeWhile_cons_of_neg (by simp [h c rfl])

theorem skipBlank_digits {ds : List Char} (hds : Digits ds) (rest : List Char) :
    skipBlank (ds ++ rest) = ds ++ rest := by
  obtain ⟨c, cs, rfl⟩ := List.exists_cons_of_ne_nil hds.nonempty
  exact List.dropWhile_cons_of_neg (by simp [Decimal.isBlank_of_isDigit (hds.digit c (by simp))])

/-- Digits are a number, if there are as many as are read or no others behind them. -/
theorem number_digits {ds rest : List Char} {most : Nat} (hds : Digits ds)
    (hmost : ds.length = most ∨ ds.length ≤ most ∧ NoDigitAhead rest) :
    number most (ds ++ rest) = .ok (ofDigits ds, rest) := by
  have htake : ((ds ++ rest).take most).takeWhile Char.isDigit = ds := by
    have hself : ds.takeWhile Char.isDigit = ds := by
      rw [← List.append_nil ds, List.takeWhile_append_of_pos (by simpa using hds.digit)]
      simp
    rcases hmost with rfl | ⟨hle, hrest⟩
    · rw [List.take_left, hself]
    · rw [List.take_append, List.take_of_length_le hle, List.takeWhile_append_of_pos hds.digit,
        hrest.takeWhile_take, List.append_nil]
  have hne : ds.isEmpty = false := by simpa using hds.nonempty
  rw [number, skipBlank_digits hds]
  simp only [htake, hne, List.drop_left, Bool.false_eq_true, if_false]

theorem number_padded {width n : Nat} (hwidth : 0 < width) (h : n < 10 ^ width)
    (rest : List Char) : number width (padded width n ++ rest) = .ok (n, rest) := by
  rw [number_digits (digits_padded width n) (.inl (length_padded hwidth h)), ofDigits_padded]

theorem numberIn_padded {low high n : Nat} (hlow : low ≤ n) (hhigh : n ≤ high) (h : n < 100)
    (rest : List Char) : numberIn low high (padded 2 n ++ rest) = .ok (n, rest) := by
  rw [numberIn, number_padded (by decide) h]
  exact if_pos ⟨hlow, hhigh⟩

theorem separator_self {c : Char} (hc : Text.isBlank c = false) (rest : List Char) :
    separator c (c :: rest) = .ok rest := by
  have hskip : skipBlank (c :: rest) = c :: rest := List.dropWhile_cons_of_neg (by simp [hc])
  rw [separator, hskip]
  exact if_pos rfl

theorem readYear_digits {ds rest : List Char} (hds : Digits ds) :
    readYear (ds ++ rest) = (number 4 (ds ++ rest)).map fun r => ((r.1 : Int), r.2) := by
  obtain ⟨c, cs, rfl⟩ := List.exists_cons_of_ne_nil hds.nonempty
  have hdigit := hds.digit c (by simp)
  have hminus : c ≠ '-' := Decimal.ne_of_isDigit hdigit rfl
  have hplus : c ≠ '+' := Decimal.ne_of_isDigit hdigit rfl
  rw [readYear, skipBlank_digits hds]
  split <;> simp_all

/-- A year reads back in front of the hyphen. -/
theorem readYear_yearChars (year : Int) (rest : List Char) :
    readYear (yearChars year ++ '-' :: rest) = .ok (year, '-' :: rest) := by
  have hsigned : ∀ n, number (padded 4 n ++ '-' :: rest).length (padded 4 n ++ '-' :: rest)
      = .ok (n, '-' :: rest) := fun n => by
    rw [number_digits (digits_padded 4 n) (.inr ⟨by simp, .cons rfl rest⟩), ofDigits_padded]
  rw [yearChars]
  -- Four digits, or a sign and as many digits as there are.
  split
  case isTrue h =>
    have hsmall : year.toNat < 10 ^ 4 := by omega
    have hyear : ((year.toNat : Nat) : Int) = year := by omega
    rw [readYear_digits (digits_padded 4 _), number_padded (by decide) hsmall]
    simp only [Except.map, hyear]
  case isFalse h =>
    split
    case isTrue hneg =>
      have hyear : -((year.natAbs : Nat) : Int) = year := by omega
      have hskip : ∀ cs, skipBlank ('-' :: cs) = '-' :: cs := fun cs =>
        List.dropWhile_cons_of_neg (by decide)
      rw [List.cons_append, readYear, hskip]
      simp only [hsigned, Except.map, hyear]
    case isFalse hpos =>
      have hyear : ((year.natAbs : Nat) : Int) = year := by omega
      have hskip : ∀ cs, skipBlank ('+' :: cs) = '+' :: cs := fun cs =>
        List.dropWhile_cons_of_neg (by decide)
      rw [List.cons_append, readYear, hskip]
      simp only [hsigned, Except.map, hyear]

/-! ## Fractions -/

theorem readFraction_padded {width n : Nat} (hwidth : 0 < width) (hmost : width ≤ 9)
    (h : n < 10 ^ width) {rest : List Char} (hrest : NoDigitAhead rest) :
    readFraction ('.' :: (padded width n ++ rest)) = .ok (n * 10 ^ (9 - width), rest) := by
  have hds := digits_padded width n
  have hlength := length_padded hwidth h
  have htake : (padded width n ++ rest).takeWhile Char.isDigit = padded width n := by
    have hnone := hrest.takeWhile_take rest.length
    rw [List.take_length] at hnone
    rw [List.takeWhile_append_of_pos (by simpa using hds.digit), hnone, List.append_nil]
  have hne : (padded width n).isEmpty = false := by simpa using hds.nonempty
  have hkept : (padded width n).take 9 = padded width n :=
    List.take_of_length_le (by omega)
  rw [readFraction]
  simp only [htake, hne, hkept, hlength, ofDigits_padded, List.drop_left' hlength,
    Bool.false_eq_true, if_false]

/-- The digits of a second read back. -/
theorem readFraction_fraction {nanos : Nat} (h : nanos < 10 ^ 9) :
    readFraction (fraction nanos ++ ['Z']) = .ok (nanos, ['Z']) := by
  have hend : NoDigitAhead ['Z'] := .cons rfl []
  rw [fraction]
  -- No digits, three, six or nine of them; those that are missing are zeros.
  split
  case isTrue hzero =>
    subst hzero
    rfl
  split
  case isTrue hmilli =>
    rw [List.cons_append, readFraction_padded (by decide) (by decide) (by omega) hend]
    congr 2
    omega
  split
  case isTrue hmicro =>
    rw [List.cons_append, readFraction_padded (by decide) (by decide) (by omega) hend]
    congr 2
    omega
  · rw [List.cons_append, readFraction_padded (by decide) (by decide) h hend]
    congr 2
    omega

/-! ## Moments of the calendar -/

/-- A moment that the calendar has, a leap second included. -/
structure Valid (i : Instant) : Prop where
  month : 1 ≤ i.month ∧ i.month ≤ 12
  day : 1 ≤ i.day ∧ i.day ≤ daysIn i.year i.month
  hour : i.hour ≤ 23
  minute : i.minute ≤ 59
  second : i.second ≤ 60
  nanos : i.nanos < 10 ^ 9

theorem daysIn_le (year : Int) (month : Nat) : 28 ≤ daysIn year month ∧ daysIn year month ≤ 31 := by
  unfold daysIn
  split
  · split <;> decide
  · split <;> decide

theorem Valid.shift_zero {i : Instant} (h : i.Valid) : i.shift 0 = i := by
  obtain ⟨year, month, day, hour, minute, second, nanos⟩ := i
  obtain ⟨-, -, hhour, hminute, hsecond, -⟩ := h
  simp only at hhour hminute hsecond
  simp only [shift]
  rw [if_neg (by omega), if_neg (by omega)]
  simp only [mk.injEq, true_and, and_true]
  refine ⟨?_, ?_, ?_⟩ <;> omega

theorem Valid.nextDay {i : Instant} (h : i.Valid) : i.nextDay.Valid := by
  have hmonth := h.month
  have hday := h.day
  unfold Instant.nextDay
  split
  case isTrue hlt => exact { h with day := ⟨Nat.le_add_left 1 _, hlt⟩ }
  split
  case isTrue hlt =>
    have hdays := daysIn_le i.year (i.month + 1)
    exact { h with month := ⟨Nat.le_add_left 1 _, hlt⟩, day := ⟨Nat.le_refl 1, by simp only; omega⟩ }
  · have hdays := daysIn_le (i.year + 1) 1
    exact { h with
      month := ⟨Nat.le_refl 1, by simp only; omega⟩
      day := ⟨Nat.le_refl 1, by simp only; omega⟩ }

theorem Valid.previousDay {i : Instant} (h : i.Valid) : i.previousDay.Valid := by
  have hmonth := h.month
  have hday := h.day
  unfold Instant.previousDay
  split
  case isTrue hlt => exact { h with day := ⟨by simp only; omega, by simp only; omega⟩ }
  split
  case isTrue hlt =>
    have hdays := daysIn_le i.year (i.month - 1)
    exact { h with
      month := ⟨by simp only; omega, by simp only; omega⟩
      day := ⟨by simp only; omega, Nat.le_refl _⟩ }
  · exact { h with
      month := ⟨by simp only; omega, Nat.le_refl 12⟩
      day := ⟨by simp only; omega, Nat.le_refl _⟩ }

/-- A moment stays one when it is moved by less than a day. -/
theorem Valid.shift {i : Instant} (h : i.Valid) {seconds : Int} (hseconds : seconds.natAbs < 86400) :
    (i.shift seconds).Valid := by
  have hhour := h.hour
  have hminute := h.minute
  have hsecond := h.second
  -- Whatever the day, the time of day comes from the seconds that are left.
  have hsplit : ∀ (day : Instant) (n : Nat), day.Valid → n < 86400 →
      Valid { day with
        hour := n / 3600, minute := n / 60 % 60, second := n % 60 + (i.second - 59) } :=
    fun day n hday hn => { hday with
      hour := by simp only; omega
      minute := by simp only; omega
      second := by simp only; omega }
  unfold Instant.shift
  simp only
  split
  · exact hsplit _ _ h.previousDay (by omega)
  split
  · exact hsplit _ _ h.nextDay (by omega)
  · exact hsplit _ _ h (by omega)

theorem numberIn_eq_ok {low high n : Nat} {cs rest : List Char}
    (h : numberIn low high cs = .ok (n, rest)) : low ≤ n ∧ n ≤ high := by
  obtain ⟨⟨m, cs'⟩, -, h⟩ := bind_eq_ok.mp h
  simp only at h
  split at h
  case isTrue hbounds =>
    cases h
    exact hbounds
  case isFalse => cases h

theorem ofDigits_lt {ds : List Char} (h : ∀ d ∈ ds, d.isDigit = true) :
    ofDigits ds < 10 ^ ds.length := by
  rw [ofDigits]
  have hfrom : ∀ n, ds.foldl (fun n d => n * 10 + (d.toNat - '0'.toNat)) n
      < (n + 1) * 10 ^ ds.length := by
    induction ds with
    | nil => intro n; simp
    | cons d ds ih =>
      intro n
      obtain ⟨hd, hds⟩ := List.forall_mem_cons.mp h
      have hdigit : d.toNat - '0'.toNat ≤ 9 := by
        simp only [Char.isDigit, ge_iff_le, Bool.and_eq_true, decide_eq_true_eq,
          UInt32.le_iff_toNat_le] at hd
        have hhigh : d.toNat ≤ 57 := hd.2
        have hzero : '0'.toNat = 48 := rfl
        omega
      rw [List.foldl_cons, List.length_cons, Nat.pow_succ, Nat.mul_comm (10 ^ _), ← Nat.mul_assoc]
      refine Nat.lt_of_lt_of_le (ih hds _) (Nat.mul_le_mul_right _ ?_)
      omega
  simpa using hfrom 0

theorem readFraction_eq_ok {nanos : Nat} {cs rest : List Char}
    (h : readFraction cs = .ok (nanos, rest)) : nanos < 10 ^ 9 := by
  unfold readFraction at h
  split at h
  case h_1 behind =>
    simp only at h
    split at h
    · split at h <;> cases h
    · cases h
      have hkept : ∀ d ∈ (behind.takeWhile Char.isDigit).take 9, d.isDigit = true := fun d hd =>
        List.mem_takeWhile_imp (List.mem_of_mem_take hd)
      have hlt := ofDigits_lt hkept
      have hle : ((behind.takeWhile Char.isDigit).take 9).length ≤ 9 := List.length_take_le _ _
      calc _ < 10 ^ ((behind.takeWhile Char.isDigit).take 9).length
            * 10 ^ (9 - ((behind.takeWhile Char.isDigit).take 9).length) :=
          Nat.mul_lt_mul_of_pos_right hlt (Nat.pow_pos (by decide))
        _ = 10 ^ 9 := by rw [← Nat.pow_add, Nat.add_sub_cancel' hle]
  case h_2 =>
    cases h
    decide

/-- What is read is a moment of the calendar. -/
theorem valid_of_ofText {t : String} {i : Instant} (h : ofText t = .ok i) : i.Valid := by
  obtain ⟨⟨year, cs⟩, -, h⟩ := bind_eq_ok.mp h
  obtain ⟨cs, -, h⟩ := bind_eq_ok.mp h
  obtain ⟨⟨month, cs⟩, hmonth, h⟩ := bind_eq_ok.mp h
  obtain ⟨cs, -, h⟩ := bind_eq_ok.mp h
  obtain ⟨⟨day, cs⟩, hday, h⟩ := bind_eq_ok.mp h
  simp only at h
  split at h
  · cases h
  split at h
  swap
  · cases h
  obtain ⟨cs, -, h⟩ := bind_eq_ok.mp h
  obtain ⟨⟨hour, cs⟩, hhour, h⟩ := bind_eq_ok.mp h
  obtain ⟨cs, -, h⟩ := bind_eq_ok.mp h
  obtain ⟨⟨minute, cs⟩, hminute, h⟩ := bind_eq_ok.mp h
  obtain ⟨cs, -, h⟩ := bind_eq_ok.mp h
  obtain ⟨⟨second, cs⟩, hsecond, h⟩ := bind_eq_ok.mp h
  obtain ⟨⟨nanos, cs⟩, hnanos, h⟩ := bind_eq_ok.mp h
  obtain ⟨⟨offset, cs⟩, -, h⟩ := bind_eq_ok.mp h
  simp only at h
  split at h
  · cases h
  split at h
  · cases h
  rename_i hrange
  cases h
  rw [not_or, Nat.not_lt, Nat.not_le] at hrange
  have hlocal : Valid ⟨year, month, day, hour, minute, second, nanos⟩ :=
    ⟨numberIn_eq_ok hmonth, ⟨(numberIn_eq_ok hday).1, hrange.1⟩, (numberIn_eq_ok hhour).2,
      (numberIn_eq_ok hminute).2, (numberIn_eq_ok hsecond).2, readFraction_eq_ok hnanos⟩
  exact hlocal.shift (by rw [Int.natAbs_neg]; exact hrange.2)

/-- **A moment reads back** from its text. -/
theorem Valid.ofText_text {i : Instant} (h : i.Valid) : ofText i.text = .ok i := by
  have hdays := daysIn_le i.year i.month
  have hday := h.day
  have hmonth := h.month
  have htext : i.text.toList = yearChars i.year ++ '-' :: (padded 2 i.month ++ '-' ::
      (padded 2 i.day ++ 'T' :: (padded 2 i.hour ++ ':' :: (padded 2 i.minute ++ ':' ::
        (padded 2 i.second ++ (fraction i.nanos ++ ['Z'])))))) := by
    simp [text]
  have hhyphen := fun rest => separator_self (c := '-') (by decide) rest
  have hcolon := fun rest => separator_self (c := ':') (by decide) rest
  have hmonthIs := fun rest => numberIn_padded hmonth.1 hmonth.2 (by omega) rest
  have hdayIs := fun rest => numberIn_padded hday.1 (show i.day ≤ 31 by omega) (by omega) rest
  have hhourIs := fun rest => numberIn_padded (Nat.zero_le _) h.hour (by have := h.hour; omega) rest
  have hminuteIs := fun rest =>
    numberIn_padded (Nat.zero_le _) h.minute (by have := h.minute; omega) rest
  have hsecondIs := fun rest =>
    numberIn_padded (Nat.zero_le _) h.second (by have := h.second; omega) rest
  have hoffset : readOffset (skipBlank ['Z']) = .ok (0, []) := rfl
  rw [ofText, htext]
  simp only [bind, Except.bind, readYear_yearChars, hhyphen, hcolon, hmonthIs, hdayIs, hhourIs,
    hminuteIs, hsecondIs, readFraction_fraction h.nanos, hoffset, true_or, if_true]
  rw [if_neg (by decide), if_neg (by omega)]
  exact congrArg Except.ok h.shift_zero

end Instant

end Enclave
