import Enclave.Json.Printer
import Enclave.Json.Document
import Enclave.Proofs.Decimal.Numeral
import Mathlib.Data.List.TakeWhile

/-!
# Reading numbers

A whole number that fits into a word reads back as far as the text behind it cannot continue a
number (`readNumber_digitChars`). The reader of numbers looks one character ahead at most, so a
number that reads back alone reads back in front of anything else (`readNumber_append`). What it
reads are digits, and perhaps a fraction and an exponent behind them (`readNumber_shape`).
-/

namespace Enclave.Json

open Enclave.Decimal

/-! ## Numbers -/

/-- A text that cannot continue a number. -/
def EndsNumber (rest : List Char) : Prop :=
  ∀ c, rest.head? = some c → c.isDigit = false ∧ c ≠ '.' ∧ c ≠ 'e' ∧ c ≠ 'E'

theorem EndsNumber.nil : EndsNumber [] := by
  intro c h
  cases h

theorem EndsNumber.cons {c : Char} {rest : List Char} (hdigit : c.isDigit = false)
    (hpoint : c ≠ '.') (he : c ≠ 'e') (hE : c ≠ 'E') : EndsNumber (c :: rest) := by
  rintro _ ⟨⟩
  exact ⟨hdigit, hpoint, he, hE⟩

section Rest

variable {cs r rest : List Char} {n : Numeral} {negative : Bool} {word left : Nat}

theorem EndsNumber.takeWhile_isDigit (h : EndsNumber rest) : rest.takeWhile Char.isDigit = [] := by
  cases rest with
  | nil => rfl
  | cons c rest => exact List.takeWhile_cons_of_neg (by simp [(h c rfl).1])

theorem EndsNumber.dropWhile_isDigit (h : EndsNumber rest) :
    rest.dropWhile Char.isDigit = rest := by
  cases rest with
  | nil => rfl
  | cons c rest => exact List.dropWhile_cons_of_neg (by simp [(h c rfl).1])

/-- The digits at the beginning of a text do not depend on what ends a number behind it. -/
theorem takeWhile_isDigit_append (h : EndsNumber rest) (cs : List Char) :
    (cs ++ rest).takeWhile Char.isDigit = cs.takeWhile Char.isDigit := by
  rw [List.takeWhile_append, h.takeWhile_isDigit, List.append_nil]
  split
  · rename_i hall
    exact ((List.takeWhile_prefix Char.isDigit).eq_of_length hall).symm
  · rfl

theorem dropWhile_isDigit_append (h : EndsNumber rest) (cs : List Char) :
    (cs ++ rest).dropWhile Char.isDigit = cs.dropWhile Char.isDigit ++ rest := by
  rw [List.dropWhile_append, h.dropWhile_isDigit]
  split
  · rename_i hall
    rw [List.isEmpty_iff.mp hall, List.nil_append]
  · rfl

theorem exponentSign_append (h : (exponentSign cs).2 ≠ []) :
    exponentSign (cs ++ rest) = ((exponentSign cs).1, (exponentSign cs).2 ++ rest) := by
  unfold exponentSign at h ⊢
  split at h
  · rfl
  · rfl
  · rename_i hplus hminus
    obtain ⟨c, cs, rfl⟩ := List.exists_cons_of_ne_nil h
    rw [List.cons_append]
    split <;> simp_all

theorem behindLetter?_append (h : EndsNumber rest) (cs : List Char) :
    behindLetter? (cs ++ rest) = (behindLetter? cs).map (· ++ rest) := by
  cases cs with
  | nil =>
    cases rest with
    | nil => rfl
    | cons c rest =>
      obtain ⟨-, -, he, hE⟩ := h c rfl
      unfold behindLetter?
      rw [List.nil_append]
      split <;> simp_all
  | cons c cs =>
    unfold behindLetter?
    rw [List.cons_append]
    split <;> simp_all

theorem readExponent_append (h : EndsNumber rest) {start : Int}
    (hread : readExponent negative word start cs = .ok (n, r)) :
    readExponent negative word start (cs ++ rest) = .ok (n, r ++ rest) := by
  unfold readExponent at hread ⊢
  have hbody : (exponentSign cs).2 ≠ [] := by
    intro hnil
    simp [hnil] at hread
  rw [exponentSign_append hbody]
  simp only [takeWhile_isDigit_append h, dropWhile_isDigit_append h, List.isEmpty_iff,
    List.append_eq_nil_iff, hbody, false_and, if_false] at hread ⊢
  split at hread
  · cases hread
  rename_i hdigits
  rw [if_neg hdigits]
  split at hread
  · rename_i hsize
    rw [if_pos hsize]
    cases hread
    rfl
  rename_i hsize
  rw [if_neg hsize]
  split at hread
  · rename_i hlarge
    rw [if_pos hlarge]
    cases hread
    rfl
  · rename_i hlarge
    rw [if_neg hlarge]
    cases hread
    rfl

theorem readNumberTail_append (h : EndsNumber rest)
    (hread : readNumberTail negative word left cs = .ok (n, r)) :
    readNumberTail negative word left (cs ++ rest) = .ok (n, r ++ rest) := by
  unfold readNumberTail at hread ⊢
  split at hread
  · rename_i cs
    rw [List.cons_append]
    simp only [takeWhile_isDigit_append h, dropWhile_isDigit_append h,
      behindLetter?_append h] at hread ⊢
    split at hread
    · cases hread
    rename_i hdigits
    rw [if_neg hdigits]
    split at hread
    · rename_i hletter
      rw [hletter]
      exact readExponent_append h hread
    · rename_i hletter
      rw [hletter]
      cases hread
      rfl
  · rename_i hpoint
    have hpoint' : ∀ r, cs ++ rest ≠ '.' :: r := by
      intro r heq
      cases cs with
      | nil => exact absurd rfl (h '.' (by rw [← List.nil_append rest, heq]; rfl)).2.1
      | cons c cs =>
        cases heq
        exact hpoint _ rfl
    split
    · exact absurd ‹_› (hpoint' _)
    · simp only [behindLetter?_append h]
      split at hread
      · rename_i hletter
        rw [hletter]
        exact readExponent_append h hread
      · rename_i hletter
        rw [hletter]
        cases hread
        rfl

/-- A number that reads back alone reads back in front of anything that cannot continue it. -/
theorem readNumber_append (h : EndsNumber rest) (hread : readNumber negative cs = .ok (n, r)) :
    readNumber negative (cs ++ rest) = .ok (n, r ++ rest) := by
  unfold readNumber at hread
  split at hread
  · cases hread
  · rename_i cs
    rw [List.cons_append, readNumber]
    split at hread
    · cases hread
    rename_i hdigit
    have hdigit' : ¬ ((cs ++ rest).head?.map Char.isDigit).getD false = true := by
      cases cs with
      | nil =>
        cases rest with
        | nil => simp
        | cons d rest => simp [(h d rfl).1]
      | cons d cs => exact hdigit
    rw [if_neg hdigit']
    exact readNumberTail_append h hread
  · rename_i hnil hzero
    obtain ⟨c, cs, rfl⟩ := List.exists_cons_of_ne_nil hnil
    have hne : c ≠ '0' := by
      rintro rfl
      exact hzero cs rfl
    simp only at hread
    split at hread
    · cases hread
    rename_i hdigits
    rw [List.cons_append, readNumber]
    · simp only [← List.cons_append, takeWhile_isDigit_append h, dropWhile_isDigit_append h]
      rw [if_neg hdigits]
      exact readNumberTail_append h hread
    · exact List.cons_ne_nil _ _
    · rintro r ⟨⟩
      exact hne rfl

/-! ### The shape of a number -/

/-- The parts of a number behind its sign: digits, a point with digits, and an exponent. The last
two may be missing. -/
structure NumberShape (whole fraction exponent : List Char) : Prop where
  whole : Digits whole
  fraction : fraction = [] ∨ ∃ ds, fraction = '.' :: ds ∧ Digits ds
  exponent : exponent = [] ∨ ∃ e sign ds, exponent = e :: (sign ++ ds) ∧ (e = 'e' ∨ e = 'E') ∧
    (sign = [] ∨ sign = ['-'] ∨ sign = ['+']) ∧ Digits ds

theorem digits_takeWhile {cs : List Char} (h : (cs.takeWhile Char.isDigit).isEmpty = false) :
    Digits (cs.takeWhile Char.isDigit) :=
  ⟨List.isEmpty_eq_false_iff.mp h, fun _ hc => List.mem_takeWhile_imp hc⟩

theorem exponentSign_shape (cs : List Char) : ∃ sign, cs = sign ++ (exponentSign cs).2 ∧
    (sign = [] ∨ sign = ['-'] ∨ sign = ['+']) := by
  unfold exponentSign
  split
  · exact ⟨['+'], rfl, .inr (.inr rfl)⟩
  · exact ⟨['-'], rfl, .inr (.inl rfl)⟩
  · exact ⟨[], rfl, .inl rfl⟩

theorem readExponent_shape {start : Int} (h : readExponent negative word start cs = .ok (n, r)) :
    ∃ sign ds, cs = sign ++ ds ++ r ∧ (sign = [] ∨ sign = ['-'] ∨ sign = ['+']) ∧ Digits ds := by
  obtain ⟨sign, hcs, hsign⟩ := exponentSign_shape cs
  unfold readExponent at h
  simp only at h
  split at h
  · cases h
  split at h
  · cases h
  rename_i hdigits
  have hrest : (exponentSign cs).2.dropWhile Char.isDigit = r := by
    split at h
    · exact congrArg Prod.snd (Except.ok.inj h)
    split at h
    · exact congrArg Prod.snd (Except.ok.inj h)
    · exact congrArg Prod.snd (Except.ok.inj h)
  refine ⟨sign, _, ?_, hsign, digits_takeWhile (Bool.not_eq_true _ ▸ hdigits)⟩
  rw [← hrest, List.append_assoc, List.takeWhile_append_dropWhile, ← hcs]

theorem behindLetter?_shape (h : behindLetter? cs = some r) :
    ∃ e, cs = e :: r ∧ (e = 'e' ∨ e = 'E') := by
  unfold behindLetter? at h
  split at h
  · cases h
    exact ⟨'e', rfl, .inl rfl⟩
  · cases h
    exact ⟨'E', rfl, .inr rfl⟩
  · cases h

/-- What stands behind the digits of a number. -/
theorem exponent_shape {start : Int} {m : Numeral}
    (h : (match behindLetter? cs with
      | some r => readExponent negative word start r
      | none => .ok (m, cs)) = .ok (n, r)) :
    ∃ exponent, cs = exponent ++ r ∧ (exponent = [] ∨ ∃ e sign ds, exponent = e :: (sign ++ ds) ∧
      (e = 'e' ∨ e = 'E') ∧ (sign = [] ∨ sign = ['-'] ∨ sign = ['+']) ∧ Digits ds) := by
  split at h
  · rename_i hletter
    obtain ⟨e, rfl, he⟩ := behindLetter?_shape hletter
    obtain ⟨sign, ds, rfl, hsign, hds⟩ := readExponent_shape h
    exact ⟨e :: (sign ++ ds), rfl, .inr ⟨e, sign, ds, rfl, he, hsign, hds⟩⟩
  · exact ⟨[], congrArg Prod.snd (Except.ok.inj h), .inl rfl⟩

theorem readNumberTail_shape {whole : List Char} (hwhole : Digits whole)
    (h : readNumberTail negative word left cs = .ok (n, r)) :
    ∃ fraction exponent, cs = fraction ++ exponent ++ r ∧
      NumberShape whole fraction exponent := by
  unfold readNumberTail at h
  split at h
  · rename_i cs
    simp only at h
    split at h
    · cases h
    rename_i hdigits
    obtain ⟨exponent, hcs, hexponent⟩ := exponent_shape h
    have hds := digits_takeWhile (Bool.not_eq_true _ ▸ hdigits)
    refine ⟨'.' :: cs.takeWhile Char.isDigit, exponent, ?_, hwhole, .inr ⟨_, rfl, hds⟩, hexponent⟩
    rw [List.append_assoc, ← hcs, List.cons_append, List.takeWhile_append_dropWhile]
  · obtain ⟨exponent, hcs, hexponent⟩ := exponent_shape h
    exact ⟨[], exponent, hcs, hwhole, .inl rfl, hexponent⟩

/-- What is read as a number has the shape of one. -/
theorem readNumber_shape (h : readNumber negative cs = .ok (n, r)) :
    ∃ whole fraction exponent, cs = whole ++ (fraction ++ exponent) ++ r ∧
      NumberShape whole fraction exponent := by
  unfold readNumber at h
  split at h
  · cases h
  · split at h
    · cases h
    · obtain ⟨fraction, exponent, rfl, hshape⟩ := readNumberTail_shape digits_zero h
      exact ⟨['0'], fraction, exponent, rfl, hshape⟩
  · simp only at h
    split at h
    · cases h
    rename_i hdigits
    have hds := digits_takeWhile (Bool.not_eq_true _ ▸ hdigits)
    obtain ⟨fraction, exponent, hcs, hshape⟩ := readNumberTail_shape hds h
    refine ⟨_, fraction, exponent, ?_, hshape⟩
    rw [List.append_assoc, ← hcs, List.takeWhile_append_dropWhile]

/-- The characters of numbers. -/
def isNumberChar (c : Char) : Bool := c.isDigit || ['.', 'e', 'E', '+', '-'].contains c

theorem NumberShape.isNumberChar {whole fraction exponent : List Char}
    (h : NumberShape whole fraction exponent) :
    ∀ c ∈ whole ++ (fraction ++ exponent), isNumberChar c = true := by
  have hdigits : ∀ {ds : List Char}, Digits ds → ∀ c ∈ ds, Json.isNumberChar c = true :=
    fun hds c hc => by simp [Json.isNumberChar, hds.digit c hc]
  have hfraction : ∀ c ∈ fraction, Json.isNumberChar c = true := by
    obtain rfl | ⟨ds, rfl, hds⟩ := h.fraction
    · nofun
    · exact List.forall_mem_cons.mpr ⟨rfl, hdigits hds⟩
  have hexponent : ∀ c ∈ exponent, Json.isNumberChar c = true := by
    obtain rfl | ⟨e, sign, ds, rfl, he, hsign, hds⟩ := h.exponent
    · nofun
    · refine List.forall_mem_cons.mpr ⟨?_, List.forall_mem_append.mpr ⟨?_, hdigits hds⟩⟩
      · rcases he with rfl | rfl <;> rfl
      · rcases hsign with rfl | rfl | rfl <;> simp [Json.isNumberChar]
  exact List.forall_mem_append.mpr
    ⟨hdigits h.whole, List.forall_mem_append.mpr ⟨hfraction, hexponent⟩⟩

theorem ne_of_isNumberChar {c d : Char} (hc : isNumberChar c = true) (hd : isNumberChar d = false) :
    c ≠ d := by
  rintro rfl
  rw [hc] at hd
  cases hd

/-- What is left behind a number is an end of the text. -/
theorem readNumber_suffix (h : readNumber negative cs = .ok (n, r)) : r <:+ cs := by
  obtain ⟨whole, fraction, exponent, hcs, -⟩ := readNumber_shape h
  exact ⟨_, hcs.symm⟩

end Rest

/-! ### Whole numbers -/

theorem le_ofDigitChars (ds : List Char) (word : Nat) : word ≤ Nat.ofDigitChars 10 ds word := by
  induction ds generalizing word with
  | nil => exact Nat.le_refl word
  | cons d ds ih =>
    rw [Nat.ofDigitChars_cons]
    exact Nat.le_trans (by omega) (ih _)

/-- Digits whose number fits into a word are all taken into it. -/
theorem accumulate_eq {ds : List Char} {word : Nat} (h : Nat.ofDigitChars 10 ds word ≤ maxWord) :
    accumulate word ds = (Nat.ofDigitChars 10 ds word, 0) := by
  induction ds generalizing word with
  | nil => rfl
  | cons d ds ih =>
    rw [Nat.ofDigitChars_cons, Nat.mul_comm] at h ⊢
    have hnext : word * 10 + digitValue d ≤ maxWord := Nat.le_trans (le_ofDigitChars ds _) h
    simp only [accumulate]
    rw [if_pos hnext]
    exact ih h

theorem digitChar_ne_zero : ∀ d < 10, 0 < d → Nat.digitChar d ≠ '0' := by decide

/-- The first digit of a number that is not zero is not zero. -/
theorem head?_digitChars {n : Nat} (h : 0 < n) : (digitChars n).head? ≠ some '0' := by
  induction n using Nat.strongRecOn with
  | ind n ih =>
    unfold digitChars
    by_cases hlt : n < 10
    · rw [Nat.toDigits_of_lt_base hlt, List.head?_cons]
      exact fun heq => digitChar_ne_zero n hlt h (Option.some.inj heq)
    · rw [Nat.toDigits_of_base_le (by decide) (by omega)]
      have hne : Nat.toDigits 10 (n / 10) ≠ [] := Nat.toDigits_ne_nil
      rw [List.head?_append_of_ne_nil _ hne]
      exact ih (n / 10) (by omega) (by omega)

/-- The digits of a number that fits into a word read back, with or without a minus sign. -/
theorem readNumber_digitChars {n : Nat} (h : n ≤ maxWord) (negative : Bool) :
    readNumber negative (digitChars n) = .ok (wholeNumeral negative n 0, []) := by
  by_cases hzero : n = 0
  · subst hzero
    rfl
  have hdigits := digits_digitChars n
  obtain ⟨d, ds, hds⟩ := List.exists_cons_of_ne_nil hdigits.nonempty
  have hd : d ≠ '0' := by
    rintro rfl
    exact head?_digitChars (Nat.pos_of_ne_zero hzero) (by rw [hds]; rfl)
  have hvalue : Nat.ofDigitChars 10 (d :: ds) 0 = n := by
    rw [← hds]
    exact Nat.ofDigitChars_ten_toDigits
  have hall : ∀ c ∈ d :: ds, c.isDigit = true := by
    rw [← hds]
    exact hdigits.digit
  have htake : (d :: ds).takeWhile Char.isDigit = d :: ds := List.takeWhile_eq_self_iff.mpr hall
  have hdrop : (d :: ds).dropWhile Char.isDigit = [] := List.dropWhile_eq_nil_iff.mpr hall
  rw [hds, readNumber]
  · simp only [htake, hdrop]
    rw [if_neg (by simp), accumulate_eq (by rw [hvalue]; exact h), hvalue]
    rfl
  · exact List.cons_ne_nil _ _
  · rintro r ⟨⟩
    exact hd rfl

end Enclave.Json
