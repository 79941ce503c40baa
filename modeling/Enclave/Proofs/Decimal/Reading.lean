import Enclave.Decimal.Reading
import Enclave.Proofs.Decimal.Numeral
import Enclave.Text.Blank
import Mathlib.Data.Nat.Digits.Defs

/-!
# Integers read back

The digits of a natural stand for the natural, and the text of an integer is read as the integer.
-/

namespace Enclave.Decimal

theorem isBlank_of_isDigit {c : Char} (h : c.isDigit = true) : Text.isBlank c = false := by
  simp only [Char.isDigit, ge_iff_le, Bool.and_eq_true, decide_eq_true_eq,
    UInt32.le_iff_toNat_le] at h
  obtain ⟨hlow, hhigh⟩ := h
  change 48 ≤ c.toNat at hlow
  change c.toNat ≤ 57 at hhigh
  simp only [Text.isBlank]
  simp
  omega

theorem ofDigits_eq (ds : List Char) : ofDigits ds = Nat.ofDigitChars 10 ds 0 := by
  rw [ofDigits, Nat.ofDigitChars]
  congr 1
  funext n d
  rw [Nat.mul_comm]

theorem ofDigits_digitChars (n : Nat) : ofDigits (digitChars n) = n := by
  rw [ofDigits_eq, digitChars]
  exact Nat.ofDigitChars_ten_toDigits

/-- The text of an integer is read as the integer. -/
theorem readInt?_intText (n : Int) : readInt? (intText n).toList = some n := by
  obtain ⟨negative, htext, hvalue⟩ := intText_eq n
  have hdigits := digits_digitChars n.natAbs
  have hall : (digitChars n.natAbs).all Char.isDigit = true := List.all_eq_true.mpr hdigits.digit
  have hsign : takeSign (if negative then '-' :: digitChars n.natAbs else digitChars n.natAbs) =
      (negative, digitChars n.natAbs) := by
    cases negative with
    | true => rfl
    | false =>
      obtain ⟨c, cs, hcs⟩ := List.exists_cons_of_ne_nil hdigits.nonempty
      have hc : c.isDigit = true := hdigits.digit c (by rw [hcs]; exact List.mem_cons_self)
      have hminus : c ≠ '-' := ne_of_isDigit hc rfl
      have hplus : c ≠ '+' := ne_of_isDigit hc rfl
      rw [hcs]
      simp [takeSign, hminus, hplus]
  rw [htext, String.toList_ofList, readInt?, hsign]
  simp only [hall, hdigits.nonempty, List.isEmpty_eq_false_iff.mpr, ne_eq, not_false_eq_true,
    Bool.not_true, Bool.or_self, Bool.false_eq_true, if_false, ofDigits_digitChars]
  rw [hvalue]

end Enclave.Decimal
