import Enclave.Text.Blank
import Mathlib.Data.List.TakeWhile

/-!
# Blanks and trimming

No blank is a letter or a digit (`isAlphanum_of_isBlank`). Trimming takes away blanks at both ends
of a text and nothing else (`trimChars_split`), and what stands between two characters that are no
blanks is kept (`trimChars_eq_self`).
-/

namespace Enclave.Text

/-! ## Classes of characters -/

theorem range_of_isBlank {c : Char} (h : isBlank c = true) :
    c.toNat ≤ 0x20 ∨ 0x80 ≤ c.toNat := by
  simp only [isBlank, Bool.or_eq_true, Bool.and_eq_true, decide_eq_true_eq, beq_iff_eq] at h
  omega

theorem ne_of_isBlank {c d : Char} (hc : isBlank c = true) (hd : isBlank d = false) :
    c ≠ d := by
  rintro rfl
  rw [hc] at hd
  cases hd

theorem range_of_isAlphanum {c : Char} (h : c.isAlphanum = true) :
    0x30 ≤ c.toNat ∧ c.toNat ≤ 0x7A := by
  obtain hletter | hdigit := Bool.or_eq_true_iff.mp h
  · obtain hupper | hlower := Bool.or_eq_true_iff.mp hletter
    · obtain ⟨hlow, hhigh⟩ : 'A'.val ≤ c.val ∧ c.val ≤ 'Z'.val := of_decide_eq_true hupper
      exact ⟨Nat.le_trans (by decide) hlow, Nat.le_trans hhigh (by decide)⟩
    · obtain ⟨hlow, hhigh⟩ := Bool.and_eq_true_iff.mp hlower
      exact ⟨Nat.le_trans (by decide) (of_decide_eq_true hlow),
        Nat.le_trans (of_decide_eq_true hhigh) (by decide)⟩
  · obtain ⟨hlow, hhigh⟩ := Bool.and_eq_true_iff.mp hdigit
    exact ⟨of_decide_eq_true hlow, Nat.le_trans (of_decide_eq_true hhigh) (by decide)⟩

theorem isAlphanum_of_isBlank {c : Char} (h : isBlank c = true) : c.isAlphanum = false := by
  refine Bool.eq_false_iff.mpr fun hword => ?_
  have hblank := range_of_isBlank h
  have hrange := range_of_isAlphanum hword
  omega

/-- Digits have no case. -/
theorem toUpper_toLower_of_isDigit {c : Char} (h : c.isDigit = true) :
    c.toUpper = c ∧ c.toLower = c := by
  have hrange : c.val.toNat ≤ 57 := by
    simp only [Char.isDigit, Bool.and_eq_true, decide_eq_true_eq] at h
    exact h.2
  constructor
  · refine dif_neg fun hsmall => ?_
    have hle : 97 ≤ c.val.toNat := hsmall.1
    omega
  · refine dif_neg fun hcapital => ?_
    have hle : 65 ≤ c.val.toNat := hcapital.1
    omega

/-! ## Trimming -/

variable {c : Char} {cs : List Char}

theorem trimEnd_append_singleton (hc : isBlank c = true) (cs : List Char) :
    trimEnd (cs ++ [c]) = trimEnd cs := by
  rw [trimEnd, List.reverse_append, List.reverse_singleton, List.singleton_append,
    List.dropWhile_cons_of_pos hc, trimEnd]

theorem trimEnd_append_singleton_of_not (hc : isBlank c = false) (cs : List Char) :
    trimEnd (cs ++ [c]) = cs ++ [c] := by
  rw [trimEnd, List.reverse_append, List.reverse_singleton, List.singleton_append,
    List.dropWhile_cons_of_neg (by simp [hc]), List.reverse_cons, List.reverse_reverse]

theorem trimChars_cons (hc : isBlank c = true) (cs : List Char) :
    trimChars (c :: cs) = trimChars cs := by
  rw [trimChars, trimStart, List.dropWhile_cons_of_pos hc, trimChars, trimStart]

theorem trimChars_append_singleton (hc : isBlank c = true) (cs : List Char) :
    trimChars (cs ++ [c]) = trimChars cs := by
  rw [trimChars, trimChars, trimStart, List.dropWhile_append]
  split
  · rename_i hall
    rw [trimStart, List.isEmpty_iff.mp hall, List.dropWhile_cons_of_pos hc, List.dropWhile_nil]
  · exact trimEnd_append_singleton hc _

/-- A text between two characters that are no blanks is not trimmed. -/
theorem trimChars_eq_self {d : Char} (hc : isBlank c = false) (hd : isBlank d = false)
    (cs : List Char) : trimChars (c :: (cs ++ [d])) = c :: (cs ++ [d]) := by
  rw [trimChars, trimStart, List.dropWhile_cons_of_neg (by simp [hc]), ← List.cons_append,
    trimEnd_append_singleton_of_not hd]

theorem trimEnd_append_cons (hc : isBlank c = false) (cs ds : List Char) :
    trimEnd (cs ++ c :: ds) = cs ++ c :: trimEnd ds := by
  have hkept : (ds.reverse ++ c :: cs.reverse).dropWhile isBlank =
      ds.reverse.dropWhile isBlank ++ c :: cs.reverse := by
    rw [List.dropWhile_append, List.dropWhile_cons_of_neg (by simp [hc])]
    split
    · rename_i hall
      rw [List.isEmpty_iff.mp hall, List.nil_append]
    · rfl
  rw [trimEnd, List.reverse_append, List.reverse_cons, List.append_assoc, List.singleton_append,
    hkept, List.reverse_append, List.reverse_cons, List.reverse_reverse, List.append_assoc,
    List.singleton_append, trimEnd]

theorem trimEnd_prefix (cs : List Char) : trimEnd cs <+: cs := by
  have hsuffix := List.reverse_prefix.mpr (List.dropWhile_suffix isBlank (l := cs.reverse))
  rwa [List.reverse_reverse] at hsuffix

theorem trimEnd_split (cs : List Char) :
    ∃ bs, cs = trimEnd cs ++ bs ∧ ∀ c ∈ bs, isBlank c = true := by
  refine ⟨(cs.reverse.takeWhile isBlank).reverse, ?_, fun c hc => ?_⟩
  · rw [trimEnd, ← List.reverse_append, List.takeWhile_append_dropWhile, List.reverse_reverse]
  · exact List.mem_takeWhile_imp (List.mem_reverse.mp hc)

/-- Trimming takes blanks away, and nothing else. -/
theorem trimChars_split (cs : List Char) :
    ∃ as bs, cs = as ++ (trimChars cs ++ bs) ∧
      (∀ c ∈ as, isBlank c = true) ∧ ∀ c ∈ bs, isBlank c = true := by
  obtain ⟨bs, hbs, hblank⟩ := trimEnd_split (trimStart cs)
  refine ⟨cs.takeWhile isBlank, bs, ?_, fun c hc => List.mem_takeWhile_imp hc, hblank⟩
  rw [trimChars, ← hbs, trimStart, List.takeWhile_append_dropWhile]

theorem head?_trimStart {c : Char} (h : (trimStart cs).head? = some c) : isBlank c = false := by
  have hnot := List.head?_dropWhile_not isBlank cs
  rw [← trimStart, h] at hnot
  simpa using hnot

/-- What a trimmed text begins with, it begins with before its end is trimmed. -/
theorem head?_trimChars (cs : List Char) : (trimChars cs).head? = (trimStart cs).head? := by
  rw [trimChars]
  cases hstart : trimStart cs with
  | nil => rfl
  | cons c ds =>
    have hhead : (trimStart cs).head? = some c := by
      rw [hstart]
      rfl
    have hc := head?_trimStart hhead
    rw [← List.nil_append (c :: ds), trimEnd_append_cons hc]
    rfl

end Enclave.Text
