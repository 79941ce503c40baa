import Enclave.Naming
import Enclave.Proofs.Text.Blank
import Mathlib

/-!
# Identifiers

Every table name is an identifier (`isIdentifier_identifierOf`), and exactly the identifiers are the
names that stay as they are (`identifierOf_eq_self_iff`), so a second derivation changes nothing.

Both follow the passes over a file name. What `squeeze` leaves is `Spaced`: small letters and digits
with at most one underscore between any two. Trimming takes a piece out of that and sees that
neither end of the piece is an underscore. An identifier, on the other hand, has nothing that a pass
would change.
-/

namespace Enclave.Naming

/-! ## Characters -/

/-- A small letter or a digit. -/
def IsSmall (c : Char) : Prop := c.isLower = true ∨ c.isDigit = true

theorem IsSmall.ne_underscore {c : Char} (h : IsSmall c) : c ≠ '_' := by
  rintro rfl
  rcases h with hlower | hdigit
  · cases hlower
  · cases hdigit

theorem IsSmall.isAlphanum {c : Char} (h : IsSmall c) : c.isAlphanum = true := by
  rcases h with hlower | hdigit
  · simp [Char.isAlphanum, Char.isAlpha, hlower]
  · simp [Char.isAlphanum, hdigit]

theorem IsSmall.toLower {c : Char} (h : IsSmall c) : c.toLower = c := by
  rcases h with hlower | hdigit
  · exact Char.toLower_eq_of_not_isUpper (Char.not_isUpper_of_isLower hlower)
  · exact (Text.toUpper_toLower_of_isDigit hdigit).2

theorem isSmall_toLower {c : Char} (h : c.isAlphanum = true) : IsSmall c.toLower := by
  rcases Bool.or_eq_true_iff.mp h with halpha | hdigit
  · left
    rw [Char.isLower_toLower_eq_isAlpha, halpha]
  · right
    rwa [(Text.toUpper_toLower_of_isDigit hdigit).2]

theorem isDigit_of_isLower {c : Char} (h : c.isLower = true) : c.isDigit = false := by
  simp only [Char.isLower, Bool.and_eq_true, decide_eq_true_eq, UInt32.le_iff_toNat_le] at h
  simp only [Char.isDigit, Bool.and_eq_false_iff, decide_eq_false_iff_not, UInt32.le_iff_toNat_le]
  have hlow : 97 ≤ c.val.toNat := h.1
  exact .inr (show ¬ c.val.toNat ≤ 57 by omega)

/-! ## Small letters, digits and single underscores -/

/-- Small letters, digits and underscores, no two underscores in a row. -/
structure Spaced (cs : List Char) : Prop where
  chars : ∀ c ∈ cs, IsSmall c ∨ c = '_'
  single : ¬ ['_', '_'] <:+: cs

namespace Spaced

variable {c : Char} {cs ds : List Char}

theorem nil : Spaced [] := ⟨fun _ h => (List.not_mem_nil h).elim, by decide⟩

theorem of_piece (h : Spaced cs) (hpiece : ds <:+: cs) : Spaced ds where
  chars c hc := h.chars c (hpiece.subset hc)
  single hdouble := h.single (hdouble.trans hpiece)

theorem cons_small (hc : IsSmall c) (h : Spaced cs) : Spaced (c :: cs) where
  chars := List.forall_mem_cons.mpr ⟨.inl hc, h.chars⟩
  single hdouble := by
    rcases List.infix_cons_iff.mp hdouble with hfront | hrest
    · exact hc.ne_underscore (List.cons_prefix_cons.mp hfront).1.symm
    · exact h.single hrest

theorem cons_underscore (h : Spaced cs) (hhead : cs.head? ≠ some '_') : Spaced ('_' :: cs) where
  chars := List.forall_mem_cons.mpr ⟨.inr rfl, h.chars⟩
  single hdouble := by
    rcases List.infix_cons_iff.mp hdouble with hfront | hrest
    · obtain ⟨rest, rfl⟩ := (List.cons_prefix_cons.mp hfront).2
      exact hhead rfl
    · exact h.single hrest

theorem tail (h : Spaced (c :: cs)) : Spaced cs := h.of_piece (List.suffix_cons c cs).isInfix

theorem head?_tail (h : Spaced ('_' :: cs)) : cs.head? ≠ some '_' := by
  intro hhead
  obtain ⟨rest, rfl⟩ := List.head?_eq_some_iff.mp hhead
  exact h.single (List.prefix_append ['_', '_'] rest).isInfix

end Spaced

/-- What `squeeze` leaves; right behind an underscore it does not begin with another one. -/
theorem squeeze_spaced (gap : Bool) (cs : List Char) :
    Spaced (squeeze gap cs) ∧ (gap = true → (squeeze gap cs).head? ≠ some '_') := by
  induction cs generalizing gap with
  | nil => exact ⟨.nil, fun _ => by simp [squeeze]⟩
  | cons c cs ih =>
    by_cases hword : c.isAlphanum = true
    · have hsmall := isSmall_toLower hword
      rw [squeeze, if_pos hword]
      refine ⟨.cons_small hsmall (ih false).1, ?_⟩
      intro _ hhead
      exact hsmall.ne_underscore (Option.some.inj hhead)
    -- Any other character counts as an underscore, which is written unless one was just written.
    · obtain ⟨hrest, hhead⟩ := ih true
      by_cases hgap : gap = true
      · rw [squeeze, if_neg hword, if_pos hgap]
        exact ⟨hrest, fun _ => hhead rfl⟩
      · rw [squeeze, if_neg hword, if_neg hgap]
        exact ⟨.cons_underscore hrest (hhead rfl), fun h => absurd h hgap⟩

/-- A text that is spaced already is not squeezed any further. -/
theorem squeeze_eq_self {gap : Bool} {cs : List Char} (h : Spaced cs)
    (hgap : gap = true → cs.head? ≠ some '_') : squeeze gap cs = cs := by
  induction cs generalizing gap with
  | nil => rfl
  | cons c cs ih =>
    rcases h.chars c List.mem_cons_self with hsmall | rfl
    · have hrest : squeeze false cs = cs := ih h.tail (by simp)
      rw [squeeze, if_pos hsmall.isAlphanum, hsmall.toLower, hrest]
    · have hrest : squeeze true cs = cs := ih h.tail (fun _ => h.head?_tail)
      have hopen : ¬ gap = true := fun htrue => hgap htrue rfl
      rw [squeeze, if_neg (by decide), if_neg hopen, hrest]

/-! ## Trimming -/

theorem trimUnderscores_eq (cs : List Char) :
    trimUnderscores cs = (cs.dropWhile (· == '_')).rdropWhile (· == '_') := rfl

theorem trimUnderscores_piece (cs : List Char) : trimUnderscores cs <:+: cs := by
  rw [trimUnderscores_eq]
  exact (List.rdropWhile_prefix _ _).isInfix.trans (List.dropWhile_suffix _).isInfix

theorem head?_dropWhile_underscore (cs : List Char) :
    (cs.dropWhile (· == '_')).head? ≠ some '_' := by
  intro hhead
  have hnot := List.head?_dropWhile_not (· == '_') cs
  rw [hhead] at hnot
  cases hnot

theorem getLast?_trimUnderscores (cs : List Char) : (trimUnderscores cs).getLast? ≠ some '_' := by
  rw [trimUnderscores, List.getLast?_reverse]
  exact head?_dropWhile_underscore _

theorem head?_trimUnderscores (cs : List Char) : (trimUnderscores cs).head? ≠ some '_' := by
  intro hhead
  obtain ⟨rest, hrest⟩ := List.head?_eq_some_iff.mp hhead
  obtain ⟨dropped, hdropped⟩ := List.rdropWhile_prefix (· == '_') (cs.dropWhile (· == '_'))
  rw [← trimUnderscores_eq, hrest] at hdropped
  exact head?_dropWhile_underscore cs (by rw [← hdropped]; rfl)

theorem trimUnderscores_eq_self {cs : List Char} (hhead : cs.head? ≠ some '_')
    (hlast : cs.getLast? ≠ some '_') : trimUnderscores cs = cs := by
  have hstart : cs.dropWhile (· == '_') = cs := by
    cases cs with
    | nil => rfl
    | cons c cs =>
      apply List.dropWhile_cons_of_neg
      intro hc
      exact hhead (by rw [List.head?_cons, beq_iff_eq.mp hc])
  rw [trimUnderscores_eq, hstart, List.rdropWhile_eq_self_iff]
  intro hne hc
  rw [List.getLast?_eq_getLast_of_ne_nil hne, beq_iff_eq.mp hc] at hlast
  exact hlast rfl

/-! ## Identifiers -/

/-- An identifier: small letters, digits and single underscores, beginning with a letter and not
ending in an underscore. -/
structure IsIdentifier (cs : List Char) : Prop where
  chars : ∀ c ∈ cs, c.isLower = true ∨ c.isDigit = true ∨ c = '_'
  single : ¬ ['_', '_'] <:+: cs
  first : ∃ c rest, cs = c :: rest ∧ c.isLower = true
  last : cs.getLast? ≠ some '_'

theorem IsIdentifier.of_spaced {c : Char} {cs : List Char} (h : Spaced (c :: cs))
    (hfirst : c.isLower = true) (hlast : (c :: cs).getLast? ≠ some '_') :
    IsIdentifier (c :: cs) where
  chars d hd := by
    rcases h.chars d hd with (hlower | hdigit) | rfl
    · exact .inl hlower
    · exact .inr (.inl hdigit)
    · exact .inr (.inr rfl)
  single := h.single
  first := ⟨c, cs, rfl, hfirst⟩
  last := hlast

theorem IsIdentifier.spaced {cs : List Char} (h : IsIdentifier cs) : Spaced cs where
  chars c hc := by
    rcases h.chars c hc with hlower | hdigit | rfl
    · exact .inl (.inl hlower)
    · exact .inl (.inr hdigit)
    · exact .inr rfl
  single := h.single

/-- A table name is an identifier, whatever the file is called. -/
theorem isIdentifier_identifierOf (name : String) : IsIdentifier (identifierOf name).toList := by
  rw [identifierOf]
  generalize stem (lastPart name.toList) = cs
  have hspaced : Spaced (trimUnderscores (squeeze false cs)) :=
    (squeeze_spaced false cs).1.of_piece (trimUnderscores_piece _)
  have hhead := head?_trimUnderscores (squeeze false cs)
  have hlast := getLast?_trimUnderscores (squeeze false cs)
  generalize trimUnderscores (squeeze false cs) = trimmed at hspaced hhead hlast ⊢
  cases trimmed with
  | nil => exact .of_spaced (.cons_small (.inl rfl) .nil) rfl (by decide)
  | cons c rest =>
    rcases hspaced.chars c List.mem_cons_self with (hlower | hdigit) | rfl
    · simp only [isDigit_of_isLower hlower, Bool.false_eq_true, if_false, String.toList_ofList]
      exact .of_spaced hspaced hlower hlast
    · have hfront : Spaced ('t' :: '_' :: c :: rest) :=
        .cons_small (.inl rfl) (.cons_underscore hspaced hhead)
      simp only [hdigit, if_true, String.toList_ofList]
      apply IsIdentifier.of_spaced hfront rfl
      rwa [List.getLast?_cons_cons, List.getLast?_cons_cons]
    · exact absurd rfl hhead

theorem lastPart_eq_self {cs : List Char} (hslash : '/' ∉ cs) (hbackslash : '\\' ∉ cs) :
    lastPart cs = cs := by
  rw [lastPart, List.takeWhile_eq_self_iff.mpr, List.reverse_reverse]
  intro c hc
  have hmem := List.mem_reverse.mp hc
  have hne : c ≠ '/' ∧ c ≠ '\\' :=
    ⟨ne_of_mem_of_not_mem hmem hslash, ne_of_mem_of_not_mem hmem hbackslash⟩
  simpa using hne

theorem stem_eq_self {cs : List Char} (h : '.' ∉ cs) : stem cs = cs := by
  have hnone : cs.reverse.dropWhile (· != '.') = [] := by
    rw [List.dropWhile_eq_nil_iff]
    intro c hc
    simpa using ne_of_mem_of_not_mem (List.mem_reverse.mp hc) h
  rw [stem, hnone]

/-- A file that is called by an identifier has it as its table name. -/
theorem identifierOf_of_isIdentifier {name : String} (h : IsIdentifier name.toList) :
    identifierOf name = name := by
  have hforeign : ∀ c, ¬ (c.isLower = true ∨ c.isDigit = true ∨ c = '_') → c ∉ name.toList :=
    fun c hc hmem => hc (h.chars c hmem)
  have hpart : lastPart name.toList = name.toList :=
    lastPart_eq_self (hforeign '/' (by decide)) (hforeign '\\' (by decide))
  have hstem : stem name.toList = name.toList := stem_eq_self (hforeign '.' (by decide))
  obtain ⟨c, rest, hname, hlower⟩ := h.first
  have hhead : name.toList.head? ≠ some '_' := by
    rw [hname, List.head?_cons]
    intro heq
    exact IsSmall.ne_underscore (.inl hlower) (Option.some.inj heq)
  have hsqueezed : squeeze false name.toList = name.toList := squeeze_eq_self h.spaced (by simp)
  rw [identifierOf, hpart, hstem, hsqueezed, trimUnderscores_eq_self hhead h.last, hname]
  simp only [isDigit_of_isLower hlower, Bool.false_eq_true, if_false]
  rw [← hname, String.ofList_toList]

/-- The identifiers are the names that a derivation leaves as they are. -/
theorem identifierOf_eq_self_iff {name : String} :
    identifierOf name = name ↔ IsIdentifier name.toList :=
  ⟨fun h => h ▸ isIdentifier_identifierOf name, identifierOf_of_isIdentifier⟩

end Enclave.Naming
