import Enclave.Decimal.Notation
import Mathlib.Data.List.Basic

/-!
# The shape of a written number

Every number that a notation writes has digits first, then perhaps a point with digits behind it,
then perhaps an exponent. `render_numeral` says so for every finite double, and that with
`pointZero` one of the two always follows, so that a double never looks like a whole number.
-/

namespace Enclave.Decimal

/-- At least one digit, and nothing else. -/
structure Digits (cs : List Char) : Prop where
  nonempty : cs ≠ []
  digit : ∀ c ∈ cs, c.isDigit = true

/-- The parts of a number: digits, a point with digits, and an exponent. The last two may be
missing. -/
structure Numeral (whole fraction exponent : List Char) : Prop where
  whole : Digits whole
  fraction : fraction = [] ∨ ∃ ds, fraction = '.' :: ds ∧ ∀ c ∈ ds, c.isDigit = true
  exponent : exponent = [] ∨ ∃ sign ds, exponent = 'e' :: (sign ++ ds) ∧
    (sign = [] ∨ sign = ['-'] ∨ sign = ['+']) ∧ Digits ds

theorem ne_of_isDigit {c d : Char} (hc : c.isDigit = true) (hd : d.isDigit = false) : c ≠ d := by
  rintro rfl
  rw [hc] at hd
  cases hd

theorem digits_digitChars (n : Nat) : Digits (digitChars n) :=
  ⟨Nat.toDigits_ne_nil, fun _ hc => Nat.isDigit_of_mem_toDigits (by decide) (by decide) hc⟩

theorem natText_isDigit (n : Nat) : (natText n).toList.all Char.isDigit = true := by
  rw [natText, String.toList_ofList]
  exact List.all_eq_true.mpr (digits_digitChars n).digit

/-- The digits of a natural read back as the natural. -/
theorem ofDigitChars_natText (n : Nat) : Nat.ofDigitChars 10 (natText n).toList 0 = n := by
  rw [natText, String.toList_ofList]
  exact Nat.ofDigitChars_ten_toDigits

theorem digits_zero : Digits ['0'] := ⟨by simp, by simp⟩

theorem Digits.append {cs ds : List Char} (h : Digits cs) (hds : ∀ c ∈ ds, c.isDigit = true) :
    Digits (cs ++ ds) := by
  refine ⟨List.append_ne_nil_of_left_ne_nil h.nonempty ds, fun c hc => ?_⟩
  exact (List.mem_append.mp hc).elim (h.digit c) (hds c)

theorem isDigit_of_mem_replicate {n : Nat} {c : Char} (h : c ∈ List.replicate n '0') :
    c.isDigit = true := by
  rw [List.eq_of_mem_replicate h]
  rfl

theorem Digits.zeros {ds : List Char} (h : Digits ds) (n : Nat) :
    Digits (List.replicate n '0' ++ ds) := by
  refine ⟨List.append_ne_nil_of_right_ne_nil _ h.nonempty, fun c hc => ?_⟩
  exact (List.mem_append.mp hc).elim isDigit_of_mem_replicate (h.digit c)

theorem Numeral.head_isDigit {w p x : List Char} (h : Numeral w p x) :
    ∃ c cs, w ++ (p ++ x) = c :: cs ∧ c.isDigit = true := by
  obtain ⟨c, cs, rfl⟩ := List.exists_cons_of_ne_nil h.whole.nonempty
  exact ⟨c, _, rfl, h.whole.digit c List.mem_cons_self⟩

/-- A number with a point or an exponent has a character that is no digit. -/
theorem Numeral.exists_notDigit {w p x : List Char} (h : Numeral w p x) (hne : p ++ x ≠ []) :
    ∃ c ∈ w ++ (p ++ x), c.isDigit = false := by
  obtain hp | ⟨ds, hp, -⟩ := h.fraction
  · obtain hx | ⟨sign, ds, hx, -⟩ := h.exponent
    · rw [hp, hx] at hne
      exact absurd rfl hne
    · exact ⟨'e', by simp [hx], rfl⟩
  · exact ⟨'.', by simp [hp], rfl⟩

/-- The text of an integer is its sign and the digits of its size. -/
theorem intText_eq (n : Int) : ∃ negative : Bool,
    intText n = String.ofList
      (if negative then '-' :: digitChars n.natAbs else digitChars n.natAbs) ∧
      (if negative then -(n.natAbs : Int) else n.natAbs) = n := by
  cases n with
  | ofNat n => exact ⟨false, rfl, rfl⟩
  | negSucc n => exact ⟨true, String.toList_injective (by simp [intText, natText]), rfl⟩

namespace Notation

theorem positional_numeral {c : Notation} (hc : c.pointZero = true) {ds : List Char}
    (hds : Digits ds) (k : Int) :
    ∃ w f, c.positional ds k = w ++ f ∧ f ≠ [] ∧ Numeral w f [] := by
  unfold positional
  split
  · refine ⟨ds ++ List.replicate k.toNat '0', ['.', '0'], rfl, by simp, ?_⟩
    exact ⟨hds.append fun _ => isDigit_of_mem_replicate, .inr ⟨['0'], rfl, digits_zero.digit⟩,
      .inl rfl⟩
  simp only
  split
  · rename_i hplaces
    refine ⟨_, _, rfl, by simp, ⟨⟨?_, fun a ha => hds.digit a (List.mem_of_mem_take ha)⟩, ?_,
      .inl rfl⟩⟩
    · rw [ne_eq, List.take_eq_nil_iff]
      exact not_or.mpr ⟨by omega, hds.nonempty⟩
    · exact .inr ⟨_, rfl, fun a ha => hds.digit a (List.mem_of_mem_drop ha)⟩
  · refine ⟨['0'], _, rfl, by simp, ⟨digits_zero, .inr ⟨_, rfl, ?_⟩, .inl rfl⟩⟩
    exact (hds.zeros _).digit

theorem exponential_numeral (c : Notation) {ds : List Char} (hds : Digits ds) (e : Int) :
    ∃ w f x, c.exponential ds e = w ++ (f ++ x) ∧ x ≠ [] ∧ Numeral w f x := by
  have hsign : ∀ s, s = (if e < 0 then ['-'] else if c.plusSign then ['+'] else []) →
      s = [] ∨ s = ['-'] ∨ s = ['+'] := by
    rintro _ rfl
    split
    · exact .inr (.inl rfl)
    · split
      · exact .inr (.inr rfl)
      · exact .inl rfl
  -- The exponent does not depend on the digits in front of it.
  obtain ⟨x, hone, hmore, hne, hx⟩ : ∃ x : List Char,
      (∀ d, c.exponential [d] e = [d] ++ ([] ++ x)) ∧
        (∀ d d' r, c.exponential (d :: d' :: r) e = [d] ++ ('.' :: d' :: r ++ x)) ∧ x ≠ [] ∧
          ∃ sign ds, x = 'e' :: (sign ++ ds) ∧
            (sign = [] ∨ sign = ['-'] ∨ sign = ['+']) ∧ Digits ds :=
    ⟨_, fun _ => rfl, fun _ _ _ => by simp [exponential], by simp, _, _, rfl, hsign _ rfl,
      (digits_digitChars _).zeros _⟩
  rcases ds with _ | ⟨d, _ | ⟨d', r⟩⟩
  · exact absurd rfl hds.nonempty
  · exact ⟨[d], [], x, hone d, hne, hds, .inl rfl, .inr hx⟩
  · refine ⟨[d], '.' :: d' :: r, x, hmore d d' r, hne, ⟨by simp, ?_⟩, .inr ⟨_, rfl, ?_⟩, .inr hx⟩
    · simpa using hds.digit d List.mem_cons_self
    · exact fun a ha => hds.digit a (List.mem_cons_of_mem _ ha)

theorem sizeText_numeral {c : Notation} (hc : c.pointZero = true) (s : Scientific) :
    ∃ w p x, c.sizeText s = w ++ (p ++ x) ∧ p ++ x ≠ [] ∧ Numeral w p x := by
  have hds := digits_digitChars s.digits
  obtain ⟨w, p, hpositional, hp, hnumeral⟩ := positional_numeral hc hds s.exponent
  obtain ⟨w', p', x, hexponential, hx, hnumeral'⟩ := exponential_numeral c hds
    (s.exponent + (digitChars s.digits).length - 1)
  have hlayout : c.sizeText s = c.exponential (digitChars s.digits)
      (s.exponent + (digitChars s.digits).length - 1) ∨
      c.sizeText s = c.positional (digitChars s.digits) s.exponent := ite_eq_or_eq _ _ _
  obtain hlayout | hlayout := hlayout
  · exact ⟨w', p', x, hlayout.trans hexponential, List.append_ne_nil_of_right_ne_nil _ hx,
      hnumeral'⟩
  · exact ⟨w, p, [], by rw [hlayout, hpositional, List.append_nil], by simpa using hp, hnumeral⟩

/-- The text of a finite double with the parts of its size. -/
theorem render_numeral {c : Notation} (hc : c.pointZero = true) {f : Float}
    (hf : isFinite f = true) :
    ∃ (negative : Bool) (w p x : List Char),
      c.render f = String.ofList (if negative then '-' :: (w ++ (p ++ x)) else w ++ (p ++ x)) ∧
        p ++ x ≠ [] ∧ Numeral w p x := by
  unfold isFinite at hf
  split at hf
  · rename_i negative size hread
    have hbody : ∃ w p x, (if size.mantissa = 0 then c.positional ['0'] 0
        else c.sizeText (size.shortest c.tie)) = w ++ (p ++ x) ∧ p ++ x ≠ [] ∧ Numeral w p x := by
      split
      · obtain ⟨w, p, hzero, hp, hnumeral⟩ := positional_numeral hc digits_zero 0
        exact ⟨w, p, [], by rw [hzero, List.append_nil], by simpa using hp, hnumeral⟩
      · exact sizeText_numeral hc _
    obtain ⟨w, p, x, hbody, hne, hnumeral⟩ := hbody
    refine ⟨negative, w, p, x, ?_, hne, hnumeral⟩
    rw [render, hread]
    simp only [hbody]
  · cases hf

end Notation

end Enclave.Decimal
