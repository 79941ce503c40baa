import Enclave.Proofs.Record.Directory

/-!
# The forms of a name

The name of a run are 32 hexadecimal digits, small or capital. They stand in a row, in groups, in
groups between braces or in groups behind `urn:uuid:` (`RunId.Form`). A text is filed exactly if it
spells digits in one of these forms, and it is filed under the digits alone
(`RunId.canonical?_eq_some`).
-/

namespace Enclave.RunId

/-- The ways to write the digits of a name. -/
inductive Form (ds : List Char) : List Char → Prop where
  | simple : Form ds ds
  | hyphenated : Form ds (grouped ds)
  | braced : Form ds ('{' :: (grouped ds ++ ['}']))
  | urn : Form ds ("urn:uuid:".toList ++ grouped ds)

/-- A text that spells a name of these small digits. -/
def Spells (ds : List Char) (id : String) : Prop :=
  ∃ es : List Char, es.length = 32 ∧ (∀ e ∈ es, isHex e = true) ∧ es.map Char.toLower = ds ∧
    Form es id.toList

/-! ## Digits -/

theorem isSmallHex_toLower {e : Char} (h : isHex e = true) : IsSmallHex e.toLower := by
  by_cases hcapital : e.val ≥ 'A'.val ∧ e.val ≤ 'Z'.val
  · have hF : e.val ≤ 'F'.val := by
      simp only [isHex, Char.isDigit, Char.le_def, Bool.or_eq_true, Bool.and_eq_true,
        decide_eq_true_eq, ge_iff_le] at h
      rcases h with (h | h) | h
      · exact absurd (UInt32.le_trans hcapital.1 h.2) (by decide)
      · exact absurd (UInt32.le_trans h.1 hcapital.2) (by decide)
      · exact h.2
    have hrange : 65 ≤ e.toNat ∧ e.toNat ≤ 70 := by
      rw [ge_iff_le, UInt32.le_iff_toNat_le] at hcapital
      exact ⟨hcapital.1, UInt32.le_iff_toNat_le.mp hF⟩
    obtain ⟨hlow, hhigh⟩ := hrange
    rw [← Char.ofNat_toNat e]
    generalize e.toNat = n at hlow hhigh
    interval_cases n <;> decide
  · have hlower : e.toLower = e := dif_neg hcapital
    rw [hlower]
    simp only [isHex, Bool.or_eq_true, Bool.and_eq_true, decide_eq_true_eq] at h
    rcases h with (h | h) | h
    · exact .inl h
    · exact .inr h
    · refine absurd ⟨h.1, UInt32.le_trans h.2 (by decide)⟩ hcapital

theorem isHex_ne_hyphen {e : Char} (h : isHex e = true) : e ≠ '-' := by
  rintro rfl
  cases h

/-! ## Groups -/

theorem grouped_append {a b c d e : List Char} (ha : a.length = 8) (hb : b.length = 4)
    (hc : c.length = 4) (hd : d.length = 4) :
    grouped (a ++ (b ++ (c ++ (d ++ e))))
      = a ++ '-' :: (b ++ '-' :: (c ++ '-' :: (d ++ '-' :: e))) := by
  have hdrop : ∀ (xs : List Char) i, xs.length ≤ i → xs.drop i = [] := fun xs i =>
    List.drop_eq_nil_of_le
  simp [grouped, List.drop_append, ha, hb, hc, hd, hdrop]

/-- A list is what stands before and behind one of its items. -/
theorem eq_take_cons_drop {α : Type} {xs : List α} {i : Nat} {x : α} (h : xs[i]? = some x) :
    xs = xs.take i ++ x :: xs.drop (i + 1) := by
  obtain ⟨hi, rfl⟩ := List.getElem?_eq_some_iff.mp h
  rw [← List.drop_eq_getElem_cons hi, List.take_append_drop]

/-- A text with hyphens at the four places is five groups with hyphens between them. -/
theorem exists_groups {cs : List Char} (hlength : cs.length = 36)
    (hhyphens : ([8, 13, 18, 23].all fun i => cs[i]? == some '-') = true) :
    ∃ a b c d e : List Char, cs = a ++ '-' :: (b ++ '-' :: (c ++ '-' :: (d ++ '-' :: e))) ∧
      a.length = 8 ∧ b.length = 4 ∧ c.length = 4 ∧ d.length = 4 := by
  simp only [List.all_cons, List.all_nil, Bool.and_true, Bool.and_eq_true, beq_iff_eq] at hhyphens
  obtain ⟨h8, h13, h18, h23⟩ := hhyphens
  refine ⟨cs.take 8, (cs.drop 9).take 4, (cs.drop 14).take 4, (cs.drop 19).take 4, cs.drop 24,
    ?_, by simp [hlength], by simp [hlength], by simp [hlength], by simp [hlength]⟩
  have hdrop : ∀ i j, (cs.drop i).drop j = cs.drop (i + j) := fun i j => List.drop_drop
  have hfirst := eq_take_cons_drop h8
  have hsecond : cs.drop 9 = (cs.drop 9).take 4 ++ '-' :: (cs.drop 9).drop 5 :=
    eq_take_cons_drop (by rwa [List.getElem?_drop])
  have hthird : cs.drop 14 = (cs.drop 14).take 4 ++ '-' :: (cs.drop 14).drop 5 :=
    eq_take_cons_drop (by rwa [List.getElem?_drop])
  have hfourth : cs.drop 19 = (cs.drop 19).take 4 ++ '-' :: (cs.drop 19).drop 5 :=
    eq_take_cons_drop (by rwa [List.getElem?_drop])
  rw [hdrop] at hsecond hthird hfourth
  rw [← hfourth, ← hthird, ← hsecond, ← hfirst]

/-- Digits are read from groups exactly if they were grouped. -/
theorem ungrouped?_eq_some {cs ds : List Char} : ungrouped? cs = some ds ↔
    ds.length = 32 ∧ (∀ d ∈ ds, d ≠ '-') ∧ cs = grouped ds := by
  constructor
  · intro h
    simp only [ungrouped?] at h
    split at h
    case isFalse => cases h
    case isTrue hshape =>
      obtain ⟨hlength, hhyphens, hdigits⟩ := hshape
      cases h
      refine ⟨hdigits, fun x hx => by simpa using (List.mem_filter.mp hx).2, ?_⟩
      obtain ⟨a, b, c, d, e, rfl, ha, hb, hc, hd⟩ := exists_groups hlength hhyphens
      have hhyphen : (('-' : Char) != '-') = false := rfl
      simp only [List.filter_append, List.filter_cons, hhyphen, Bool.false_eq_true, if_false,
        List.length_append, List.length_cons] at hlength hdigits ⊢
      -- All that is not a hyphen between groups counts as a digit, so no group has a hyphen in it.
      have hle := fun cs : List Char => List.length_filter_le (fun c => c != '-') cs
      have hla := hle a
      have hlb := hle b
      have hlc := hle c
      have hld := hle d
      have hlel := hle e
      have hself : ∀ cs : List Char, (cs.filter (· != '-')).length = cs.length →
          cs.filter (· != '-') = cs := fun cs h =>
        List.filter_eq_self.mpr (List.length_filter_eq_length_iff.mp h)
      rw [hself a (by omega), hself b (by omega), hself c (by omega), hself d (by omega),
        hself e (by omega)]
      exact (grouped_append ha hb hc hd).symm
  · rintro ⟨hlength, hds, rfl⟩
    simp only [ungrouped?, length_grouped hlength, hyphens_grouped hlength, filter_grouped hds,
      hlength, and_self, if_true]

/-! ## Forms -/

/-- Behind its braces or its prefix, a name is read as its groups. -/
theorem digits?_braced {cs : List Char} (h : cs.length = 36) :
    digits? ('{' :: (cs ++ ['}'])) = ungrouped? cs := by
  unfold digits?
  split
  case h_3 hrest =>
    cases hrest
    rw [if_pos List.getLast?_concat, List.dropLast_concat]
  all_goals simp_all

theorem digits?_urn {cs : List Char} (h : cs.length = 36) :
    digits? ("urn:uuid:".toList ++ cs) = ungrouped? cs := by
  have hprefix : "urn:uuid:".toList.isPrefixOf ("urn:uuid:".toList ++ cs) = true :=
    List.isPrefixOf_iff_prefix.mpr (List.prefix_append _ _)
  have hlength : ("urn:uuid:".toList ++ cs).length = 45 := by
    rw [List.length_append, h]
    rfl
  unfold digits?
  split <;> simp_all

/-- The digits that are read from a text are those of one of the forms. -/
theorem form_of_digits? {cs es : List Char} (h : digits? cs = some es) :
    es.length = 32 ∧ Form es cs := by
  unfold digits? at h
  split at h
  · rename_i hlength
    cases h
    exact ⟨hlength, .simple⟩
  · obtain ⟨hlength, -, rfl⟩ := ungrouped?_eq_some.mp h
    exact ⟨hlength, .hyphenated⟩
  · rename_i rest hlength
    split at h
    · rename_i hbrace
      obtain ⟨hdigits, -, hgroups⟩ := ungrouped?_eq_some.mp h
      obtain ⟨front, rfl⟩ := List.getLast?_eq_some_iff.mp hbrace
      rw [List.dropLast_concat] at hgroups
      rw [hgroups]
      exact ⟨hdigits, .braced⟩
    · cases h
  · split at h
    · rename_i hprefix
      obtain ⟨hdigits, -, hgroups⟩ := ungrouped?_eq_some.mp h
      obtain ⟨groups, rfl⟩ := List.isPrefixOf_iff_prefix.mp hprefix
      have hdrop : ("urn:uuid:".toList ++ groups).drop 9 = groups := rfl
      rw [hdrop] at hgroups
      rw [hgroups]
      exact ⟨hdigits, .urn⟩
    · cases h
  · cases h

theorem Form.digits? {cs es : List Char} (h : Form es cs) (hlength : es.length = 32)
    (hes : ∀ e ∈ es, isHex e = true) : digits? cs = some es := by
  have hgrouped : ungrouped? (grouped es) = some es :=
    ungrouped?_eq_some.mpr ⟨hlength, fun e he => isHex_ne_hyphen (hes e he), rfl⟩
  cases h with
  | simple =>
    unfold RunId.digits?
    split <;> simp_all
  | hyphenated => rw [digits?_of_length (length_grouped hlength), hgrouped]
  | braced => rw [digits?_braced (length_grouped hlength), hgrouped]
  | urn => rw [digits?_urn (length_grouped hlength), hgrouped]

/-- **A text is filed if it spells a name**, under the digits of the name. -/
theorem canonical?_eq_some {id u : String} :
    canonical? id = some u ↔ ∃ ds, Spells ds id ∧ u = String.ofList (grouped ds) := by
  unfold canonical?
  constructor
  · intro h
    split at h
    · rename_i es hdigits
      split at h
      · rename_i hhex
        obtain ⟨hlength, hform⟩ := form_of_digits? hdigits
        exact ⟨_, ⟨es, hlength, List.all_eq_true.mp hhex, rfl, hform⟩, (Option.some.inj h).symm⟩
      · cases h
    · cases h
  · rintro ⟨_, ⟨es, hlength, hes, rfl, hform⟩, rfl⟩
    have hhex : es.all isHex = true := List.all_eq_true.mpr hes
    rw [hform.digits? hlength hes]
    simp only [hhex, if_true]

/-- Braces and capital letters do not matter. -/
example : canonical? "{67E55044-10B1-426F-9247-BB680E5FE0C8}"
    = some "67e55044-10b1-426f-9247-bb680e5fe0c8" := by decide

theorem Spells.canonical? {ds : List Char} {id : String} (h : Spells ds id) :
    canonical? id = some (String.ofList (grouped ds)) :=
  canonical?_eq_some.mpr ⟨ds, h, rfl⟩

/-- What a name is filed under is a name in its usual form. -/
theorem Spells.isHyphenated {ds : List Char} {id : String} (h : Spells ds id) :
    IsHyphenated (String.ofList (grouped ds)) := by
  obtain ⟨es, hlength, hes, rfl, -⟩ := h
  refine ⟨_, by rw [List.length_map, hlength], ?_, rfl⟩
  rw [List.forall_mem_map]
  exact fun e he => isSmallHex_toLower (hes e he)

end Enclave.RunId
