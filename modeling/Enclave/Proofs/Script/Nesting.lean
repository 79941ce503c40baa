import Enclave.Proofs.Json.Spelling
import Enclave.Proofs.Script.Spelling

/-!
# How deep a text may be nested

JSON and literals share lists, mappings, numbers and strings between double quotes (`shared`). Both
readers read these texts, though not always as the same value: `\/`, `\b` and `\f` are escapes in
JSON only. What they refuse such a text for is its depth alone, and each of them counts the
containers in its own way. JSON refuses the 128th container inside the others, and the reader of
literals the one behind it (`refused_iff`).
-/

namespace Enclave.Script.Literal

open Decimal (Digits)
open Json (Value Dialect HexDigits NumberShape)

/-! ## Numbers -/

theorem takeSign_digits {ds : List Char} (h : Digits ds) (r : List Char) :
    Decimal.takeSign (ds ++ r) = (false, ds ++ r) := by
  obtain ⟨c, cs, rfl⟩ := List.exists_cons_of_ne_nil h.nonempty
  have hc : c.isDigit = true := h.digit c List.mem_cons_self
  have hminus : c ≠ '-' := Decimal.ne_of_isDigit hc rfl
  have hplus : c ≠ '+' := Decimal.ne_of_isDigit hc rfl
  simp [Decimal.takeSign, hminus, hplus]

/-- Digits with or without a sign are an integer. -/
theorem readInt?_digits {sign ds : List Char} (hsign : sign = [] ∨ sign = ['-'] ∨ sign = ['+'])
    (h : Digits ds) : (Decimal.readInt? (sign ++ ds)).isSome = true := by
  have hall : ds.all Char.isDigit = true := List.all_eq_true.mpr h.digit
  have htake : ∃ negative, Decimal.takeSign (sign ++ ds) = (negative, ds) := by
    rcases hsign with rfl | rfl | rfl
    · have hnone := takeSign_digits h []
      rw [List.append_nil] at hnone
      exact ⟨false, hnone⟩
    · exact ⟨true, rfl⟩
    · exact ⟨false, rfl⟩
  obtain ⟨negative, htake⟩ := htake
  rw [Decimal.readInt?, htake]
  simp [hall, h.nonempty]

theorem takeWhile_digits {ds r : List Char} (h : ∀ c ∈ ds, c.isDigit = true)
    (hr : ∀ c ∈ r.head?, c.isDigit = false) :
    (ds ++ r).takeWhile Char.isDigit = ds ∧ (ds ++ r).dropWhile Char.isDigit = r := by
  rw [List.takeWhile_append_of_pos h, List.dropWhile_append_of_pos h]
  cases r with
  | nil => simp
  | cons c r => simp [hr c rfl]

section Shape

variable {whole fraction exponent : List Char} (h : NumberShape whole fraction exponent)
include h

theorem exponent_head : ∀ c ∈ exponent.head?, c.isDigit = false ∧ c ≠ '.' := by
  obtain rfl | ⟨e, sign, ds, rfl, he, -⟩ := h.exponent
  · nofun
  · rintro _ ⟨⟩
    rcases he with rfl | rfl <;> decide

theorem fraction_head : ∀ c ∈ (fraction ++ exponent).head?, c.isDigit = false := by
  obtain rfl | ⟨ds, rfl, -⟩ := h.fraction
  · exact fun c hc => (exponent_head h c hc).1
  · rintro _ ⟨⟩
    rfl

theorem readExponent?_shape : (Decimal.readExponent? exponent).isSome = true := by
  obtain rfl | ⟨e, sign, ds, rfl, he, hsign, hds⟩ := h.exponent
  · rfl
  · rw [Decimal.readExponent?, if_pos (by simpa using he)]
    exact readInt?_digits hsign hds

/-- What has the shape of a number is a decimal. -/
theorem readFloat?_shape (negative : Bool) :
    (Decimal.readFloat? ((if negative then ['-'] else []) ++
      (whole ++ (fraction ++ exponent)))).isSome = true := by
  have hsign : Decimal.takeSign ((if negative then ['-'] else []) ++
      (whole ++ (fraction ++ exponent))) = (negative, whole ++ (fraction ++ exponent)) := by
    cases negative with
    | true => rfl
    | false => exact takeSign_digits h.whole _
  have hwhole := takeWhile_digits h.whole.digit (fraction_head h)
  have hexponent := readExponent?_shape h
  rw [Decimal.readFloat?, hsign]
  simp only [hwhole.1, hwhole.2]
  split
  · rfl
  split
  · rfl
  rw [if_neg (by simp [h.whole.nonempty]), Option.isSome_map]
  obtain rfl | ⟨ds, rfl, hds⟩ := h.fraction
  · have hpoint : ∀ r, exponent ≠ '.' :: r := by
      rintro r rfl
      exact (exponent_head h '.' rfl).2 rfl
    rw [List.nil_append]
    split
    · exact absurd rfl (hpoint _)
    · exact hexponent
  · have hfraction := takeWhile_digits hds.digit fun c hc => (exponent_head h c hc).1
    simpa only [List.cons_append, hfraction.2] using hexponent

/-- So it is a value without parts, a whole number or a decimal. -/
theorem numeralValue?_shape (negative : Bool) :
    ∃ v : Value, v.nesting = 0 ∧ numeralValue? ((if negative then ['-'] else []) ++
      (whole ++ (fraction ++ exponent))) = some v := by
  obtain ⟨f, hf⟩ := Option.isSome_iff_exists.mp (readFloat?_shape h negative)
  rw [numeralValue?]
  split
  · exact ⟨_, rfl, rfl⟩
  · rw [hf]
    refine ⟨if Decimal.isFinite f then .float f else .null, ?_, rfl⟩
    split <;> rfl

/-- The exponent is taken up to its end. -/
theorem numeral_exponent (found : List Char) {rest : List Char} (hrest : EndsValue rest) :
    numeral found (exponent ++ rest) = (found.reverse ++ exponent, rest) := by
  obtain rfl | ⟨e, sign, ds, rfl, he, hsign, hds⟩ := h.exponent
  · simpa using numeral_end hrest found
  have hletter : ∀ c ∈ [e], c.isAlphanum = true ∨ c = '.' ∨ c = '_' := by
    rcases he with rfl | rfl <;> exact List.forall_mem_singleton.mpr (.inl rfl)
  have hhead : (e :: found).head? = some 'e' ∨ (e :: found).head? = some 'E' := by
    rcases he with rfl | rfl <;> simp
  have htaken : numeral (e :: found) (sign ++ (ds ++ rest)) =
      numeral (sign.reverse ++ e :: found) (ds ++ rest) := by
    rcases hsign with rfl | rfl | rfl
    · rfl
    · exact numeral_sign hhead (.inr rfl) _
    · exact numeral_sign hhead (.inl rfl) _
  have hdigits : ∀ c ∈ ds, c.isAlphanum = true ∨ c = '.' ∨ c = '_' := fun c hc =>
    .inl (by simp [Char.isAlphanum, hds.digit c hc])
  have hfirst := numeral_run hletter found (sign ++ (ds ++ rest))
  simp only [List.singleton_append, List.reverse_singleton] at hfirst
  rw [List.cons_append, List.append_assoc, hfirst, htaken, numeral_run hdigits, numeral_end hrest]
  simp

/-- It is taken up to its end. -/
theorem numeral_shape (found : List Char) {rest : List Char} (hrest : EndsValue rest) :
    numeral found (whole ++ (fraction ++ exponent) ++ rest) =
      (found.reverse ++ (whole ++ (fraction ++ exponent)), rest) := by
  have hdigits : ∀ {ds : List Char}, Digits ds →
      ∀ c ∈ ds, c.isAlphanum = true ∨ c = '.' ∨ c = '_' :=
    fun hds c hc => .inl (by simp [Char.isAlphanum, hds.digit c hc])
  have hfraction : ∀ c ∈ fraction, c.isAlphanum = true ∨ c = '.' ∨ c = '_' := by
    obtain rfl | ⟨ds, rfl, hds⟩ := h.fraction
    · exact List.forall_mem_nil _
    · exact List.forall_mem_cons.mpr ⟨.inr (.inl rfl), hdigits hds⟩
  rw [List.append_assoc, List.append_assoc, numeral_run (hdigits h.whole), numeral_run hfraction,
    numeral_exponent h _ hrest]
  simp

/-- What has the shape of a number reads as one. -/
theorem readsScalar_shape (negative : Bool) :
    ∃ v : Value, v.nesting = 0 ∧ ReadsScalar v ((if negative then ['-'] else []) ++
      (whole ++ (fraction ++ exponent))) := by
  obtain ⟨v, hleaf, hvalue⟩ := numeralValue?_shape h negative
  refine ⟨v, hleaf, ?_⟩
  obtain ⟨c, r, hcs⟩ := List.exists_cons_of_ne_nil h.whole.nonempty
  have hdigit : c.isDigit = true := h.whole.digit c (by rw [hcs]; exact List.mem_cons_self)
  have hnumber : ∀ rest, EndsValue rest → number ((if negative then ['-'] else []) ++
      (whole ++ (fraction ++ exponent) ++ rest)) = .ok (v, rest) := by
    intro rest hrest
    refine number_of_numeral (.inr ⟨c, by simp [hcs], hdigit⟩) ?_ ?_ hvalue
    · rw [numeral_shape h _ hrest]
      cases negative <;> rfl
    · exact fun c hc => Json.ne_of_isNumberChar (h.isNumberChar c hc) rfl
  cases negative with
  | true =>
    exact readsScalar_number (.inr rfl) hnumber
  | false =>
    subst hcs
    exact readsScalar_number (.inl hdigit) hnumber

end Shape

/-- Every number of JSON reads as a number. -/
theorem readsScalar_numberText {v : Value} {cs : List Char} (h : Json.NumberText v cs) :
    ∃ w : Value, w.nesting = 0 ∧ ReadsScalar w cs := by
  have hreads : ∀ {n}, Json.ReadsNumber cs n → ∃ w : Value, w.nesting = 0 ∧ ReadsScalar w cs := by
    intro n hn
    cases hn with
    | negative hread =>
      obtain ⟨_, _, _, rfl, hshape⟩ := Json.readNumber_shape hread
      rw [List.append_nil]
      exact readsScalar_shape hshape true
    | positive _ hread =>
      obtain ⟨_, _, _, hcs, hshape⟩ := Json.readNumber_shape hread
      rw [hcs, List.append_nil]
      exact readsScalar_shape hshape false
  cases h with
  | int h => exact hreads h
  | float h => exact hreads h

/-! ## Strings -/

/-- A character of a JSON string is read as some characters: an escape that only JSON knows stands
for itself. -/
theorem readsPiece_charText {c : Char} {piece : List Char} (h : Json.CharText false c piece) :
    ∃ found, ReadsPiece '"' found piece := by
  cases h with
  | plain h =>
    simp only [Json.isPlain, Bool.and_eq_true, bne_iff_ne] at h
    exact ⟨[c], .plain h.1.1 h.1.2⟩
  | unit hds => exact ⟨[c], CharText.readsPiece (.hex4 hds)⟩
  | pair hpairs => cases hpairs
  | _ => exact ⟨_, .escaped fun _ => rfl⟩

theorem readsPiece_pieces {s : List Char} {pieces : List (List Char)}
    (h : List.Forall₂ (Json.CharText false) s pieces) :
    ∃ founds, List.Forall₂ (ReadsPiece '"') founds pieces := by
  induction h with
  | nil => exact ⟨[], .nil⟩
  | cons hc _ ih =>
    obtain ⟨found, hfound⟩ := readsPiece_charText hc
    obtain ⟨founds, hfounds⟩ := ih
    exact ⟨found :: founds, .cons hfound hfounds⟩

/-- Every string of JSON without pairs of surrogates reads as a string. -/
theorem readsScalar_stringText {v : Value} {cs : List Char} (h : Json.StringText false v cs) :
    ∃ s, ReadsScalar (.str s) cs := by
  cases h with
  | str h =>
    obtain ⟨pieces, hpieces, rfl⟩ := h
    obtain ⟨founds, hfounds⟩ := readsPiece_pieces hpieces
    exact ⟨_, readsScalar_pieces (.inr rfl) hfounds⟩

/-! ## The texts that both readers read -/

/-- The numbers, and the strings without pairs of surrogates. -/
inductive SharedText : Value → List Char → Prop where
  | number {v : Value} {cs : List Char} (h : Json.NumberText v cs) : SharedText v cs
  | string {v : Value} {cs : List Char} (h : Json.StringText false v cs) : SharedText v cs

/-- What JSON and literals share. -/
def shared : Dialect where
  blank := Json.isJsonBlank
  scalar := SharedText
  tuples := false
  trailing := false
  nesting_of_scalar h := by
    cases h with
    | number h => exact h.nesting
    | string h => exact h.nesting

/-- Whatever reads as a value without parts, and what is made of it. -/
def readable : Dialect where
  blank := Text.isBlank
  scalar v cs := v.nesting = 0 ∧ ReadsScalar v cs
  tuples := true
  trailing := true
  nesting_of_scalar h := h.1

theorem understands_readable : Understands readable where
  blank h := h
  scalar h := h.2

/-- A value in the place of another one: nested as deep, and a string if the other one is. -/
structure StandsFor (v w : Value) : Prop where
  nesting : w.nesting = v.nesting
  str : ∀ {k}, v = .str k → ∃ k', w = .str k'

theorem StandsFor.items {vs ws : List Value} (h : List.Forall₂ StandsFor vs ws) :
    Value.itemNesting ws = Value.itemNesting vs := by
  induction h with
  | nil => rfl
  | cons hvalue _ ih => rw [Value.itemNesting, Value.itemNesting, hvalue.nesting, ih]

theorem StandsFor.fields {kvs kws : List (String × Value)}
    (h : List.Forall₂ (fun kv kw => StandsFor (.str kv.1) (.str kw.1) ∧ StandsFor kv.2 kw.2)
      kvs kws) :
    Value.fieldNesting kws = Value.fieldNesting kvs := by
  induction h with
  | nil => rfl
  | cons hmember _ ih =>
    rw [Value.fieldNesting, Value.fieldNesting, hmember.2.nesting, ih]

theorem isBlank_of_isJsonBlank {c : Char} (h : Json.isJsonBlank c = true) :
    Text.isBlank c = true := by
  simp only [Json.isJsonBlank, Bool.or_eq_true, beq_iff_eq] at h
  rcases h with ((rfl | rfl) | rfl) | rfl <;> rfl

theorem shared_readable : Dialect.Translates shared readable StandsFor where
  blank := isBlank_of_isJsonBlank
  tuples := fun h => nomatch h
  trailing := fun h => nomatch h
  scalar h := by
    cases h with
    | number h =>
      obtain ⟨w, hleaf, hw⟩ := readsScalar_numberText h
      refine ⟨w, ⟨hleaf, hw⟩, ⟨hleaf.trans h.nesting.symm, ?_⟩⟩
      rintro k rfl
      cases h
    | string h =>
      obtain ⟨s, hs⟩ := readsScalar_stringText h
      exact ⟨.str s, ⟨rfl, hs⟩, ⟨h.nesting.symm, fun _ => ⟨s, rfl⟩⟩⟩
  str h := h.str rfl
  arr h := ⟨by rw [Value.nesting, Value.nesting, StandsFor.items h], nofun⟩
  obj h := ⟨by rw [Value.nesting, Value.nesting, StandsFor.fields h], nofun⟩

theorem shared_json : Dialect.Translates shared Json.dialect Eq where
  blank h := h
  tuples h := h
  trailing h := h
  scalar h := by
    refine ⟨_, ?_, rfl⟩
    cases h with
    | number h => exact .number h
    | string h => exact .string h.withPairs
  str h := ⟨_, h.symm⟩
  arr h := by
    rw [List.forall₂_eq_eq_eq] at h
    rw [h]
  obj h := by
    have hmembers := h.imp fun _ _ hkv => Prod.ext (Value.str.inj hkv.1) hkv.2
    rw [List.forall₂_eq_eq_eq] at hmembers
    rw [hmembers]

end Enclave.Script.Literal

namespace Enclave.Script

open Json.Dialect (nested nestedChars)
open Script.Literal (shared maxDepth)

/-! ## The bound -/

/-- The reader of JSON refuses a text for its depth. -/
def TooDeepForJson (text : String) : Prop := Json.Value.parse text = .error .recursionLimit

/-- The reader of literals refuses a text for its depth. -/
def TooDeepForLiteral (text : String) : Prop :=
  ∃ place, readLiteral text =
    .error (.unreadable ("literal parse error at " ++ Decimal.natText place ++
      ": nesting too deep"))

section Bound

variable {v : Json.Value} {cs before behind : List Char} (h : shared.Spelt v cs)
  (hbefore : ∀ c ∈ before, Json.isJsonBlank c = true)
  (hbehind : ∀ c ∈ behind, Json.isJsonBlank c = true)
include h hbefore hbehind

theorem tooDeepForJson_iff :
    TooDeepForJson (String.ofList (before ++ (cs ++ behind))) ↔ 128 ≤ v.nesting := by
  obtain ⟨_, hspelt, rfl⟩ := Literal.shared_json.spelt h
  have hends : Json.EndsNumber behind := by
    rw [← List.append_nil behind]
    exact Json.EndsNumber.nil.blank hbehind
  have hskip : Json.skipBlank behind = [] := List.dropWhile_eq_nil_iff.mpr hbehind
  have hread := Json.Doc.read_spelt hspelt hbefore hends
  rw [hskip] at hread
  rw [TooDeepForJson, Json.Value.parse, hread]
  obtain hfits | hdeep := Nat.lt_or_ge v.nesting 128
  · simp only [Json.Value.toValue_ofValue v Json.maxDepth (Nat.le_of_lt_succ hfits)]
    simpa using hfits
  · simp only [Json.Value.toValue_ofValue_deep v Json.maxDepth hdeep]
    simpa using hdeep

theorem tooDeepForLiteral_iff :
    TooDeepForLiteral (String.ofList (before ++ (cs ++ behind))) ↔ 129 ≤ v.nesting := by
  obtain ⟨w, hspelt, hw⟩ := Literal.shared_readable.spelt h
  have hblank : ∀ {bs : List Char}, (∀ c ∈ bs, Json.isJsonBlank c = true) →
      ∀ c ∈ bs, Text.isBlank c = true := Literal.shared_readable.blanks
  have hread := readLiteral_understood Literal.understands_readable hspelt (hblank hbefore)
    (hblank hbehind)
  rw [hw.nesting] at hread
  obtain hdeep | hfits := Nat.lt_or_ge maxDepth v.nesting
  · exact iff_of_true (hread.2 hdeep) hdeep
  · refine iff_of_false ?_ (Nat.not_lt.mpr hfits)
    rintro ⟨place, hrefused⟩
    rw [hread.1 hfits] at hrefused
    cases hrefused

/-- **Both readers refuse a text for its depth, but not from the same depth on.** JSON refuses 128
containers inside each other, which a literal may still have, so they disagree on exactly these
texts. -/
theorem refused_iff :
    (TooDeepForJson (String.ofList (before ++ (cs ++ behind))) ↔ 128 ≤ v.nesting) ∧
      (TooDeepForLiteral (String.ofList (before ++ (cs ++ behind))) ↔ 129 ≤ v.nesting) ∧
      ((TooDeepForJson (String.ofList (before ++ (cs ++ behind))) ↔
        TooDeepForLiteral (String.ofList (before ++ (cs ++ behind)))) ↔ v.nesting ≠ 128) := by
  have hjson := tooDeepForJson_iff h hbefore hbehind
  have hliteral := tooDeepForLiteral_iff h hbefore hbehind
  refine ⟨hjson, hliteral, ?_⟩
  rw [hjson, hliteral]
  omega

end Bound

/-- A mapping with lists inside each other. -/
def mappingOfLists (n : Nat) : Json.Value := .obj [("a/", .arr [.int (-1), nested n])]

/-- A text of it, with an escape that a literal does not know. -/
def mappingOfListsChars (n : Nat) : List Char :=
  "\x7b\"a\\/\" : [-1, ".toList ++ (nestedChars n ++ [']']) ++ ['}']

theorem nesting_mappingOfLists (n : Nat) : (mappingOfLists n).nesting = n + 3 := by
  simp [mappingOfLists, Json.Value.nesting, Json.Value.fieldNesting, Json.Value.itemNesting,
    Json.Dialect.nesting_nested]

theorem spelt_mappingOfLists (n : Nat) :
    shared.Spelt (mappingOfLists n) (mappingOfListsChars n) := by
  have hnone := shared.blank_nil
  have hspace : ∀ c ∈ [' '], shared.blank c = true := List.forall_mem_singleton.mpr rfl
  have hname : shared.scalar (.str "a/") "\"a\\/\"".toList := .string (.str
    ⟨[['a'], "\\/".toList], .cons (.plain (by decide)) (.cons .slash .nil), rfl⟩)
  have hint : shared.Spelt (.int (-1)) "-1".toList := .scalar (.number (.int (.negative rfl)))
  have hlist := Json.Dialect.Spelt.list (.cons hnone hint hnone
    (.last hspace (shared.spelt_nested n) hnone) (by simp))
  have hmember := Json.Dialect.Member.mk hname hspace hspace hlist
  exact .mapping (.last hnone hmember hnone)

/-- Such a text of 128 containers. -/
theorem refused_iff_mappingOfLists :
    (shared.Spelt (mappingOfLists 125) (mappingOfListsChars 125) ∧
        ∀ c ∈ [' '], Json.isJsonBlank c = true) ∧
      TooDeepForJson (String.ofList ([' '] ++ (mappingOfListsChars 125 ++ [' ']))) ∧
      ¬TooDeepForLiteral (String.ofList ([' '] ++ (mappingOfListsChars 125 ++ [' ']))) := by
  have hspelt := spelt_mappingOfLists 125
  have hspace : ∀ c ∈ [' '], Json.isJsonBlank c = true := List.forall_mem_singleton.mpr rfl
  obtain ⟨hjson, hliteral, -⟩ := refused_iff hspelt hspace hspace
  rw [nesting_mappingOfLists] at hjson hliteral
  exact ⟨⟨hspelt, hspace⟩, hjson.mpr (by decide), fun h => absurd (hliteral.mp h) (by decide)⟩

/-- With 128 lists inside each other, only the reader of JSON refuses the text. -/
theorem refused_between : shared.Spelt (nested 127) (nestedChars 127) ∧
    ¬(TooDeepForJson (String.ofList (nestedChars 127)) ↔
      TooDeepForLiteral (String.ofList (nestedChars 127))) := by
  have hspelt := shared.spelt_nested 127
  have hnil : ∀ c ∈ ([] : List Char), Json.isJsonBlank c = true := shared.blank_nil
  have hjson := tooDeepForJson_iff hspelt hnil hnil
  have hliteral := tooDeepForLiteral_iff hspelt hnil hnil
  rw [List.nil_append, List.append_nil, Json.Dialect.nesting_nested] at hjson hliteral
  refine ⟨hspelt, ?_⟩
  rw [hjson, hliteral]
  decide

end Enclave.Script
