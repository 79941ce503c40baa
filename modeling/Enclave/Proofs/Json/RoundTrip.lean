import Enclave.Proofs.Json.Layout
import Enclave.Proofs.Json.Reading
import Enclave.Proofs.Json.Spelling
import Enclave.Proofs.Text.Blank

/-!
# What is written reads back

Both ways of writing a value differ only in the blanks between its tokens. `Layout` says where
these stand, and whatever the layout, what is written is a text of the value
(`Value.spelt_laid`), so that it reads back as its tree. So a text on one line gives the value in
order again (`Value.parse_compact`), and one spread over lines gives its tree (`Doc.read_pretty`).
The numbers of the value have to be such as JSON carries (`Numeral.Carried`). A text on one line has
no line feed in it (`newline_notMem_chars`).
-/

namespace Enclave.Json

open Enclave.Decimal (digitChars digits_digitChars)

/-! ## Numbers that JSON carries -/

/-- A double that is still the same after it was written and read. -/
def Survives (f : Float) : Prop := Value.parse (Value.float f).compact = .ok (.float f)

theorem survives_iff {f : Float} : Survives f ↔
    (match Value.parse (Value.float f).compact with
      | .ok (.float g) => decide (g = f)
      | _ => false) = true := by
  unfold Survives
  split <;> simp_all

instance (f : Float) : Decidable (Survives f) := decidable_of_iff' _ survives_iff

/-- A number that JSON carries: an integer of 64 bits with or without a sign, or a double that
survives. -/
def Numeral.Carried : Numeral → Prop
  | .int n => -(2 ^ 63) ≤ n ∧ n < 2 ^ 64
  | .float f => Survives f
  | .tooLarge => False

/-! ## Numbers -/

/-- The text of an integer that JSON carries reads as the integer. -/
theorem readsNumber_int {n : Int} (h : (Numeral.int n).Carried) :
    ReadsNumber (Decimal.intText n).toList (.int n) := by
  obtain ⟨hlow, hhigh⟩ := h
  cases n with
  | ofNat n =>
    have hword : n ≤ maxWord := by
      rw [Int.ofNat_eq_natCast] at hhigh
      rw [maxWord]
      omega
    have hdigits := digits_digitChars n
    obtain ⟨c, r, hcons⟩ := List.exists_cons_of_ne_nil hdigits.nonempty
    have hread := readNumber_digitChars hword false
    rw [Decimal.intText, Decimal.natText, String.toList_ofList]
    rw [hcons] at hread ⊢
    exact .positive (hdigits.digit c (by rw [hcons]; exact List.mem_cons_self)) hread
  | negSucc n =>
    have hword : n + 1 ≤ maxWord := by
      rw [maxWord]
      omega
    have hsize : 1 ≤ n + 1 ∧ n + 1 ≤ 2 ^ 63 := by omega
    have hread := readNumber_digitChars hword true
    rw [wholeNumeral, if_neg (by simp), if_neg (by simp), if_pos hsize] at hread
    have htext : (Decimal.intText (.negSucc n)).toList = '-' :: digitChars (n + 1) := by
      simp [Decimal.intText, Decimal.natText]
    rw [htext]
    exact .negative hread

/-- No blank stands in a number. -/
theorem notBlank_of_mem_numeral {w p x : List Char} (h : Decimal.Numeral w p x) {c : Char}
    (hc : c ∈ w ++ (p ++ x)) : isJsonBlank c = false := by
  have hdigit : ∀ d : Char, d.isDigit = true → isJsonBlank d = false :=
    fun d hd => (OpensValue.of_isDigit hd).notBlank
  rcases List.mem_append.mp hc with hw | hc
  · exact hdigit c (h.whole.digit c hw)
  rcases List.mem_append.mp hc with hp | hx
  · obtain rfl | ⟨ds, rfl, hds⟩ := h.fraction
    · cases hp
    · rcases List.mem_cons.mp hp with rfl | hp
      · rfl
      · exact hdigit c (hds c hp)
  · obtain rfl | ⟨sign, ds, rfl, hsign, hds⟩ := h.exponent
    · cases hx
    · rcases List.mem_cons.mp hx with rfl | hx
      · rfl
      rcases List.mem_append.mp hx with hx | hx
      · rcases hsign with rfl | rfl | rfl
        · cases hx
        · rw [List.mem_singleton.mp hx]
          rfl
        · rw [List.mem_singleton.mp hx]
          rfl
      · exact hdigit c (hds.digit c hx)

theorem toValue_eq_float {d : Doc} {depth : Nat} {f : Float}
    (h : d.toValue depth = .ok (.float f)) : d = .num (.float f) := by
  unfold Doc.toValue at h
  split at h
  case h_4 => cases h; rfl
  case h_9 =>
    split at h
    · cases h
    · split at h <;> cases h
  case h_10 =>
    split at h
    · cases h
    · split at h <;> cases h
  all_goals cases h

/-- What is left of a text without blanks is nothing, if it is nothing but blanks. -/
theorem eq_nil_of_blank {cs rest : List Char} (hsuffix : rest <:+ cs)
    (hcs : ∀ c ∈ cs, isJsonBlank c = false) (hrest : skipBlank rest = []) : rest = [] := by
  have hblank := List.dropWhile_eq_nil_iff.mp hrest
  refine List.eq_nil_iff_forall_not_mem.mpr fun c hc => ?_
  have hnot := hcs c (hsuffix.mem hc)
  rw [hblank c hc] at hnot
  cases hnot

/-- The text of a double that survives reads as the double. -/
theorem readsNumber_float {f : Float} (h : Survives f) :
    ReadsNumber (floatText f).toList (.float f) := by
  obtain ⟨d, hdoc, hvalue⟩ := Value.parse_eq_ok h
  obtain ⟨rest, hread, hblank⟩ := Doc.read_eq hdoc
  obtain rfl := toValue_eq_float hvalue
  rw [Value.compact, String.toList_ofList, Value.chars] at hread
  cases hsize : Decimal.Reading.ofFloat f with
  | notANumber =>
    have htext : floatText f = "NaN" := by rw [floatText, Decimal.Notation.render, hsize]
    rw [htext] at hread
    cases hread
  | infinite negative =>
    have htext : floatText f = if negative then "-inf" else "inf" := by
      rw [floatText, Decimal.Notation.render, hsize]
    rw [htext] at hread
    cases negative <;> cases hread
  | finite negative size =>
    obtain ⟨negative, w, p, x, htext, -, hnumeral⟩ :=
      Decimal.Notation.render_numeral (c := notation64) (f := f) rfl (by
        rw [Decimal.isFinite, hsize])
    obtain ⟨c, r, hbody, hdigit⟩ := hnumeral.head_isDigit
    have hnotBlank : ∀ d ∈ c :: r, isJsonBlank d = false := by
      rw [← hbody]
      exact fun d hd => notBlank_of_mem_numeral hnumeral hd
    have htext : (floatText f).toList = if negative then '-' :: c :: r else c :: r := by
      rw [floatText, htext, String.toList_ofList, hbody]
    rw [htext] at hread ⊢
    cases negative with
    | true =>
      rw [if_pos rfl] at hread ⊢
      rw [readValue_minus] at hread
      obtain ⟨n, cs, hnumber, heq, rfl⟩ | ⟨_, heq⟩ := leaf_eq hread <;> cases heq
      obtain rfl := eq_nil_of_blank (readNumber_suffix hnumber) hnotBlank (hblank cs rfl)
      exact .negative hnumber
    | false =>
      rw [if_neg (by decide)] at hread ⊢
      rw [readValue_digit hdigit] at hread
      obtain ⟨n, cs, hnumber, heq, rfl⟩ | ⟨_, heq⟩ := leaf_eq hread <;> cases heq
      obtain rfl := eq_nil_of_blank (readNumber_suffix hnumber) hnotBlank (hblank cs rfl)
      exact .positive hdigit hnumber

/-! ## Strings -/

/-- A written character is written in one of the ways that the reader knows. -/
theorem charText_escapeChar (pairs : Bool) (c : Char) : CharText pairs c (escapeChar c) := by
  unfold escapeChar
  split
  · subst_vars
    exact .quote
  split
  · subst_vars
    exact .backslash
  split
  · subst_vars
    exact .newline
  split
  · subst_vars
    exact .carriageReturn
  split
  · subst_vars
    exact .tab
  split
  · subst_vars
    exact .backspace
  split
  · subst_vars
    exact .formFeed
  split
  · rename_i hcode
    have hzero : HexDigits 2 0 ['0', '0'] := ⟨rfl, [0, 0], by simp; decide, rfl⟩
    have hdigits := (hzero.concat (v := c.toNat / 16) (by omega)).concat
      (v := c.toNat % 16) (by omega)
    have hsum : (0 * 16 + c.toNat / 16) * 16 + c.toNat % 16 = c.toNat := by omega
    rw [hsum] at hdigits
    exact .unit hdigits
  · rename_i hquote hback _ _ _ _ _ hcode
    exact .plain (by simp [isPlain, hquote, hback, Nat.not_lt.mp hcode])

theorem stringText_stringChars (pairs : Bool) (s : String) :
    StringText pairs (.str s) (stringChars s) := by
  refine .str ⟨s.toList.map escapeChar, ?_, ?_⟩
  · rw [List.forall₂_map_right_iff, List.forall₂_same]
    exact fun c _ => charText_escapeChar pairs c
  · rw [stringChars, List.flatMap_def]

/-! ## Trees -/

section Containers

variable (l : Layout) (depth : Nat) {value : Value → List Char → Prop}

theorem member_stringChars (k : String) {v : Value} {cs : List Char} (h : value v cs) :
    dialect.Member value (k, v) (stringChars k ++ ':' :: (l.colon ++ cs)) :=
  .mk (ScalarText.string (stringText_stringChars true k)) dialect.blank_nil l.colon_blank h

/-- An item and the items behind it. -/
theorem listed_laidItems {vs : List Value} (h : ∀ v ∈ vs, value v (v.laid l depth)) {v : Value}
    {cs bs bs' : List Char} (hv : value v cs) (hbs : ∀ c ∈ bs, isJsonBlank c = true)
    (hbs' : ∀ c ∈ bs', isJsonBlank c = true) :
    dialect.Listed ']' value (v :: vs) (bs ++ (cs ++ (laidItems l depth vs ++ (bs' ++ [']'])))) := by
  induction vs generalizing v cs bs with
  | nil => exact .last hbs hv hbs'
  | cons w ws ih =>
    obtain ⟨hw, hws⟩ := List.forall_mem_cons.mp h
    have hcons := Dialect.Listed.cons hbs hv dialect.blank_nil (ih hws hw (l.gap_blank depth))
      (by simp)
    simpa only [laidItems, List.nil_append, List.cons_append, List.append_assoc] using hcons

/-- A member and the members behind it. -/
theorem listed_laidFields {kvs : List (String × Value)}
    (h : ∀ kv ∈ kvs, value kv.2 (kv.2.laid l depth)) {kv : String × Value} {cs bs bs' : List Char}
    (hkv : dialect.Member value kv cs) (hbs : ∀ c ∈ bs, isJsonBlank c = true)
    (hbs' : ∀ c ∈ bs', isJsonBlank c = true) :
    dialect.Listed '}' (dialect.Member value) (kv :: kvs)
      (bs ++ (cs ++ (laidFields l depth kvs ++ (bs' ++ ['}'])))) := by
  induction kvs generalizing kv cs bs with
  | nil => exact .last hbs hkv hbs'
  | cons next kvs ih =>
    obtain ⟨k, w⟩ := next
    obtain ⟨hw, hkvs⟩ := List.forall_mem_cons.mp h
    have hcons := Dialect.Listed.cons hbs hkv dialect.blank_nil
      (ih hkvs (member_stringChars l k hw) (l.gap_blank depth)) (by simp)
    simpa only [laidFields, List.nil_append, List.cons_append, List.append_assoc] using hcons

/-- The text of a list lists the texts of its items. -/
theorem exists_laid_arr {vs : List Value} (h : ∀ v ∈ vs, value v (v.laid l (depth + 1))) :
    ∃ cs, (Value.arr vs).laid l depth = '[' :: cs ∧ dialect.Listed ']' value vs cs := by
  cases vs with
  | nil => exact ⟨[']'], rfl, .nil dialect.blank_nil⟩
  | cons v vs =>
    obtain ⟨hv, hvs⟩ := List.forall_mem_cons.mp h
    exact ⟨_, rfl, listed_laidItems l (depth + 1) hvs hv (l.gap_blank (depth + 1))
      (l.gap_blank depth)⟩

/-- The text of an object lists the texts of its members. -/
theorem exists_laid_obj {kvs : List (String × Value)}
    (h : ∀ kv ∈ kvs, value kv.2 (kv.2.laid l (depth + 1))) :
    ∃ cs, (Value.obj kvs).laid l depth = '{' :: cs ∧
      dialect.Listed '}' (dialect.Member value) kvs cs := by
  cases kvs with
  | nil => exact ⟨['}'], rfl, .nil dialect.blank_nil⟩
  | cons kv kvs =>
    obtain ⟨k, v⟩ := kv
    obtain ⟨hv, hkvs⟩ := List.forall_mem_cons.mp h
    have hmembers := listed_laidFields l (depth + 1) hkvs (member_stringChars l k hv)
      (l.gap_blank (depth + 1)) (l.gap_blank depth)
    simp only [List.append_assoc, List.cons_append] at hmembers
    exact ⟨_, rfl, hmembers⟩

end Containers

/-- A written value is one of its texts. -/
theorem Value.spelt_laid (l : Layout) (depth : Nat) (v : Value)
    (h : ∀ n ∈ v.numbers, n.Carried) : dialect.Spelt v (v.laid l depth) := by
  induction v using Value.induction generalizing depth with
  | leaf v hleaf =>
    cases v with
    | null => exact .scalar .null
    | bool b =>
      cases b with
      | true => exact .scalar .true
      | false => exact .scalar .false
    | int n => exact .scalar (.number (.int (readsNumber_int (h (.int n) List.mem_cons_self))))
    | float f =>
      exact .scalar (.number (.float (readsNumber_float (h (.float f) List.mem_cons_self))))
    | str s => exact .scalar (.string (stringText_stringChars true s))
    | arr vs => cases hleaf
    | obj kvs => cases hleaf
  | arr vs ih =>
    have hspelt : ∀ v ∈ vs, dialect.Spelt v (v.laid l (depth + 1)) := fun v hv =>
      ih v hv (depth + 1) fun n hn => h n (mem_itemNumbers.mpr ⟨v, hv, hn⟩)
    obtain ⟨cs, hcs, hitems⟩ := exists_laid_arr l depth hspelt
    rw [hcs]
    exact .list hitems
  | obj kvs ih =>
    have hspelt : ∀ kv ∈ kvs, dialect.Spelt kv.2 (kv.2.laid l (depth + 1)) := fun kv hkv =>
      ih kv hkv (depth + 1) fun n hn => h n (mem_fieldNumbers.mpr ⟨kv, hkv, hn⟩)
    obtain ⟨cs, hcs, hmembers⟩ := exists_laid_obj l depth hspelt
    rw [hcs]
    exact .mapping hmembers

/-! ## Whole texts -/

/-- The text of a value reads as its tree; anything but blanks behind it is surplus. -/
theorem Doc.read_laid (l : Layout) {v : Value} (h : ∀ n ∈ v.numbers, n.Carried) {rest : List Char}
    (hrest : EndsNumber rest) :
    Doc.read (String.ofList (v.laid l 0 ++ rest)) =
      (Doc.ofValue v, if (skipBlank rest).isEmpty then none else some .trailingCharacters) := by
  have hread := read_spelt (v.spelt_laid l 0 h) dialect.blank_nil hrest
  rwa [List.nil_append] at hread

theorem Doc.read_append {v : Value} (h : ∀ n ∈ v.numbers, n.Carried) {rest : List Char}
    (hrest : EndsNumber rest) :
    Doc.read (String.ofList (v.chars ++ rest)) =
      (Doc.ofValue v, if (skipBlank rest).isEmpty then none else some .trailingCharacters) := by
  rw [v.chars_eq_laid 0]
  exact read_laid .compact h hrest

/-- The text of a value spread over lines reads as its tree. -/
theorem Doc.read_pretty {v : Value} (h : ∀ n ∈ v.numbers, n.Carried) :
    Doc.read v.pretty = (Doc.ofValue v, none) := by
  have hread := read_laid .pretty h .nil
  rwa [List.append_nil, ← v.prettyChars_eq_laid 0, ← Value.pretty] at hread

/-- The text of a value on one line reads as its tree. -/
theorem Doc.read_compact {v : Value} (h : ∀ n ∈ v.numbers, n.Carried) :
    Doc.read v.compact = (Doc.ofValue v, none) := by
  have hread := read_append h .nil
  rwa [List.append_nil, ← Value.compact] at hread

/-- **The text of a value gives the value back**, its members in order. -/
theorem Value.parse_compact {v : Value} (h : ∀ n ∈ v.numbers, n.Carried)
    (hdepth : v.nesting ≤ maxDepth) : Value.parse v.compact = .ok v.canonical :=
  Value.parse_of_read (Doc.read_compact h) (v.toValue_ofValue maxDepth hdepth)

/-- There are no blanks around the text of an object. -/
theorem trim_compact_obj (fields : Fields) :
    Text.trim (Value.obj fields).compact = (Value.obj fields).compact := by
  obtain ⟨cs, hcs⟩ : ∃ cs, (Value.obj fields).chars = '{' :: (cs ++ ['}']) := ⟨_, rfl⟩
  rw [Value.compact, Text.trim, String.toList_ofList, hcs]
  exact congrArg String.ofList (Text.trimChars_eq_self rfl rfl cs)

/-! ## On one line -/

/-- The characters that escapes are spelt with. -/
def escapeLetters : List Char := "\\\"nrtbfu0123456789abcdef".toList

/-- Any other character stands in what is written for itself alone. -/
theorem eq_of_mem_escapeChar {x c : Char} (hx : x ∉ escapeLetters) (h : x ∈ escapeChar c) :
    x = c := by
  have hdigit : ∀ d < 16, hexDigit d ∈ escapeLetters := by decide
  have hspelt : escapeChar c ⊆ escapeLetters ∨ escapeChar c = [c] := by
    unfold escapeChar
    split
    · exact .inl (by decide)
    split
    · exact .inl (by decide)
    split
    · exact .inl (by decide)
    split
    · exact .inl (by decide)
    split
    · exact .inl (by decide)
    split
    · exact .inl (by decide)
    split
    · exact .inl (by decide)
    split
    · have hhigh := hdigit (c.toNat / 16) (by omega)
      have hlow := hdigit (c.toNat % 16) (by omega)
      simp only [List.cons_subset, hhigh, hlow, true_and]
      exact .inl (by decide)
    · exact .inr rfl
  rcases hspelt with hletters | hself
  · exact absurd (hletters h) hx
  · rw [hself] at h
    exact List.mem_singleton.mp h

theorem newline_notMem_escapeChar (c : Char) : '\n' ∉ escapeChar c := by
  intro h
  obtain rfl := eq_of_mem_escapeChar (by decide) h
  revert h
  decide

theorem newline_notMem_stringChars (s : String) : '\n' ∉ stringChars s := by
  simp [stringChars, newline_notMem_escapeChar]

theorem newline_notMem_floatText (f : Float) : '\n' ∉ (floatText f).toList := by
  cases hsize : Decimal.Reading.ofFloat f with
  | notANumber =>
    rw [floatText, Decimal.Notation.render, hsize]
    decide
  | infinite negative =>
    rw [floatText, Decimal.Notation.render, hsize]
    cases negative <;> decide
  | finite negative size =>
    obtain ⟨negative, w, p, x, htext, -, hnumeral⟩ :=
      Decimal.Notation.render_numeral (c := notation64) (f := f) rfl (by
        rw [Decimal.isFinite, hsize])
    have hbody : '\n' ∉ w ++ (p ++ x) := fun hmem => by
      have := notBlank_of_mem_numeral hnumeral hmem
      cases this
    rw [floatText, htext, String.toList_ofList]
    cases negative <;> simp_all

/-- A whole number is written with digits and a minus sign. -/
theorem notMem_intText {c : Char} (hdigit : c.isDigit = false) (hminus : c ≠ '-') (n : Int) :
    c ∉ (Decimal.intText n).toList := by
  obtain ⟨negative, htext, -⟩ := Decimal.intText_eq n
  have hdigits : c ∉ Decimal.digitChars n.natAbs := fun hmem => by
    have htrue := (Decimal.digits_digitChars n.natAbs).digit _ hmem
    rw [hdigit] at htrue
    cases htrue
  rw [htext, String.toList_ofList]
  cases negative <;> simp_all

theorem newline_notMem_intText (n : Int) : '\n' ∉ (Decimal.intText n).toList :=
  notMem_intText rfl (by decide) n

theorem mem_joinChars {sep : List Char} {pieces : List (List Char)} {c : Char}
    (h : c ∈ joinChars sep pieces) : c ∈ sep ∨ ∃ piece ∈ pieces, c ∈ piece := by
  induction pieces with
  | nil => cases h
  | cons piece rest ih =>
    cases rest with
    | nil => exact .inr ⟨piece, List.mem_cons_self, h⟩
    | cons next rest =>
      rw [joinChars, List.append_assoc, List.mem_append, List.mem_append] at h
      · rcases h with h | h | h
        · exact .inr ⟨piece, List.mem_cons_self, h⟩
        · exact .inl h
        · obtain hsep | ⟨p, hp, hc⟩ := ih h
          · exact .inl hsep
          · exact .inr ⟨p, List.mem_cons_of_mem _ hp, hc⟩
      · simp

theorem newline_notMem_joinChars {pieces : List (List Char)} (h : ∀ p ∈ pieces, '\n' ∉ p) :
    '\n' ∉ joinChars [','] pieces := by
  intro hmem
  obtain hsep | ⟨p, hp, hc⟩ := mem_joinChars hmem
  · revert hsep
    decide
  · exact h p hp hc

mutual

/-- A value is written on one line. -/
theorem newline_notMem_chars : (v : Value) → '\n' ∉ v.chars
  | .null => by decide
  | .bool true => by decide
  | .bool false => by decide
  | .int n => newline_notMem_intText n
  | .float f => newline_notMem_floatText f
  | .str s => newline_notMem_stringChars s
  | .arr items => by
    have hitems := newline_notMem_joinChars (newline_notMem_itemChars items)
    simp [Value.chars, hitems]
  | .obj fields => by
    have hfields := newline_notMem_joinChars (newline_notMem_fieldChars fields)
    simp [Value.chars, hfields]

theorem newline_notMem_itemChars : (vs : List Value) → ∀ p ∈ itemChars vs, '\n' ∉ p
  | [] => by simp [itemChars]
  | v :: vs => List.forall_mem_cons.mpr ⟨newline_notMem_chars v, newline_notMem_itemChars vs⟩

theorem newline_notMem_fieldChars : (kvs : List (String × Value)) →
    ∀ p ∈ fieldChars kvs, '\n' ∉ p
  | [] => by simp [fieldChars]
  | (k, v) :: kvs => by
    refine List.forall_mem_cons.mpr ⟨?_, newline_notMem_fieldChars kvs⟩
    have hkey := newline_notMem_stringChars k
    have hvalue := newline_notMem_chars v
    simp [hkey, hvalue]

end

end Enclave.Json
