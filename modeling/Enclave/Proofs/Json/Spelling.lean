import Enclave.Proofs.Json.Dialect
import Enclave.Proofs.Json.Leaf

/-!
# The dialect of JSON

How a value may be written in JSON, and that the reader takes every such text for the tree of the
value, in front of anything that cannot continue a number (`readValue_spelt`). A number may have any
text that reads as it (`ReadsNumber`), and a character of a string any of its escapes.

The reader counts its steps. Three for each character are enough: a step for the bracket or comma,
one for the item behind it, and one for its value.
-/

namespace Enclave.Json

/-! ## The first character -/

/-- A character with which a value begins. -/
structure OpensValue (c : Char) : Prop where
  notBlank : isJsonBlank c = false
  notBracket : c ≠ ']'
  notComma : c ≠ ','

theorem isDigit_ne {c d : Char} (hc : c.isDigit = true) (hd : d.isDigit = false) : c ≠ d :=
  Decimal.ne_of_isDigit hc hd

theorem OpensValue.of_isDigit {c : Char} (h : c.isDigit = true) : OpensValue c := by
  refine ⟨?_, isDigit_ne h rfl, isDigit_ne h rfl⟩
  simp [isJsonBlank, isDigit_ne h (d := ' ') rfl, isDigit_ne h (d := '\n') rfl,
    isDigit_ne h (d := '\t') rfl, isDigit_ne h (d := '\r') rfl]

theorem opensValue_minus : OpensValue '-' := ⟨by decide, by decide, by decide⟩

theorem skipBlank_of_opens {c : Char} (h : OpensValue c) (r : List Char) :
    skipBlank (c :: r) = c :: r :=
  List.dropWhile_cons_of_neg (by simp [h.notBlank])

/-! ## Numbers -/

/-- A text that reads as a number, whatever follows that cannot continue it. -/
inductive ReadsNumber : List Char → Numeral → Prop where
  | negative {r : List Char} {n : Numeral} (h : readNumber true r = .ok (n, [])) :
      ReadsNumber ('-' :: r) n
  | positive {c : Char} {r : List Char} {n : Numeral} (hdigit : c.isDigit = true)
      (h : readNumber false (c :: r) = .ok (n, [])) : ReadsNumber (c :: r) n

theorem readValue_digit {c : Char} (h : c.isDigit = true) (fuel : Nat) (r : List Char) :
    readValue (fuel + 1) (c :: r) = leaf (readNumber false (c :: r)) := by
  rw [readValue, skipBlank_of_opens (.of_isDigit h)]
  have hne := fun d hd => isDigit_ne (d := d) h hd
  split <;> simp_all

theorem readValue_minus (fuel : Nat) (r : List Char) :
    readValue (fuel + 1) ('-' :: r) = leaf (readNumber true r) := by
  rw [readValue, skipBlank_of_opens opensValue_minus]
  rfl

theorem ReadsNumber.readValue {cs rest : List Char} {n : Numeral} (h : ReadsNumber cs n)
    (hrest : EndsNumber rest) (fuel : Nat) :
    Json.readValue (fuel + 1) (cs ++ rest) = (.num n, some rest) := by
  cases h with
  | negative h =>
    have hread := readNumber_append hrest h
    rw [List.nil_append] at hread
    rw [List.cons_append, readValue_minus, hread, leaf]
  | positive hdigit h =>
    have hread := readNumber_append hrest h
    rw [List.nil_append] at hread
    rw [List.cons_append, readValue_digit hdigit, ← List.cons_append, hread, leaf]

theorem ReadsNumber.opens {cs : List Char} {n : Numeral} (h : ReadsNumber cs n) :
    ∃ c r, cs = c :: r ∧ OpensValue c := by
  cases h with
  | negative h => exact ⟨_, _, rfl, opensValue_minus⟩
  | positive hdigit h => exact ⟨_, _, rfl, .of_isDigit hdigit⟩

/-! ## Strings -/

/-- The texts of a character of a string: itself, if it is plain, and its escapes. With `pairs`, a
character beyond 16 bits may be a pair of surrogates. -/
inductive CharText (pairs : Bool) : Char → List Char → Prop where
  | plain {c : Char} (h : isPlain c = true) : CharText pairs c [c]
  | quote : CharText pairs '"' ['\\', '"']
  | backslash : CharText pairs '\\' ['\\', '\\']
  | slash : CharText pairs '/' ['\\', '/']
  | backspace : CharText pairs '\x08' ['\\', 'b']
  | formFeed : CharText pairs '\x0c' ['\\', 'f']
  | newline : CharText pairs '\n' ['\\', 'n']
  | carriageReturn : CharText pairs '\r' ['\\', 'r']
  | tab : CharText pairs '\t' ['\\', 't']
  | unit {c : Char} {ds : List Char} (h : HexDigits 4 c.toNat ds) :
      CharText pairs c ('\\' :: 'u' :: ds)
  | pair {c : Char} {high low : Nat} {hs ls : List Char} (hpairs : pairs = true)
      (hhigh : 0xD800 ≤ high ∧ high ≤ 0xDBFF) (hlow : 0xDC00 ≤ low ∧ low ≤ 0xDFFF)
      (hs4 : HexDigits 4 high hs) (ls4 : HexDigits 4 low ls)
      (hc : c.toNat = (high - 0xD800) * 1024 + (low - 0xDC00) + 0x10000) :
      CharText pairs c ('\\' :: 'u' :: (hs ++ '\\' :: 'u' :: ls))

theorem CharText.withPairs {pairs : Bool} {c : Char} {cs : List Char} (h : CharText pairs c cs) :
    CharText true c cs := by
  cases h with
  | plain h => exact .plain h
  | unit h => exact .unit h
  | pair _ hhigh hlow hs ls hc => exact .pair rfl hhigh hlow hs ls hc
  | _ => constructor

theorem readHex4_of_hexDigits {n : Nat} {ds : List Char} (h : HexDigits 4 n ds) (rest : List Char) :
    readHex4 (ds ++ rest) = .ok (n, rest) := by
  obtain ⟨hlength, values, hdigits, rfl⟩ := h
  obtain ⟨a, b, c, d, rfl⟩ : ∃ a b c d, ds = [a, b, c, d] := by
    match ds, hlength with
    | [a, b, c, d], _ => exact ⟨a, b, c, d, rfl⟩
  cases hdigits with
  | @cons _ va _ _ ha hdigits => cases hdigits with
    | @cons _ vb _ _ hb hdigits => cases hdigits with
      | @cons _ vc _ _ hc hdigits => cases hdigits with
        | @cons _ vd _ _ hd hdigits =>
          cases hdigits
          simp only [List.cons_append, List.nil_append, readHex4, hexValue?_of_lower ha.1 ha.2,
            hexValue?_of_lower hb.1 hb.2, hexValue?_of_lower hc.1 hc.2,
            hexValue?_of_lower hd.1 hd.2, List.foldl_cons, List.foldl_nil, Nat.zero_mul,
            Nat.zero_add]

/-- A character of a string stands for itself, or it is written as an escape that reads back. -/
theorem CharText.cases {pairs : Bool} {c : Char} {cs : List Char} (h : CharText pairs c cs) :
    isPlain c = true ∧ cs = [c] ∨
      ∃ e, cs = '\\' :: e ∧ ∀ rest, readEscape (e ++ rest) = .ok (.char c, rest) := by
  cases h with
  | plain h => exact .inl ⟨h, rfl⟩
  | unit h =>
    have hvalid : c.toNat < 0xD800 ∨ 0xDFFF < c.toNat ∧ c.toNat < 0x110000 := c.valid
    refine .inr ⟨_, rfl, fun rest => ?_⟩
    simp only [List.cons_append, readEscape, readUnicode, readHex4_of_hexDigits h, bind,
      Except.bind]
    rw [if_neg (by omega), if_neg (by omega), Char.ofNat_toNat]
    rfl
  | @pair _ high low hs ls _ hhigh hlow hs4 ls4 hc =>
    refine .inr ⟨_, rfl, fun rest => ?_⟩
    have htext : hs ++ '\\' :: 'u' :: ls ++ rest = hs ++ '\\' :: 'u' :: (ls ++ rest) := by simp
    simp only [List.cons_append, readEscape, readUnicode, htext, readHex4_of_hexDigits hs4, bind,
      Except.bind]
    rw [if_neg (by omega), if_pos hhigh]
    simp only [readHex4_of_hexDigits ls4]
    rw [if_pos hlow, ← hc, Char.ofNat_toNat]
    rfl
  | _ => exact .inr ⟨_, rfl, fun _ => rfl⟩

/-- A character that stands for itself comes in front of what is read behind it. -/
theorem readString_plain {c : Char} (h : isPlain c = true) {fuel : Nat} {cs s rest : List Char}
    (hread : readString (fuel + 1) cs = .ok ⟨s, none, rest⟩) :
    readString (fuel + 1) (c :: cs) = .ok ⟨c :: s, none, rest⟩ := by
  unfold readString at hread ⊢
  rw [List.takeWhile_cons_of_pos h, List.dropWhile_cons_of_pos h]
  cases hrun : cs.dropWhile isPlain with
  | nil => simp [hrun] at hread
  | cons d rest' =>
    simp only [hrun] at hread ⊢
    split at hread
    · rename_i hd
      rw [if_pos hd]
      cases hread
      rfl
    split at hread
    · rename_i hquote hd
      rw [if_neg hquote, if_pos hd]
      split at hread
      · cases hread
      split at hread
      · cases hread
      -- An escape that names no character would be a flaw of the string.
      split at hread
      · simp only [Except.ok.injEq, StringToken.mk.injEq] at hread ⊢
        obtain ⟨rfl, hflaw, hrest⟩ := hread
        exact ⟨rfl, hflaw, hrest⟩
      · cases hread
    · cases hread

/-- A string reads back up to its closing quote. -/
theorem readString_pieces {pairs : Bool} {s : List Char} {pieces : List (List Char)}
    (h : List.Forall₂ (CharText pairs) s pieces) (rest : List Char) {fuel : Nat}
    (hfuel : pieces.flatten.length < fuel) :
    readString fuel (pieces.flatten ++ '"' :: rest) = .ok ⟨s, none, rest⟩ := by
  induction h generalizing fuel with
  | nil =>
    obtain ⟨fuel, rfl⟩ := Nat.exists_eq_add_one_of_ne_zero (Nat.ne_of_gt hfuel)
    rfl
  | @cons c piece s pieces hc _ ih =>
    obtain ⟨fuel, rfl⟩ := Nat.exists_eq_add_one_of_ne_zero (n := fuel) (by omega)
    rw [List.flatten_cons, List.append_assoc]
    rw [List.flatten_cons, List.length_append] at hfuel
    obtain ⟨hplain, rfl⟩ | ⟨e, rfl, hread⟩ := hc.cases
    · rw [List.length_singleton] at hfuel
      exact readString_plain hplain (ih (by omega))
    · rw [List.length_cons] at hfuel
      have hrest : readString fuel (pieces.flatten ++ '"' :: rest) = .ok ⟨s, none, rest⟩ :=
        ih (by omega)
      rw [List.cons_append, readString]
      simp only [show isPlain '\\' = false from rfl, List.takeWhile_cons_of_neg,
        List.dropWhile_cons_of_neg, Bool.false_eq_true, not_false_eq_true, hread, hrest]
      rfl

/-! ## The dialect -/

/-- The texts of a number. -/
inductive NumberText : Value → List Char → Prop where
  | int {n : Int} {cs : List Char} (h : ReadsNumber cs (.int n)) : NumberText (.int n) cs
  | float {f : Float} {cs : List Char} (h : ReadsNumber cs (.float f)) : NumberText (.float f) cs

/-- The texts of a string. -/
inductive StringText (pairs : Bool) : Value → List Char → Prop where
  | str {s : String} {cs : List Char} (h : Quoted '"' (CharText pairs) s.toList cs) :
      StringText pairs (.str s) cs

theorem StringText.withPairs {pairs : Bool} {v : Value} {cs : List Char}
    (h : StringText pairs v cs) : StringText true v cs := by
  cases h with
  | str h =>
    obtain ⟨pieces, hpieces, hcs⟩ := h
    exact .str ⟨pieces, hpieces.imp fun _ _ => CharText.withPairs, hcs⟩

/-- The texts of a value without parts. -/
inductive ScalarText : Value → List Char → Prop where
  | null : ScalarText .null "null".toList
  | true : ScalarText (.bool true) "true".toList
  | false : ScalarText (.bool false) "false".toList
  | number {v : Value} {cs : List Char} (h : NumberText v cs) : ScalarText v cs
  | string {v : Value} {cs : List Char} (h : StringText true v cs) : ScalarText v cs

theorem NumberText.nesting {v : Value} {cs : List Char} (h : NumberText v cs) : v.nesting = 0 := by
  cases h <;> rfl

theorem StringText.nesting {pairs : Bool} {v : Value} {cs : List Char}
    (h : StringText pairs v cs) : v.nesting = 0 := by
  cases h
  rfl

/-- The dialect of JSON. -/
def dialect : Dialect where
  blank := isJsonBlank
  scalar := ScalarText
  tuples := false
  trailing := false
  nesting_of_scalar h := by
    cases h with
    | number h => exact h.nesting
    | string h => exact h.nesting
    | _ => rfl

/-! ## Scalars -/

theorem readWord_append (ws rest : List Char) (d : Doc) :
    readWord ws d (ws ++ rest) = (d, some rest) := by
  induction ws with
  | nil => rfl
  | cons w ws ih => rw [List.cons_append, readWord, if_pos rfl, ih]

theorem opensValue_quote : OpensValue '"' := ⟨by decide, by decide, by decide⟩

/-- A string is read behind its opening quote. -/
theorem StringText.readString {pairs : Bool} {s : String} {cs : List Char}
    (h : StringText pairs (.str s) cs) (rest : List Char) :
    ∃ r, cs = '"' :: r ∧
      Json.readString ((r ++ rest).length + 1) (r ++ rest) = .ok ⟨s.toList, none, rest⟩ := by
  obtain ⟨pieces, hpieces, rfl⟩ := h
  refine ⟨_, rfl, ?_⟩
  rw [List.append_assoc, List.singleton_append]
  refine readString_pieces hpieces rest ?_
  rw [List.length_append]
  omega

theorem StringText.readValue {pairs : Bool} {s : String} {cs : List Char}
    (h : StringText pairs (.str s) cs) (fuel : Nat) (rest : List Char) :
    Json.readValue (fuel + 1) (cs ++ rest) = (.str s none, some rest) := by
  obtain ⟨r, rfl, hstring⟩ := h.readString rest
  rw [List.cons_append, Json.readValue, skipBlank_of_opens opensValue_quote]
  simp only [hstring, String.ofList_toList]

theorem ScalarText.opens {v : Value} {cs : List Char} (h : ScalarText v cs) :
    ∃ c r, cs = c :: r ∧ OpensValue c := by
  cases h with
  | null => exact ⟨_, _, rfl, by decide, by decide, by decide⟩
  | true => exact ⟨_, _, rfl, by decide, by decide, by decide⟩
  | false => exact ⟨_, _, rfl, by decide, by decide, by decide⟩
  | number h =>
    cases h with
    | int h => exact h.opens
    | float h => exact h.opens
  | string h =>
    obtain ⟨pieces, -, rfl⟩ := h
    exact ⟨_, _, rfl, opensValue_quote⟩

theorem ScalarText.readValue {v : Value} {cs : List Char} (h : ScalarText v cs) (fuel : Nat)
    {rest : List Char} (hrest : EndsNumber rest) :
    Json.readValue (fuel + 1) (cs ++ rest) = (Doc.ofValue v, some rest) := by
  cases h with
  | null => exact readWord_append ['u', 'l', 'l'] rest .null
  | true => exact readWord_append ['r', 'u', 'e'] rest (.bool Bool.true)
  | false => exact readWord_append ['a', 'l', 's', 'e'] rest (.bool Bool.false)
  | number h =>
    cases h with
    | int h => exact h.readValue hrest fuel
    | float h => exact h.readValue hrest fuel
  | string h =>
    cases h with
    | str h => exact StringText.readValue (.str h) fuel rest

/-! ## Containers -/

theorem readValue_bracket (fuel : Nat) (r : List Char) :
    readValue (fuel + 1) ('[' :: r) =
      (.arr (readItems fuel true r).1 (readItems fuel true r).2.1,
        (readItems fuel true r).2.2) := by
  rw [readValue, skipBlank_of_opens ⟨by decide, by decide, by decide⟩]
  rfl

theorem readValue_brace (fuel : Nat) (r : List Char) :
    readValue (fuel + 1) ('{' :: r) =
      (.obj (readFields fuel true r).1 (readFields fuel true r).2.1,
        (readFields fuel true r).2.2) := by
  rw [readValue, skipBlank_of_opens ⟨by decide, by decide, by decide⟩]
  rfl

/-! ### Blanks -/

section Blanks

variable {bs : List Char}

theorem skipBlank_blank (h : ∀ c ∈ bs, isJsonBlank c = true) (cs : List Char) :
    skipBlank (bs ++ cs) = skipBlank cs := List.dropWhile_append_of_pos h

theorem readValue_blank (h : ∀ c ∈ bs, isJsonBlank c = true) (fuel : Nat) (cs : List Char) :
    readValue (fuel + 1) (bs ++ cs) = readValue (fuel + 1) cs := by
  simp only [readValue, skipBlank_blank h]

theorem readItems_blank (h : ∀ c ∈ bs, isJsonBlank c = true) (fuel : Nat) (first : Bool)
    (cs : List Char) : readItems (fuel + 1) first (bs ++ cs) = readItems (fuel + 1) first cs := by
  simp only [readItems, skipBlank_blank h]

theorem readFields_blank (h : ∀ c ∈ bs, isJsonBlank c = true) (fuel : Nat) (first : Bool)
    (cs : List Char) :
    readFields (fuel + 1) first (bs ++ cs) = readFields (fuel + 1) first cs := by
  simp only [readFields, skipBlank_blank h]

/-- Blanks do not continue a number. -/
theorem EndsNumber.blank (h : ∀ c ∈ bs, isJsonBlank c = true) {rest : List Char}
    (hrest : EndsNumber rest) : EndsNumber (bs ++ rest) := by
  cases bs with
  | nil => exact hrest
  | cons c bs =>
    have hc := h c List.mem_cons_self
    simp only [isJsonBlank, Bool.or_eq_true, beq_iff_eq] at hc
    rcases hc with ((rfl | rfl) | rfl) | rfl
    all_goals exact .cons rfl (by decide) (by decide) (by decide)

end Blanks

theorem endsNumber_bracket (rest : List Char) : EndsNumber (']' :: rest) :=
  .cons rfl (by decide) (by decide) (by decide)

theorem endsNumber_brace (rest : List Char) : EndsNumber ('}' :: rest) :=
  .cons rfl (by decide) (by decide) (by decide)

/-! ### Lists -/

/-- What the reader makes of the text of a value. -/
structure ReadsPart (v : Value) (cs : List Char) : Prop where
  opens : ∃ c r, cs = c :: r ∧ OpensValue c
  read : ∀ fuel rest, 3 * cs.length ≤ fuel → EndsNumber rest →
    readValue fuel (cs ++ rest) = (Doc.ofValue v, some rest)

section Items

variable {bs : List Char} (hbs : ∀ c ∈ bs, isJsonBlank c = true) {cs : List Char}
include hbs

theorem readItems_first (h : ∃ c r, cs = c :: r ∧ OpensValue c) (fuel : Nat) (rest : List Char) :
    readItems (fuel + 1) true (bs ++ (cs ++ rest)) = readItem fuel (cs ++ rest) := by
  obtain ⟨c, r, rfl, hopens⟩ := h
  rw [readItems_blank hbs, List.cons_append, readItems, skipBlank_of_opens hopens]
  simp [hopens.notBracket]

theorem readItems_comma (h : ∃ c r, cs = c :: r ∧ OpensValue c) (fuel : Nat) (rest : List Char) :
    readItems (fuel + 1) false (',' :: (bs ++ (cs ++ rest))) = readItem fuel (cs ++ rest) := by
  obtain ⟨c, r, rfl, hopens⟩ := h
  have hcomma : ∀ r, skipBlank (',' :: r) = ',' :: r := fun r =>
    List.dropWhile_cons_of_neg (by decide)
  rw [readItems, hcomma]
  simp only [skipBlank_blank hbs, List.cons_append, skipBlank_of_opens hopens]
  rw [if_neg (by decide), if_pos (by decide)]
  split
  · rename_i heq
    cases heq
  · rename_i heq
    cases heq
    exact absurd rfl hopens.notBracket
  · rfl

theorem readItems_end (fuel : Nat) (first : Bool) (rest : List Char) :
    readItems (fuel + 1) first (bs ++ ']' :: rest) = ([], none, some rest) := by
  rw [readItems_blank hbs]
  rfl

end Items

theorem readItem_eq {fuel : Nat} {cs tail rest : List Char} {d : Doc} {ds : List Doc}
    (hvalue : readValue fuel cs = (d, some tail))
    (hitems : readItems fuel false tail = (ds, none, some rest)) :
    readItem (fuel + 1) cs = (d :: ds, none, some rest) := by
  rw [readItem, hvalue]
  simp only [hitems]

/-- The items of a list are read behind its bracket; and they are read behind a comma, unless there
are none. -/
theorem readItems_listed {vs : List Value} {cs : List Char}
    (h : dialect.Listed ']' ReadsPart vs cs) (fuel : Nat) (hfuel : 3 * cs.length + 2 ≤ fuel)
    (rest : List Char) :
    readItems fuel true (cs ++ rest) = (docItems vs, none, some rest) ∧
      (vs ≠ [] → readItems fuel false (',' :: (cs ++ rest)) = (docItems vs, none, some rest)) := by
  obtain ⟨fuel, rfl⟩ := Nat.exists_eq_add_one_of_ne_zero (n := fuel) (by omega)
  obtain ⟨fuel, rfl⟩ := Nat.exists_eq_add_one_of_ne_zero (n := fuel) (by omega)
  induction h generalizing fuel with
  | nil hbs =>
    rw [List.append_assoc, List.singleton_append]
    exact ⟨readItems_end hbs _ _ _, fun h => absurd rfl h⟩
  | @last v bs cs bs' hbs hv hbs' =>
    simp only [List.length_append, List.length_singleton] at hfuel
    obtain ⟨fuel, rfl⟩ := Nat.exists_eq_add_one_of_ne_zero (n := fuel) (by omega)
    have hvalue := hv.read (fuel + 1) (bs' ++ ']' :: rest) (by omega)
      ((endsNumber_bracket rest).blank hbs')
    have hitem := readItem_eq hvalue (readItems_end hbs' fuel false rest)
    simp only [List.append_assoc, List.singleton_append]
    exact ⟨(readItems_first hbs hv.opens _ _).trans hitem,
      fun _ => (readItems_comma hbs hv.opens _ _).trans hitem⟩
  | @cons v vs bs cs bs' more hbs hv hbs' hmore htrailing ih =>
    simp only [List.length_append, List.length_cons] at hfuel
    obtain ⟨fuel, rfl⟩ := Nat.exists_eq_add_one_of_ne_zero (n := fuel) (by omega)
    obtain ⟨fuel, rfl⟩ := Nat.exists_eq_add_one_of_ne_zero (n := fuel) (by omega)
    have hne : vs ≠ [] := fun h => Bool.false_ne_true (htrailing h)
    have hvalue := hv.read (fuel + 2) (bs' ++ ',' :: (more ++ rest)) (by omega)
      (EndsNumber.blank hbs' (.cons rfl (by decide) (by decide) (by decide)))
    have hitems := (readItems_blank hbs' (fuel + 1) false _).trans ((ih fuel (by omega)).2 hne)
    have hitem := readItem_eq hvalue hitems
    simp only [List.append_assoc, List.cons_append]
    exact ⟨(readItems_first hbs hv.opens _ _).trans hitem,
      fun _ => (readItems_comma hbs hv.opens _ _).trans hitem⟩

/-! ### Objects -/

section Fields

variable {bs : List Char} (hbs : ∀ c ∈ bs, isJsonBlank c = true)
include hbs

theorem readFields_first (fuel : Nat) (r : List Char) :
    readFields (fuel + 1) true (bs ++ '"' :: r) = readField fuel ('"' :: r) := by
  rw [readFields_blank hbs]
  rfl

theorem readFields_comma (fuel : Nat) (r : List Char) :
    readFields (fuel + 1) false (',' :: (bs ++ '"' :: r)) = readField fuel ('"' :: r) := by
  have hcomma : ∀ r, skipBlank (',' :: r) = ',' :: r := fun r =>
    List.dropWhile_cons_of_neg (by decide)
  have hkey : skipBlank ('"' :: r) = '"' :: r := skipBlank_of_opens opensValue_quote _
  rw [readFields, hcomma]
  simp only [skipBlank_blank hbs, hkey]
  rfl

theorem readFields_end (fuel : Nat) (first : Bool) (rest : List Char) :
    readFields (fuel + 1) first (bs ++ '}' :: rest) = ([], none, some rest) := by
  rw [readFields_blank hbs]
  rfl

theorem readField_eq {k : String} {r cs tail rest : List Char} {d : Doc}
    {fields : List (String × Option Fault × Doc)} {fuel : Nat}
    (hkey : readString (r.length + 1) r = .ok ⟨k.toList, none, bs ++ ':' :: cs⟩)
    (hvalue : readValue fuel cs = (d, some tail))
    (hfields : readFields fuel false tail = (fields, none, some rest)) :
    readField (fuel + 1) ('"' :: r) = ((k, none, d) :: fields, none, some rest) := by
  have hcolon : skipBlank (':' :: cs) = ':' :: cs := List.dropWhile_cons_of_neg (by decide)
  rw [readField]
  simp only [hkey, skipBlank_blank hbs, hcolon, hvalue, hfields, String.ofList_toList]

end Fields

theorem ScalarText.stringText {k : String} {ks : List Char} (h : ScalarText (.str k) ks) :
    StringText Bool.true (.str k) ks := by
  cases h with
  | number h => cases h
  | string h => exact h

/-- The same of the members of an object. -/
theorem readFields_listed {kvs : List (String × Value)} {cs : List Char}
    (h : dialect.Listed '}' (dialect.Member ReadsPart) kvs cs) (fuel : Nat)
    (hfuel : 3 * cs.length + 2 ≤ fuel) (rest : List Char) :
    readFields fuel true (cs ++ rest) = (docFields kvs, none, some rest) ∧
      (kvs ≠ [] →
        readFields fuel false (',' :: (cs ++ rest)) = (docFields kvs, none, some rest)) := by
  obtain ⟨fuel, rfl⟩ := Nat.exists_eq_add_one_of_ne_zero (n := fuel) (by omega)
  obtain ⟨fuel, rfl⟩ := Nat.exists_eq_add_one_of_ne_zero (n := fuel) (by omega)
  induction h generalizing fuel with
  | nil hbs =>
    rw [List.append_assoc, List.singleton_append]
    exact ⟨readFields_end hbs _ _ _, fun h => absurd rfl h⟩
  | @last kv bs cs bs' hbs hkv hbs' =>
    obtain @⟨k, v, ks, bsk, bsv, cs, hk, hbsk, hbsv, hv⟩ := hkv
    simp only [List.length_append, List.length_cons, List.length_nil] at hfuel
    obtain ⟨fuel, rfl⟩ := Nat.exists_eq_add_one_of_ne_zero (n := fuel) (by omega)
    obtain ⟨r, rfl, hkey⟩ := hk.stringText.readString
      (bsk ++ ':' :: (bsv ++ (cs ++ (bs' ++ '}' :: rest))))
    have hvalue := (readValue_blank hbsv fuel _).trans
      (hv.read (fuel + 1) (bs' ++ '}' :: rest) (by omega) ((endsNumber_brace rest).blank hbs'))
    have hfield := readField_eq hbsk hkey hvalue (readFields_end hbs' fuel false rest)
    simp only [List.append_assoc, List.cons_append, List.nil_append]
    refine ⟨(readFields_first hbs _ _).trans hfield, fun _ => ?_⟩
    exact (readFields_comma hbs _ _).trans hfield
  | @cons kv kvs bs cs bs' more hbs hkv hbs' hmore htrailing ih =>
    obtain @⟨k, v, ks, bsk, bsv, cs, hk, hbsk, hbsv, hv⟩ := hkv
    simp only [List.length_append, List.length_cons] at hfuel
    obtain ⟨fuel, rfl⟩ := Nat.exists_eq_add_one_of_ne_zero (n := fuel) (by omega)
    obtain ⟨fuel, rfl⟩ := Nat.exists_eq_add_one_of_ne_zero (n := fuel) (by omega)
    have hne : kvs ≠ [] := fun h => Bool.false_ne_true (htrailing h)
    obtain ⟨r, rfl, hkey⟩ := hk.stringText.readString
      (bsk ++ ':' :: (bsv ++ (cs ++ (bs' ++ ',' :: (more ++ rest)))))
    have hvalue := (readValue_blank hbsv (fuel + 1) _).trans
      (hv.read (fuel + 2) (bs' ++ ',' :: (more ++ rest)) (by omega)
        (EndsNumber.blank hbs' (.cons rfl (by decide) (by decide) (by decide))))
    have hfields := (readFields_blank hbs' (fuel + 1) false _).trans ((ih fuel (by omega)).2 hne)
    have hfield := readField_eq hbsk hkey hvalue hfields
    simp only [List.append_assoc, List.cons_append]
    refine ⟨(readFields_first hbs _ _).trans hfield, fun _ => ?_⟩
    exact (readFields_comma hbs _ _).trans hfield

/-! ## Values -/

/-- **Every text of a value reads as its tree** in front of anything that cannot continue a
number, with three steps for each of its characters. -/
theorem readValue_spelt {v : Value} {cs : List Char} (h : dialect.Spelt v cs) : ReadsPart v cs := by
  induction v using Value.induction generalizing cs with
  | leaf v hleaf =>
    cases h with
    | scalar h =>
      refine ⟨ScalarText.opens h, fun fuel rest hfuel hrest => ?_⟩
      obtain ⟨c, r, rfl, -⟩ := ScalarText.opens h
      rw [List.length_cons] at hfuel
      obtain ⟨fuel, rfl⟩ := Nat.exists_eq_add_one_of_ne_zero (n := fuel) (by omega)
      exact ScalarText.readValue h fuel hrest
    | _ => cases hleaf
  | arr vs ih =>
    cases h with
    | scalar h => cases dialect.nesting_of_scalar h
    | tuple htuples => cases htuples
    | list h =>
      refine ⟨⟨'[', _, rfl, by decide, by decide, by decide⟩, fun fuel rest hfuel _ => ?_⟩
      rw [List.length_cons] at hfuel
      obtain ⟨fuel, rfl⟩ := Nat.exists_eq_add_one_of_ne_zero (n := fuel) (by omega)
      have hitems := (readItems_listed (h.imp ih) fuel (by omega) rest).1
      rw [List.cons_append, readValue_bracket, hitems]
      rfl
  | obj kvs ih =>
    cases h with
    | scalar h => cases dialect.nesting_of_scalar h
    | mapping h =>
      refine ⟨⟨'{', _, rfl, by decide, by decide, by decide⟩, fun fuel rest hfuel _ => ?_⟩
      rw [List.length_cons] at hfuel
      obtain ⟨fuel, rfl⟩ := Nat.exists_eq_add_one_of_ne_zero (n := fuel) (by omega)
      have hparts := h.imp fun kv hkv _ => Dialect.Member.imp fun _ => ih kv hkv
      have hfields := (readFields_listed hparts fuel (by omega) rest).1
      rw [List.cons_append, readValue_brace, hfields]
      rfl

/-- The same of a whole text; anything but blanks behind it is surplus. -/
theorem Doc.read_spelt {v : Value} {cs bs rest : List Char} (h : dialect.Spelt v cs)
    (hbs : ∀ c ∈ bs, isJsonBlank c = true) (hrest : EndsNumber rest) :
    Doc.read (String.ofList (bs ++ (cs ++ rest))) =
      (Doc.ofValue v, if (skipBlank rest).isEmpty then none else some .trailingCharacters) := by
  have hfuel : 3 * (bs ++ (cs ++ rest)).length + 3 = 3 * (bs ++ (cs ++ rest)).length + 2 + 1 := rfl
  have hread := (readValue_spelt h).read (3 * (bs ++ (cs ++ rest)).length + 2 + 1) rest
    (by simp only [List.length_append]; omega) hrest
  rw [Doc.read, String.toList_ofList]
  simp only [hfuel, readValue_blank hbs, hread]

theorem Doc.read_spelt_alone {v : Value} {cs : List Char} (h : dialect.Spelt v cs) :
    Doc.read (String.ofList cs) = (Doc.ofValue v, none) := by
  have hread := Doc.read_spelt h dialect.blank_nil EndsNumber.nil
  rwa [List.nil_append, List.append_nil] at hread

end Enclave.Json
