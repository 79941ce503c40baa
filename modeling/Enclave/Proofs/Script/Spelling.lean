import Enclave.Proofs.Script.Reading
import Enclave.Run.Output

/-!
# The dialect of literals

How a value may be written in a literal: `None`, `True` and `False`, integers by their digits,
strings in either kind of quotes with any mix of plain characters and escapes, lists also in
parentheses, blanks of any kind around every part, and a comma behind the last part where there is
one. `readLiteral_spelt` says that every such text reads as its value, or is refused for its depth.
-/

namespace Enclave.Script.Literal

open Json (Value Dialect Quoted HexDigits)

/-! ## The dialect -/

/-- The texts of a character between quotes: itself, unless it is the quote or a backslash, and its
escapes. -/
inductive CharText (quote : Char) : Char → List Char → Prop where
  | plain {c : Char} (hquote : c ≠ quote) (hback : c ≠ '\\') : CharText quote c [c]
  | backslash : CharText quote '\\' ['\\', '\\']
  | single : CharText quote '\'' ['\\', '\'']
  | double : CharText quote '"' ['\\', '"']
  | newline : CharText quote '\n' ['\\', 'n']
  | carriageReturn : CharText quote '\r' ['\\', 'r']
  | tab : CharText quote '\t' ['\\', 't']
  | hex2 {c : Char} {ds : List Char} (h : HexDigits 2 c.toNat ds) :
      CharText quote c ('\\' :: 'x' :: ds)
  | hex4 {c : Char} {ds : List Char} (h : HexDigits 4 c.toNat ds) :
      CharText quote c ('\\' :: 'u' :: ds)
  | hex8 {c : Char} {ds : List Char} (h : HexDigits 8 c.toNat ds) :
      CharText quote c ('\\' :: 'U' :: ds)

/-- The texts of a value without parts. Its integers fit into signed words. -/
inductive ScalarText : Value → List Char → Prop where
  | none : ScalarText .null "None".toList
  | true : ScalarText (.bool true) "True".toList
  | false : ScalarText (.bool false) "False".toList
  | int {n : Int} (h : -(2 ^ 63) ≤ n ∧ n < 2 ^ 63) : ScalarText (.int n) (Decimal.intText n).toList
  | str {s : String} {quote : Char} {cs : List Char} (hquote : quote = '\'' ∨ quote = '"')
      (h : Quoted quote (CharText quote) s.toList cs) : ScalarText (.str s) cs

/-- The dialect of literals. -/
def dialect : Dialect where
  blank := Text.isBlank
  scalar := ScalarText
  tuples := true
  trailing := true
  nesting_of_scalar h := by cases h <;> rfl

/-! ## Strings -/

/-- Digits of a number are read as the number. -/
theorem hexNumber?_of_hexDigits {digits n : Nat} {ds : List Char}
    (h : HexDigits (digits + 1) n ds) : hexNumber? ds = some n := by
  obtain ⟨hlength, values, hdigits, rfl⟩ := h
  have hne : ds.isEmpty = false := by
    cases ds with
    | nil => cases hlength
    | cons c ds => rfl
  rw [hexNumber?, hne, if_neg Bool.false_ne_true]
  clear hlength hne
  -- Any number may have been read in front of the digits.
  generalize 0 = acc
  induction hdigits generalizing acc with
  | nil => rfl
  | @cons c v ds values hc _ ih =>
    have hvalue : hexValue? c = some v := Json.hexValue?_of_lower hc.1 hc.2
    rw [List.foldl_cons, List.foldl_cons, hvalue]
    exact ih (acc * 16 + v)

/-- An escape with the digits of a character is read as the character. -/
theorem hexEscape_of_hexDigits {digits : Nat} {c : Char} {ds : List Char}
    (h : HexDigits (digits + 1) c.toNat ds) (rest : List Char) :
    hexEscape (digits + 1) (ds ++ rest) = .ok (c, rest) := by
  have hnumber := hexNumber?_of_hexDigits h
  obtain ⟨hlength, values, hdigits, -⟩ := h
  -- A plus sign in front would be skipped, but it is no digit.
  have hplus : ∀ r, ds ≠ '+' :: r := by
    rintro r rfl
    cases hdigits with
    | cons hc _ => cases (Json.hexValue?_of_lower hc.1 hc.2 : Json.hexValue? '+' = _)
  have hpoint : codePoint? ds = some c := by
    rw [codePoint?, hnumber]
    · simp only [show c.toNat.isValidChar from c.valid, if_true, Char.ofNat_toNat]
    · exact fun r hr => hplus r hr
  rw [hexEscape, List.take_left' hlength, List.drop_left' hlength, if_neg (by omega), hpoint]

/-- What the reader takes a piece of a string for: a character that stands for itself, or what an
escape stands for. -/
inductive ReadsPiece (quote : Char) : List Char → List Char → Prop where
  | plain {c : Char} (hquote : c ≠ quote) (hback : c ≠ '\\') : ReadsPiece quote [c] [c]
  | escaped {found e : List Char} (h : ∀ rest, escape (e ++ rest) = .ok (found, rest)) :
      ReadsPiece quote found ('\\' :: e)

/-- A character is read from each of its texts. -/
theorem CharText.readsPiece {quote c : Char} {cs : List Char} (h : CharText quote c cs) :
    ReadsPiece quote [c] cs := by
  have hhex : ∀ {letter digits ds}, HexDigits (digits + 1) c.toNat ds →
      (∀ rest, escape (letter :: rest) = (hexEscape (digits + 1) rest).map fun r => ([r.1], r.2)) →
      ∀ rest, escape ((letter :: ds) ++ rest) = .ok ([c], rest) := by
    intro letter digits ds hds hletter rest
    rw [List.cons_append, hletter, hexEscape_of_hexDigits hds]
    rfl
  cases h with
  | plain hquote hback => exact .plain hquote hback
  | hex2 hds => exact .escaped (hhex hds fun _ => rfl)
  | hex4 hds => exact .escaped (hhex hds fun _ => rfl)
  | hex8 hds => exact .escaped (hhex hds fun _ => rfl)
  | _ => exact .escaped fun _ => rfl

/-- A string is read piece by piece up to its closing quote. -/
theorem stringBehind_pieces {quote : Char} (hquote : quote ≠ '\\')
    {founds pieces : List (List Char)} (h : List.Forall₂ (ReadsPiece quote) founds pieces)
    (before rest : List Char) {fuel : Nat} (hfuel : pieces.flatten.length < fuel) :
    stringBehind quote fuel before (pieces.flatten ++ quote :: rest) =
      .ok (String.ofList (before.reverse ++ founds.flatten), rest) := by
  induction h generalizing before fuel with
  | nil =>
    obtain ⟨fuel, rfl⟩ := Nat.exists_eq_add_one_of_ne_zero (Nat.ne_of_gt hfuel)
    simp [stringBehind]
  | @cons found piece founds pieces hpiece _ ih =>
    obtain ⟨fuel, rfl⟩ := Nat.exists_eq_add_one_of_ne_zero (n := fuel) (by omega)
    have hbefore : before.reverse ++ (found :: founds).flatten =
        (found.reverse ++ before).reverse ++ founds.flatten := by simp
    rw [List.flatten_cons, List.append_assoc, hbefore]
    rw [List.flatten_cons, List.length_append] at hfuel
    cases hpiece with
    | @plain c hne hback =>
      rw [List.length_singleton] at hfuel
      rw [List.singleton_append, stringBehind, if_neg hne, if_neg hback]
      exact ih (c :: before) (by omega)
    | escaped hread =>
      rw [List.length_cons] at hfuel
      rw [List.cons_append, stringBehind, if_neg hquote.symm, if_pos rfl, hread]
      exact ih _ (by omega)

theorem readsScalar_pieces {quote : Char} (hquote : quote = '\'' ∨ quote = '"')
    {founds pieces : List (List Char)} (h : List.Forall₂ (ReadsPiece quote) founds pieces) :
    ReadsScalar (.str (String.ofList founds.flatten)) (quote :: (pieces.flatten ++ [quote])) := by
  refine readsScalar_string hquote fun rest => ?_
  have hback : quote ≠ '\\' := by rcases hquote with rfl | rfl <;> decide
  rw [List.append_assoc, List.singleton_append, string, stringBehind_pieces hback h]
  · rfl
  · rw [List.length_append]
    omega

theorem readsScalar_quoted {quote : Char} (hquote : quote = '\'' ∨ quote = '"') {s : String}
    {cs : List Char} (h : Quoted quote (CharText quote) s.toList cs) :
    ReadsScalar (.str s) cs := by
  obtain ⟨pieces, hpieces, rfl⟩ := h
  have hreads : List.Forall₂ (ReadsPiece quote) (s.toList.map fun c => [c]) pieces :=
    List.forall₂_map_left_iff.mpr (hpieces.imp fun _ _ => CharText.readsPiece)
  have hscalar := readsScalar_pieces hquote hreads
  rwa [← List.flatMap_def, List.flatMap_singleton', String.ofList_toList] at hscalar

/-! ## Values -/

theorem understands_dialect : Understands dialect where
  blank h := h
  scalar h := by
    cases h with
    | none => exact readsScalar_none
    | true => exact readsScalar_true
    | false => exact readsScalar_false
    | int h => exact readsScalar_int h
    | str hquote h => exact readsScalar_quoted hquote h

end Enclave.Script.Literal

namespace Enclave.Script

open Script.Literal (dialect maxDepth)
open Json.Dialect (Member Spelt nested nestedChars)

/-- A text of a value is read as the value, or refused for its depth at some place, in every dialect
that the reader understands. -/
theorem readLiteral_understood {d : Json.Dialect} (hd : Literal.Understands d) {v : Json.Value}
    {cs before behind : List Char} (h : d.Spelt v cs) (hbefore : ∀ c ∈ before, d.blank c = true)
    (hbehind : ∀ c ∈ behind, d.blank c = true) :
    (v.nesting ≤ maxDepth →
        readLiteral (String.ofList (before ++ (cs ++ behind))) = .ok v.canonical) ∧
      (maxDepth < v.nesting → ∃ place, readLiteral (String.ofList (before ++ (cs ++ behind))) =
        .error (.unreadable ("literal parse error at " ++ Decimal.natText place ++
          ": nesting too deep"))) := by
  obtain ⟨hdepth, hread⟩ | ⟨hdepth, place, hread⟩ := Literal.read_spelt hd h hbefore hbehind
  · refine ⟨fun _ => ?_, fun hdeep => by omega⟩
    rw [readLiteral, hread]
  · refine ⟨fun hfits => by omega, fun _ => ⟨place, ?_⟩⟩
    have hwords : ": " ++ Literal.Fault.tooDeep.message = ": nesting too deep" := rfl
    rw [readLiteral, hread]
    simp only [String.append_assoc, hwords]

/-- **Every text of a value reads as the value.** Where its containers are nested deeper than the
bound, it is refused for its depth, at some place of the text. -/
theorem readLiteral_spelt {v : Json.Value} {cs before behind : List Char} (h : dialect.Spelt v cs)
    (hbefore : ∀ c ∈ before, Text.isBlank c = true)
    (hbehind : ∀ c ∈ behind, Text.isBlank c = true) :
    (v.nesting ≤ 128 → readLiteral (String.ofList (before ++ (cs ++ behind))) = .ok v.canonical) ∧
      (128 < v.nesting → ∃ place, readLiteral (String.ofList (before ++ (cs ++ behind))) =
        .error (.unreadable ("literal parse error at " ++ Decimal.natText place ++
          ": nesting too deep"))) :=
  readLiteral_understood Literal.understands_dialect h hbefore hbehind

/-- A value with parts of every kind. -/
def mixed : Json.Value :=
  .obj [("k'", .arr [.int (-5), .str "\u00e9\n\"", .arr [.null, .bool true]]), ("", .obj [])]

/-- A text of it, with both kinds of quotes and brackets, escapes, blanks and spare commas. -/
def mixedText : String :=
  "\x7b \"k\\x27\" :\t( -5 ,'\\u00E9\\n\"', [None,\u00a0True],),'':\x7b\x7d,\n\x7d"

theorem spelt_mixed : dialect.Spelt mixed mixedText.toList := by
  have hnone := dialect.blank_nil
  have hspace : ∀ c ∈ [' '], dialect.blank c = true := List.forall_mem_singleton.mpr rfl
  have htab : ∀ c ∈ ['\t'], dialect.blank c = true := List.forall_mem_singleton.mpr rfl
  have hwide : ∀ c ∈ ['\u00a0'], dialect.blank c = true := List.forall_mem_singleton.mpr rfl
  have hline : ∀ c ∈ ['\n'], dialect.blank c = true := List.forall_mem_singleton.mpr rfl
  have hname : dialect.scalar (.str "k'") "\"k\\x27\"".toList := .str (.inr rfl)
    ⟨[['k'], "\\x27".toList], .cons (.plain (by decide) (by decide))
      (.cons (.hex2 ⟨rfl, [2, 7], by simp; decide, rfl⟩) .nil), rfl⟩
  have hempty : dialect.scalar (.str "") "''".toList := .str (.inl rfl) ⟨[], .nil, rfl⟩
  have hstring : dialect.scalar (.str "\u00e9\n\"") "'\\u00E9\\n\"'".toList := .str (.inl rfl)
    ⟨["\\u00E9".toList, "\\n".toList, ['"']],
      .cons (.hex4 ⟨rfl, [0, 0, 14, 9], by simp; decide, rfl⟩)
        (.cons .newline (.cons (.plain (by decide) (by decide)) .nil)), rfl⟩
  have hfive : dialect.Spelt (.int (-5)) "-5".toList := .scalar (.int (by decide))
  have hlist := Spelt.list (.cons hnone (.scalar .none) hnone
    (.last hwide (.scalar .true) hnone) (by simp))
  have htuple := Spelt.tuple rfl (.cons hspace hfive hspace (.cons hnone (.scalar hstring) hnone
    (.cons hspace hlist hnone (.nil hnone) fun _ => rfl) (by simp)) (by simp))
  have hfirst := Member.mk hname hspace htab htuple
  have hsecond := Member.mk hempty hnone hnone (Spelt.mapping (.nil hnone))
  exact .mapping (.cons hspace hfirst hnone
    (.cons hnone hsecond hnone (.nil hline) fun _ => rfl) (by simp))

/-- The text reads as the value, and 129 lists inside each other are too many. -/
theorem readLiteral_spelt_mixed :
    (dialect.Spelt mixed mixedText.toList ∧ (∀ c ∈ [' '], Text.isBlank c = true) ∧
      mixed.nesting ≤ 128 ∧
      readLiteral (String.ofList ([' '] ++ (mixedText.toList ++ [' ']))) = .ok mixed.canonical) ∧
    dialect.Spelt (nested 128) (nestedChars 128) ∧
      128 < (nested 128).nesting ∧
      ∃ place, readLiteral (String.ofList ([' '] ++ (nestedChars 128 ++ [' ']))) =
        .error (.unreadable ("literal parse error at " ++ Decimal.natText place ++
          ": nesting too deep")) := by
  have hspace : ∀ c ∈ [' '], Text.isBlank c = true := List.forall_mem_singleton.mpr rfl
  have hdeep : 128 < (nested 128).nesting := by
    rw [Json.Dialect.nesting_nested]
    decide
  have hnested := dialect.spelt_nested 128
  exact ⟨⟨spelt_mixed, hspace, by decide,
      (readLiteral_spelt spelt_mixed hspace hspace).1 (by decide)⟩,
    hnested, hdeep, (readLiteral_spelt hnested hspace hspace).2 hdeep⟩

end Enclave.Script
