import Enclave.Proofs.Decimal.Numeral
import Enclave.Proofs.Plan.Statement
import Enclave.Proofs.Sql.Outline
import Enclave.Proofs.Sql.Spelling

/-!
# Statements of plans before the first pass

Everything in the statement of a plan that does not come from its names and its texts is let through
by the first pass. `Screens cs names texts` says that the characters `cs` are let through in front
of a blank, a bracket, a comma or the end exactly if the names and the texts quoted in them are
clean, and no name is that of a denied function. The statement is put together from such pieces as
it was from its parts.
-/

namespace Enclave

open Sql

/-! ## The names and the texts of a plan -/

/-- The texts of a literal. -/
def Literal.texts : Literal → List String
  | .text s => [s]
  | _ => []

/-- The columns that a condition is about. -/
def Condition.columns : Condition → List String
  | .compare name _ _ | .isNull name | .isNotNull name => [name]
  | .all parts => parts.flatMap fun p => Condition.columns p
  | .any parts => parts.flatMap fun p => Condition.columns p
  | .not inner => inner.columns

/-- The texts that a condition compares with. -/
def Condition.texts : Condition → List String
  | .compare _ _ value => value.texts
  | .isNull _ | .isNotNull _ => []
  | .all parts => parts.flatMap fun p => Condition.texts p
  | .any parts => parts.flatMap fun p => Condition.texts p
  | .not inner => inner.texts

/-- The column that is selected or aggregated. -/
def Selection.target? : Selection → Option String
  | .column name _ => some name
  | .aggregate _ target _ => target

/-- The column and the alias of a selection. -/
def Selection.names (s : Selection) : List String := s.target?.toList ++ s.label?.toList

/-- Every name in a plan: of its table, and of columns, aliases and keys. -/
def Plan.names (p : Plan) : List String :=
  p.select.flatMap Selection.names ++ p.table :: ((p.filter.map Condition.columns).getD [] ++
    p.groupBy ++ p.orderBy.map SortKey.column)

/-- Every text that a plan compares with. -/
def Plan.texts (p : Plan) : List String := (p.filter.map Condition.texts).getD []

/-! ## Pieces that are let through -/

/-- A text without a character that hides something, and without a backslash. -/
def CleanText (s : String) : Prop := ∀ c ∈ s.toList, Clean c

instance (s : String) : Decidable (CleanText s) :=
  decidable_of_iff (s.toList.all fun c => decide (Clean c)) (by simp [CleanText])

/-- A name that may be quoted. -/
def AllowedName (n : String) : Prop := CleanText n ∧ isDeniedFunction n = false

/-- Names and texts that may be quoted. -/
def Quotable (names texts : List String) : Prop :=
  (∀ n ∈ names, AllowedName n) ∧ ∀ t ∈ texts, CleanText t

theorem quotable_append {names names' texts texts' : List String} :
    Quotable (names ++ names') (texts ++ texts') ↔
      Quotable names texts ∧ Quotable names' texts' := by
  simp only [Quotable, List.forall_mem_append]
  tauto

/-- Characters that the first pass lets through wherever they stand in front of a blank, a bracket,
a comma or the end, if these names and texts may be quoted. -/
def Screens (cs : List Char) (names texts : List String) : Prop :=
  ∀ rest, Ends rest → (screenFrom (.code []) (cs ++ rest) = .ok () ↔
    Quotable names texts ∧ screenFrom (.code []) rest = .ok ())

theorem screens_nil : Screens [] [] [] := by
  intro rest _
  simp [Quotable]

theorem Screens.append {cs ds : List Char} {names names' texts texts' : List String}
    (hcs : Screens cs names texts) (hds : Screens ds names' texts') (hends : Ends ds) :
    Screens (cs ++ ds) (names ++ names') (texts ++ texts') := by
  intro rest hrest
  rw [List.append_assoc, hcs _ (hends.append hrest), hds _ hrest, quotable_append, and_assoc]

/-- A mark that stands alone, whatever is next to it. -/
theorem Screens.mark {c : Char} (hc : c ∈ [' ', '(', ')', ',', '=', '<', '>', '*'])
    {cs : List Char} {names texts : List String} (h : Screens cs names texts) :
    Screens (c :: cs) names texts := by
  intro rest hrest
  have hpass : ∀ ds, screenFrom (.code []) (c :: ds) = screenFrom (.code []) ds := by
    intro ds
    simp only [List.mem_cons, List.not_mem_nil, or_false] at hc
    rcases hc with rfl | rfl | rfl | rfl | rfl | rfl | rfl | rfl <;> rfl
  rw [List.cons_append, hpass, h rest hrest]

theorem Screens.blank {cs : List Char} {names texts : List String} (h : Screens cs names texts) :
    Screens (' ' :: cs) names texts :=
  h.mark (by decide)

/-! ## Words -/

theorem screenFrom_parts {w : List Char} (hw : ∀ c ∈ w, isWordPart c = true)
    (word rest : List Char) :
    screenFrom (.code word) (w ++ rest) = screenFrom (.code (w.reverse ++ word)) rest := by
  induction w generalizing word with
  | nil => rfl
  | cons c w ih =>
    rw [List.forall_mem_cons] at hw
    rw [List.cons_append, screenFrom_part hw.1, ih hw.2]
    simp

/-- What ends a token ends a word, and an allowed word leaves nothing behind. -/
theorem screenFrom_ends {word rest : List Char} (hword : AllowedWord word.reverse)
    (hrest : Ends rest) :
    screenFrom (.code word) rest = .ok () ↔ screenFrom (.code []) rest = .ok () := by
  have hempty : AllowedWord [] := by decide
  cases rest with
  | nil =>
    simp only [screenFrom, endAt, kept, checkWord_eq_ok]
    exact iff_of_true hword hempty
  | cons c rest =>
    have hpart : isWordPart c = false := hrest.head_not (by decide) c rfl
    have hquote : isQuote c = false := hrest.head_not (by decide) c rfl
    rw [screenFrom_behind hpart hquote, screenFrom_behind hpart hquote]
    simp [hword, hempty]

theorem screens_word {w : List Char} (hw : w.all isWordPart = true) (hallowed : AllowedWord w) :
    Screens w [] [] := by
  intro rest hrest
  rw [screenFrom_parts (List.all_eq_true.mp hw), List.append_nil,
    screenFrom_ends (by simpa using hallowed) hrest]
  simp [Quotable]

/-- A word of a statement that the first pass lets through. -/
def AllowedKeyword (k : String) : Prop :=
  k.toList.all isWordPart = true ∧ AllowedWord k.toList

instance (k : String) : Decidable (AllowedKeyword k) :=
  inferInstanceAs (Decidable (_ ∧ _))

/-- A keyword in front of a piece. -/
theorem screens_keyword {k : String} (hk : AllowedKeyword k) {cs : List Char}
    {names texts : List String} (h : Screens cs names texts) (hends : Ends cs) :
    Screens (k.toList ++ cs) names texts :=
  (screens_word hk.1 hk.2).append h hends

/-- A keyword between blanks. -/
theorem screens_between {k : String} (hk : AllowedKeyword k) {cs : List Char}
    {names texts : List String} (h : Screens cs names texts) :
    Screens (' ' :: (k.toList ++ ' ' :: cs)) names texts :=
  (screens_keyword hk h.blank (ends_blank cs)).blank

/-- A keyword at the end. -/
theorem screens_last {k : String} (hk : AllowedKeyword k) :
    Screens (' ' :: k.toList) [] [] :=
  (screens_word hk.1 hk.2).blank

theorem screens_bracketed {cs : List Char} {names texts : List String}
    (h : Screens cs names texts) : Screens ('(' :: (cs ++ [')'])) names texts := by
  have hclosing : Screens [')'] [] [] := screens_nil.mark (by decide)
  have hinner := (h.append hclosing (ends_cons (by decide) [])).mark (c := '(') (by decide)
  rwa [List.append_nil, List.append_nil] at hinner

/-! ## Quotations -/

/-- What stands between quotes is all that the first pass looks at. -/
theorem screenFrom_quotedChars {q : Char} (hq : isQuote q = true) (s : String) {rest : List Char}
    (hrest : Ends rest) :
    screenFrom (.code []) (quotedChars q s.toList ++ rest) = .ok () ↔
      CleanText s ∧ (q = '"' → isDeniedFunction s = false) ∧
        screenFrom (.code []) rest = .ok () := by
  have hnext : rest.head? ≠ some q := by
    intro hhead
    obtain rfl | rfl := eq_of_isQuote hq <;> exact absurd (hrest _ hhead) (by decide)
  have hempty : AllowedWord [] := by decide
  have htext : quotedChars q s.toList ++ rest =
      q :: (s.toList.flatMap (doubled q) ++ q :: rest) := by
    simp [quotedChars]
  rw [htext, screenFrom_opening hq, screenFrom_quoted hq s.toList hnext]
  simp [hempty, announcesEscapes, CleanText]

theorem screens_quoteName (n : String) : Screens (quoteName n).toList [n] [] := by
  intro rest hrest
  rw [quoteName, String.toList_ofList, screenFrom_quotedChars rfl n hrest]
  simp [Quotable, AllowedName, and_assoc]

theorem screens_quoteText (s : String) : Screens (quoteText s).toList [] [s] := by
  intro rest hrest
  rw [quoteText, String.toList_ofList, screenFrom_quotedChars rfl s hrest]
  simp [Quotable]

/-! ## Numbers -/

/-- A character of a number that belongs to a word. -/
def isNumeric (c : Char) : Bool := c.isDigit || c == 'e'

theorem isWordPart_of_isNumeric {c : Char} (h : isNumeric c = true) : isWordPart c = true := by
  obtain hdigit | rfl : c.isDigit = true ∨ c = 'e' := by simpa [isNumeric] using h
  · simp [isWordPart, Char.isAlphanum, hdigit]
  · rfl

/-- A word that lacks what every word of a list has is not in the list. -/
theorem contains_ofList_eq_false {words : List String} {p : Char → Bool}
    (hwords : (words.all fun k => k.toList.any fun c => !p c) = true) {w : List Char}
    (hw : ∀ c ∈ w, p c = true) : words.contains (String.ofList w) = false := by
  rw [Bool.eq_false_iff]
  intro h
  have hmem : String.ofList w ∈ words := by simpa using h
  obtain ⟨c, hc, hp⟩ := List.any_eq_true.mp (List.all_eq_true.mp hwords _ hmem)
  rw [String.toList_ofList] at hc
  simp [hw c hc] at hp

/-- Every denied word has a letter that no number has. -/
theorem allowedWord_of_isNumeric {w : List Char} (hw : ∀ c ∈ w, isNumeric c = true) :
    AllowedWord w := by
  have hcase : ∀ c ∈ w, (c.toUpper.isDigit || c.toUpper == 'E') = true ∧
      isNumeric c.toLower = true := by
    intro c hc
    obtain hdigit | rfl : c.isDigit = true ∨ c = 'e' := by simpa [isNumeric] using hw c hc
    · obtain ⟨hupper, hlower⟩ := Text.toUpper_toLower_of_isDigit hdigit
      simp [hupper, hlower, isNumeric, hdigit]
    · decide
  constructor
  · rw [isDeniedKeyword, Text.asciiUpper, String.toList_ofList]
    refine contains_ofList_eq_false (p := fun c => c.isDigit || c == 'E') (by decide) ?_
    exact List.forall_mem_map.mpr fun c hc => (hcase c hc).1
  · rw [isDeniedFunction, Text.asciiLower, String.toList_ofList]
    refine contains_ofList_eq_false (p := isNumeric) (by decide) ?_
    exact List.forall_mem_map.mpr fun c hc => (hcase c hc).2

/-- Characters that are let through as the rest of a number, behind any part of it. -/
def PassesNumber (cs : List Char) : Prop :=
  ∀ word rest, (∀ c ∈ word, isNumeric c = true) → Ends rest →
    (screenFrom (.code word) (cs ++ rest) = .ok () ↔ screenFrom (.code []) rest = .ok ())

theorem passesNumber_nil : PassesNumber [] := by
  intro word rest hword hrest
  have hallowed : AllowedWord word.reverse :=
    allowedWord_of_isNumeric fun c hc => hword c (List.mem_reverse.mp hc)
  exact screenFrom_ends hallowed hrest

theorem PassesNumber.numeric {cs ds : List Char} (h : PassesNumber cs)
    (hds : ∀ c ∈ ds, isNumeric c = true) : PassesNumber (ds ++ cs) := by
  intro word rest hword hrest
  rw [List.append_assoc, screenFrom_parts fun c hc => isWordPart_of_isNumeric (hds c hc)]
  refine h _ rest ?_ hrest
  rw [List.forall_mem_append]
  exact ⟨fun c hc => hds c (List.mem_reverse.mp hc), hword⟩

/-- A point or a sign, if no second sign follows. -/
theorem PassesNumber.mark {cs : List Char} {c : Char} (h : PassesNumber cs)
    (hc : c = '.' ∨ c = '-' ∨ c = '+') (hdash : c = '-' → cs.head? ≠ some '-') :
    PassesNumber (c :: cs) := by
  intro word rest hword hrest
  have hallowed : AllowedWord word.reverse :=
    allowedWord_of_isNumeric fun c hc => hword c (List.mem_reverse.mp hc)
  have hnext : ¬(c = '-' ∧ (cs ++ rest).head? = some '-') := by
    rintro ⟨hsign, hhead⟩
    cases cs with
    | nil => exact absurd (hrest _ hhead) (by decide)
    | cons d cs => exact hdash hsign hhead
  have hclass : isWordPart c = false ∧ isQuote c = false ∧ Clean c ∧ isCode c = true ∧
      c ≠ '/' := by
    rcases hc with rfl | rfl | rfl <;> exact ⟨rfl, rfl, ⟨rfl, by decide⟩, rfl, by decide⟩
  obtain ⟨hpart, hquote, hclean, hcode, hslash⟩ := hclass
  rw [List.cons_append, screenFrom_behind hpart hquote, h [] rest nofun hrest]
  simp only [hclean, hcode, hnext, hslash, hallowed, false_and, not_false_eq_true, true_and]

theorem isNumeric_of_isDigit {c : Char} (h : c.isDigit = true) : isNumeric c = true := by
  simp [isNumeric, h]

theorem Decimal.Digits.passes {ds : List Char} (h : Decimal.Digits ds) : PassesNumber ds := by
  have hpasses := passesNumber_nil.numeric fun c hc => isNumeric_of_isDigit (h.digit c hc)
  rwa [List.append_nil] at hpasses

theorem Decimal.Digits.head?_ne {ds : List Char} (h : Decimal.Digits ds) :
    ds.head? ≠ some '-' :=
  fun hd => Decimal.ne_of_isDigit (h.digit _ (List.mem_of_mem_head? hd)) rfl rfl

theorem passesNumber_numeral {w p x : List Char} (h : Decimal.Numeral w p x) :
    PassesNumber (w ++ (p ++ x)) := by
  have hexponent : PassesNumber x := by
    obtain rfl | ⟨sign, ds, rfl, hsign, hds⟩ := h.exponent
    · exact passesNumber_nil
    · have hsigned : PassesNumber (sign ++ ds) := by
        rcases hsign with rfl | rfl | rfl
        · exact hds.passes
        · exact hds.passes.mark (.inr (.inl rfl)) fun _ => hds.head?_ne
        · exact hds.passes.mark (.inr (.inr rfl)) nofun
      have hletter : ∀ c ∈ ['e'], isNumeric c = true := List.forall_mem_singleton.mpr rfl
      exact hsigned.numeric hletter
  have hfraction : PassesNumber (p ++ x) := by
    obtain rfl | ⟨ds, rfl, hds⟩ := h.fraction
    · exact hexponent
    · have hdigits := hexponent.numeric fun c hc => isNumeric_of_isDigit (hds c hc)
      exact hdigits.mark (.inl rfl) nofun
  exact hfraction.numeric fun c hc => isNumeric_of_isDigit (h.whole.digit c hc)

/-- A number with its sign. -/
theorem screens_signed (negative : Bool) {w p x : List Char} (h : Decimal.Numeral w p x) :
    Screens (if negative then '-' :: (w ++ (p ++ x)) else w ++ (p ++ x)) [] [] := by
  have hpasses : PassesNumber (if negative then '-' :: (w ++ (p ++ x)) else w ++ (p ++ x)) := by
    cases negative with
    | false => exact passesNumber_numeral h
    | true =>
      obtain ⟨c, cs, hcs, hc⟩ := h.head_isDigit
      refine (passesNumber_numeral h).mark (.inr (.inl rfl)) fun _ => ?_
      rw [hcs]
      exact fun hhead => Decimal.ne_of_isDigit hc rfl (Option.some.inj hhead)
  intro rest hrest
  rw [hpasses [] rest nofun hrest]
  simp [Quotable]

/-- A whole number without a sign. -/
theorem screens_natText (n : Nat) : Screens (Decimal.natText n).toList [] [] := by
  have hnumber := screens_signed false (p := []) (x := [])
    ⟨Decimal.digits_digitChars n, .inl rfl, .inl rfl⟩
  rw [Decimal.natText, String.toList_ofList]
  simpa using hnumber

theorem screens_literal {l : Literal} {v : String} (h : l.statement = .ok v) :
    Screens v.toList [] l.texts := by
  cases l with
  | null => cases h
  | bool b =>
    cases h
    cases b
    · exact screens_word (by decide) (by decide)
    · exact screens_word (by decide) (by decide)
  | text s =>
    cases h
    exact screens_quoteText s
  | int n =>
    cases h
    obtain ⟨negative, htext, -⟩ := Decimal.intText_eq n
    have hnumber := screens_signed negative (p := []) (x := [])
      ⟨Decimal.digits_digitChars n.natAbs, .inl rfl, .inl rfl⟩
    rw [List.append_nil, List.append_nil] at hnumber
    rw [htext, String.toList_ofList]
    exact hnumber
  | float f =>
    rw [Literal.statement] at h
    split at h
    · rename_i hfinite
      cases h
      obtain ⟨negative, w, p, x, hrender, -, hnumeral⟩ :=
        Decimal.Notation.render_numeral (c := statementNotation) rfl hfinite
      rw [hrender, String.toList_ofList]
      exact screens_signed negative hnumeral
    · cases h

/-! ## Conditions -/

theorem screens_comparison (how : Comparison) {cs : List Char} {names texts : List String}
    (h : Screens cs names texts) : Screens (how.symbol.toList ++ ' ' :: cs) names texts := by
  have hblank := h.blank
  cases how
  case eq => exact hblank.mark (c := '=') (by decide)
  case ne => exact (hblank.mark (c := '>') (by decide)).mark (c := '<') (by decide)
  case lt => exact hblank.mark (c := '<') (by decide)
  case le => exact (hblank.mark (c := '=') (by decide)).mark (c := '<') (by decide)
  case gt => exact hblank.mark (c := '>') (by decide)
  case ge => exact (hblank.mark (c := '=') (by decide)).mark (c := '>') (by decide)

/-- Pieces with a separator between them. -/
theorem screens_joined {α : Type} {separator : String} {names texts : α → List String}
    (hseparator : ∀ {cs ns ts}, Screens cs ns ts → Screens (separator.toList ++ cs) ns ts)
    (hends : ∀ cs, Ends (separator.toList ++ cs)) {xs : List α} {ss : List String}
    (h : List.Forall₂ (fun x s => Screens s.toList (names x) (texts x)) xs ss) :
    Screens (Text.joined separator ss).toList (xs.flatMap names) (xs.flatMap texts) := by
  induction h with
  | nil => exact screens_nil
  | cons hx hxs ih =>
    cases hxs with
    | nil =>
      rw [List.flatMap_singleton, List.flatMap_singleton]
      exact hx
    | cons _ _ =>
      rw [Text.joined, String.toList_append, String.toList_append, List.append_assoc]
      · exact hx.append (hseparator ih) (hends _)
      · exact nofun

theorem screens_parts {k separator : String}
    (hseparator : separator.toList = ' ' :: (k.toList ++ [' '])) (hk : AllowedKeyword k)
    {ps : List Condition} {ss : List String} (h : List.Forall₂ Condition.WrittenPart ps ss)
    (hparts : ∀ p ∈ ps, ∀ s, p.statement = .ok s → Screens s.toList p.columns p.texts) :
    Screens (Text.joined separator ss).toList (ps.flatMap Condition.columns)
      (ps.flatMap Condition.texts) := by
  have hbracketed :
      List.Forall₂ (fun p s => Screens s.toList p.columns p.texts) ps ss := by
    induction h with
    | nil => exact .nil
    | @cons p _ ps _ hpart _ ih =>
      obtain ⟨inner, hinner, rfl⟩ := hpart
      refine .cons ?_ (ih fun q hq => hparts q (List.mem_cons_of_mem p hq))
      simpa using screens_bracketed (hparts p List.mem_cons_self inner hinner)
  refine screens_joined (fun {cs ns ts} hcs => ?_) (fun cs => ?_) hbracketed
  · simpa [hseparator] using screens_between hk hcs
  · rw [hseparator]
    exact ends_blank _

/-- The text of a condition is let through if its columns and its texts may be quoted. -/
theorem screens_condition {c : Condition} {s : String} (h : c.statement = .ok s) :
    Screens s.toList c.columns c.texts := by
  induction c using Condition.byParts generalizing s with
  | compare column how value =>
    obtain ⟨v, hv, rfl⟩ := Condition.value_of_statement_compare h
    rw [Condition.columns, Condition.texts]
    simpa using (screens_quoteName column).append
      (screens_comparison how (screens_literal hv)).blank (ends_blank _)
  | isNull column =>
    rw [Condition.statement] at h
    cases h
    rw [Condition.columns, Condition.texts]
    have hnull := screens_between (k := "IS") (by decide)
      (screens_word (w := "NULL".toList) (by decide) (by decide))
    simpa using (screens_quoteName column).append hnull (ends_blank _)
  | isNotNull column =>
    rw [Condition.statement] at h
    cases h
    rw [Condition.columns, Condition.texts]
    have hnull := screens_between (k := "NOT") (by decide)
      (screens_word (w := "NULL".toList) (by decide) (by decide))
    have his := (screens_keyword (k := "IS") (by decide) hnull (ends_blank _)).blank
    simpa using (screens_quoteName column).append his (ends_blank _)
  | not inner ih =>
    obtain ⟨text, htext, rfl⟩ := Condition.inner_of_statement_not h
    rw [Condition.columns, Condition.texts]
    have hinner := (screens_bracketed (ih htext)).blank
    simpa using screens_keyword (k := "NOT") (by decide) hinner (ends_blank _)
  | all parts ih =>
    obtain ⟨-, ss, hss, rfl⟩ := Condition.parts_of_statement_all h
    rw [Condition.columns, Condition.texts]
    exact screens_parts (k := "AND") (by decide) (by decide) hss fun p hp _ hs => ih p hp hs
  | any parts ih =>
    obtain ⟨-, ss, hss, rfl⟩ := Condition.parts_of_statement_any h
    rw [Condition.columns, Condition.texts]
    exact screens_parts (k := "OR") (by decide) (by decide) hss fun p hp _ hs => ih p hp hs

/-! ## Selections and clauses -/

theorem screens_expression {i : Selection} {e : String} (h : i.expression = .ok e) :
    Screens e.toList i.target?.toList [] := by
  cases i with
  | column n label =>
    cases h
    exact screens_quoteName n
  | aggregate how target label =>
    have hkeyword : AllowedKeyword how.keyword := by cases how <;> decide
    cases target with
    | some n =>
      cases h
      rw [Selection.target?]
      simpa using screens_keyword hkeyword (screens_bracketed (screens_quoteName n))
        (ends_cons (by decide) _)
    | none =>
      have hstar : Screens ['*'] [] [] := screens_nil.mark (by decide)
      cases how with
      | count =>
        cases h
        have hcount := screens_keyword hkeyword (screens_bracketed hstar)
          (ends_cons (by decide) _)
        exact hcount
      | sum | avg | min | max => cases h

theorem screens_selection {i : Selection} {s : String} (h : i.statement = .ok s) :
    Screens s.toList i.names [] := by
  unfold Selection.statement at h
  split at h
  · cases h
  rename_i e he
  have hexpression := screens_expression he
  rw [Selection.names]
  split at h
  · rename_i a ha
    cases h
    rw [ha]
    have hlabel := screens_between (k := "AS") (by decide) (screens_quoteName a)
    simpa using hexpression.append hlabel (ends_blank _)
  · rename_i ha
    cases h
    rw [ha]
    simpa using hexpression

theorem screens_sortKey (k : SortKey) : Screens k.statement.toList [k.column] [] := by
  rw [SortKey.statement, String.toList_append]
  cases k.descending with
  | false =>
    exact (screens_quoteName k.column).append (screens_last (k := "ASC") (by decide))
      (ends_blank _)
  | true =>
    exact (screens_quoteName k.column).append (screens_last (k := "DESC") (by decide))
      (ends_blank _)

/-- Pieces that quote names only, with commas between them. -/
theorem screens_list {α : Type} {names : α → List String} {xs : List α} {ss : List String}
    (h : List.Forall₂ (fun x s => Screens s.toList (names x) []) xs ss) :
    Screens (Text.joined ", " ss).toList (xs.flatMap names) [] := by
  have hcomma : ∀ {cs ns ts}, Screens cs ns ts → Screens (", ".toList ++ cs) ns ts :=
    fun hcs => hcs.blank.mark (c := ',') (by decide)
  have hnone : xs.flatMap (fun _ => ([] : List String)) = [] := by simp
  rw [← hnone]
  exact screens_joined hcomma (fun _ => ends_cons (by decide) _) h

/-- The end of a statement from one of its clauses on. -/
structure ScreensClause (cs : List Char) (names texts : List String) : Prop where
  screens : Screens cs names texts
  ends : Ends cs

theorem ScreensClause.append {cs ds : List Char} {names names' texts texts' : List String}
    (hcs : ScreensClause cs names texts) (hds : ScreensClause ds names' texts') :
    ScreensClause (cs ++ ds) (names ++ names') (texts ++ texts') :=
  ⟨hcs.screens.append hds.screens hds.ends, hcs.ends.append hds.ends⟩

theorem screensClause_nil : ScreensClause [] [] [] := ⟨screens_nil, ends_nil⟩

theorem screensClause_list {α : Type} (opening first second : String) (name : α → String)
    {text : α → String}
    (hopening : opening.toList = ' ' :: (first.toList ++ ' ' :: (second.toList ++ [' '])))
    (hfirst : AllowedKeyword first) (hsecond : AllowedKeyword second) (xs : List α)
    (h : ∀ x, Screens (text x).toList [name x] []) :
    ScreensClause (listClause opening (xs.map text)).toList (xs.map name) [] := by
  cases xs with
  | nil => exact screensClause_nil
  | cons x xs =>
    have hitems : List.Forall₂ (fun x s => Screens s.toList [name x] []) (x :: xs)
        ((x :: xs).map text) := by
      rw [List.forall₂_map_right_iff, List.forall₂_same]
      exact fun x _ => h x
    have hlist := screens_list hitems
    rw [← List.map_eq_flatMap] at hlist
    have hsecond := screens_keyword hsecond hlist.blank (ends_blank _)
    have hclause := (screens_keyword hfirst hsecond.blank (ends_blank _)).blank
    rw [listClause, if_neg (by simp), String.toList_append, hopening]
    exact ⟨by simpa using hclause, ends_blank _⟩

theorem screensClause_where {p : Plan} {rows : String} (h : p.whereClause = .ok rows) :
    ScreensClause rows.toList ((p.filter.map Condition.columns).getD []) p.texts := by
  rw [Plan.texts]
  obtain ⟨hfilter, rfl⟩ | ⟨c, s, hfilter, hs, rfl⟩ := Plan.filter_of_whereClause h
  · rw [hfilter]
    exact screensClause_nil
  · rw [hfilter, String.toList_append]
    exact ⟨screens_between (k := "WHERE") (by decide) (screens_condition hs), ends_blank _⟩

theorem screensClause_limit (p : Plan) : ScreensClause p.limitClause.toList [] [] := by
  unfold Plan.limitClause
  cases p.limit with
  | none => exact screensClause_nil
  | some n =>
    dsimp only
    rw [String.toList_append]
    exact ⟨screens_between (k := "LIMIT") (by decide) (screens_natText n), ends_blank _⟩

/-! ## Statements -/

/-- The statement of a plan is let through if its names and its texts may be quoted. -/
theorem screens_statement {p : Plan} {s : String} (h : p.statement = .ok s) :
    Screens s.toList p.names p.texts := by
  obtain ⟨items, rows, hclauses⟩ := Plan.clauses_of_statement h
  have hitems := screens_list (hclauses.selected.imp fun _ _ hs => screens_selection hs)
  have hgroupBy := screensClause_list " GROUP BY " "GROUP" "BY" id (by decide) (by decide)
    (by decide) p.groupBy screens_quoteName
  have horderBy := screensClause_list " ORDER BY " "ORDER" "BY" _ (by decide) (by decide)
    (by decide) p.orderBy screens_sortKey
  have hclosing := (((screensClause_where hclauses.filtered).append hgroupBy).append
    horderBy).append (screensClause_limit p)
  have htable := (screens_quoteName p.table).append hclosing.screens hclosing.ends
  have hfrom := hitems.append (screens_between (k := "FROM") (by decide) htable) (ends_blank _)
  have hselect := screens_keyword (k := "SELECT") (by decide) hfrom.blank (ends_blank _)
  rw [hclauses.text, Plan.names]
  simpa using hselect

/-- **Only its names and its texts can keep the statement of a plan from being let through.** The
first pass refuses it exactly if a name or a text has a character that hides something or a
backslash, or a name is that of a denied function. -/
theorem screen_statement_iff {p : Plan} {s : String} (h : p.statement = .ok s) :
    screen s.toList = .ok () ↔
      (∀ t ∈ p.names ++ p.texts, CleanText t) ∧ ∀ n ∈ p.names, isDeniedFunction n = false := by
  have hscreens := screens_statement h [] ends_nil
  have hend : screenFrom (.code []) [] = .ok () := rfl
  rw [List.append_nil] at hscreens
  rw [screen, hscreens, Quotable]
  simp only [AllowedName, List.forall_mem_append, hend, and_true]
  constructor
  · rintro ⟨hnames, htexts⟩
    exact ⟨⟨fun n hn => (hnames n hn).1, htexts⟩, fun n hn => (hnames n hn).2⟩
  · rintro ⟨⟨hnames, htexts⟩, hallowed⟩
    exact ⟨fun n hn => ⟨hnames n hn, hallowed n hn⟩, htexts⟩

/-- A plan over a table of which the other names and the text look like anything but what they
are. -/
def misleadingPlan (table : String) : Plan :=
  ⟨table, [.column "x; --" (some "größe"), .aggregate .count none none],
    some (.all [.compare "INTO" .ne (.text "/* it's; */"),
      .not (.any [.isNull "a\"b", .compare "e" .lt (.int (-7))])]),
    ["INTO"], [⟨"größe", true⟩], some 5⟩

/-- A denied keyword may name the table, the name of a denied function may not. -/
theorem screen_statement_misleadingPlan :
    (∃ s, (misleadingPlan "DROP").statement = .ok s ∧ screen s.toList = .ok ()) ∧
      ∃ s, (misleadingPlan "Read_CSV").statement = .ok s ∧ screen s.toList ≠ .ok () := by
  constructor
  · have hnames : (misleadingPlan "DROP").names =
        ["x; --", "größe", "DROP", "INTO", "a\"b", "e", "INTO", "größe"] := by
      simp [Plan.names, misleadingPlan, Selection.names, Selection.target?, Selection.label?,
        Condition.columns]
    have htexts : (misleadingPlan "DROP").texts = ["/* it's; */"] := by
      simp [Plan.texts, misleadingPlan, Condition.texts, Literal.texts]
    refine ⟨_, rfl, (screen_statement_iff (p := misleadingPlan "DROP") rfl).mpr ?_⟩
    rw [hnames, htexts]
    decide
  · refine ⟨_, rfl, fun h => ?_⟩
    have hnames := ((screen_statement_iff (p := misleadingPlan "Read_CSV") rfl).mp h).2
    exact absurd hnames (by decide)

end Enclave
