import Enclave.Proofs.Plan.Tokens
import Enclave.Proofs.Sql.Spelling

/-!
# Statements read back

The statement of a plan spells the tokens of the plan, and these are read as the plan. So the text
of a statement says everything about its plan that `Plan.reading` keeps, and no name or text in the
plan can change what else is read.
-/

namespace Enclave

open Sql

/-! ## Pieces of a statement -/

theorem spells_keyword {k : String} (hk : isWord k.toList = true) {cs : List Char}
    {ts : List Token} (h : Spells cs ts) (hends : Ends cs) :
    Spells (k.toList ++ cs) (wordToken k :: ts) := by
  have hword := (spells_word hk).append h hends
  rwa [String.ofList_toList] at hword

theorem spells_name (n : String) : Spells (quoteName n).toList [nameToken n] := spells_quoteName n

theorem spells_bracketed {cs : List Char} {ts : List Token} (h : Spells cs ts) :
    Spells ('(' :: (cs ++ [')'])) (bracketed ts) :=
  (h.append spells_nil.closing (ends_cons (by decide) [])).opening

/-- A number with its sign. -/
theorem spells_signed (negative : Bool) {w p x : List Char} (h : Decimal.Numeral w p x) :
    Spells (if negative then '-' :: (w ++ (p ++ x)) else w ++ (p ++ x))
      (numberTokens (String.ofList
        (if negative then '-' :: (w ++ (p ++ x)) else w ++ (p ++ x)))) := by
  have hnumber := spells_number h
  obtain ⟨c, cs, hcs, hc⟩ := h.head_isDigit
  rw [hcs] at hnumber ⊢
  rw [ReadBack.numberTokens_eq negative hc]
  cases negative with
  | false => exact hnumber
  | true => exact spells_minus hc hnumber

theorem spells_literal {l : Literal} {v : String} (h : l.statement = .ok v) :
    Spells v.toList l.tokens := by
  cases l with
  | null => cases h
  | bool b =>
    cases h
    rw [← List.append_nil (String.toList _)]
    cases b
    · exact spells_keyword (by decide) spells_nil ends_nil
    · exact spells_keyword (by decide) spells_nil ends_nil
  | text s =>
    cases h
    exact spells_quoteText s
  | int n =>
    cases h
    obtain ⟨negative, htext, -⟩ := Decimal.intText_eq n
    have hspells := spells_signed negative (p := []) (x := [])
      ⟨Decimal.digits_digitChars n.natAbs, .inl rfl, .inl rfl⟩
    rw [List.append_nil, List.append_nil] at hspells
    rw [Literal.tokens, htext, String.toList_ofList]
    exact hspells
  | float f =>
    rw [Literal.statement] at h
    split at h
    · rename_i hfinite
      cases h
      obtain ⟨negative, w, p, x, hrender, -, hnumeral⟩ :=
        Decimal.Notation.render_numeral (c := statementNotation) rfl hfinite
      rw [Literal.tokens, hrender, String.toList_ofList]
      exact spells_signed negative hnumeral
    · cases h

theorem spells_comparison (how : Comparison) {cs : List Char} {ts : List Token}
    (h : Spells cs ts) :
    Spells (how.symbol.toList ++ ' ' :: cs) (.symbol how.symbol :: ts) := by
  have hblank := h.blank
  cases how
  case eq => exact hblank.cons [] (.symbol "=") fun _ _ => rfl
  case ne => exact hblank.cons ['>'] (.symbol "<>") fun _ _ => rfl
  case lt => exact hblank.cons [] (.symbol "<") fun _ _ => rfl
  case le => exact hblank.cons ['='] (.symbol "<=") fun _ _ => rfl
  case gt => exact hblank.cons [] (.symbol ">") fun _ _ => rfl
  case ge => exact hblank.cons ['='] (.symbol ">=") fun _ _ => rfl

/-- Pieces with a separator between them. -/
theorem spells_joined {α : Type} {separator : String} {t : Token} {toks : α → List Token}
    (hseparator : ∀ {cs ts}, Spells cs ts → Spells (separator.toList ++ cs) (t :: ts))
    (hends : ∀ cs, Ends (separator.toList ++ cs)) {xs : List α} {ss : List String}
    (h : List.Forall₂ (fun x s => Spells s.toList (toks x)) xs ss) :
    Spells (Text.joined separator ss).toList (separated t (xs.map toks)) := by
  induction h with
  | nil => exact spells_nil
  | cons hx hxs ih =>
    cases hxs with
    | nil => exact hx
    | cons _ _ =>
      rw [Text.joined, String.toList_append, String.toList_append, List.append_assoc,
        List.map_cons, ReadBack.separated_cons (by simp)]
      · exact hx.append (hseparator ih) (hends _)
      · exact nofun

/-- A keyword between blanks. -/
theorem spells_between {k : String} (hk : isWord k.toList = true) {cs : List Char}
    {ts : List Token} (h : Spells cs ts) :
    Spells (' ' :: (k.toList ++ ' ' :: cs)) (wordToken k :: ts) :=
  (spells_keyword hk h.blank (ends_blank cs)).blank

/-- The end of a statement. -/
theorem spells_last {k : String} (hk : isWord k.toList = true) :
    Spells (' ' :: k.toList) [wordToken k] := by
  rw [← List.append_nil k.toList]
  exact (spells_keyword hk spells_nil ends_nil).blank

/-! ## Conditions -/

theorem spells_parts {k separator : String}
    (hseparator : separator.toList = ' ' :: (k.toList ++ [' '])) (hk : isWord k.toList = true)
    {ps : List Condition} {ss : List String} (h : List.Forall₂ Condition.WrittenPart ps ss)
    (hparts : ∀ p ∈ ps, ∀ s, p.statement = .ok s → Spells s.toList p.tokens) :
    Spells (Text.joined separator ss).toList
      (separated (wordToken k) (ps.map fun p => bracketed p.tokens)) := by
  have hbracketed : List.Forall₂ (fun p s => Spells s.toList (bracketed p.tokens)) ps ss := by
    induction h with
    | nil => exact .nil
    | @cons p _ ps _ hpart _ ih =>
      obtain ⟨inner, hinner, rfl⟩ := hpart
      refine .cons ?_ (ih fun q hq => hparts q (List.mem_cons_of_mem p hq))
      simpa using spells_bracketed (hparts p List.mem_cons_self inner hinner)
  refine spells_joined (fun {cs ts} hcs => ?_) (fun cs => ?_) hbracketed
  · simpa [hseparator] using spells_between hk hcs
  · rw [hseparator]
    exact ends_blank _

/-- The text of a condition spells its tokens. -/
theorem spells_condition {c : Condition} {s : String} (h : c.statement = .ok s) :
    Spells s.toList c.tokens := by
  induction c using Condition.byParts generalizing s with
  | compare column how value =>
    obtain ⟨v, hv, rfl⟩ := Condition.value_of_statement_compare h
    rw [Condition.tokens]
    simpa using (spells_name column).append (spells_comparison how (spells_literal hv)).blank
      (ends_blank _)
  | isNull column =>
    rw [Condition.statement] at h
    cases h
    rw [Condition.tokens]
    have hnull := spells_between (k := "IS") (by decide)
      (spells_keyword (k := "NULL") (by decide) spells_nil ends_nil)
    simpa using (spells_name column).append hnull (ends_blank _)
  | isNotNull column =>
    rw [Condition.statement] at h
    cases h
    rw [Condition.tokens]
    have hnull := spells_between (k := "NOT") (by decide)
      (spells_keyword (k := "NULL") (by decide) spells_nil ends_nil)
    have his := (spells_keyword (k := "IS") (by decide) hnull (ends_blank _)).blank
    simpa using (spells_name column).append his (ends_blank _)
  | not inner ih =>
    obtain ⟨text, htext, rfl⟩ := Condition.inner_of_statement_not h
    rw [Condition.tokens]
    have hinner := (spells_bracketed (ih htext)).blank
    simpa using spells_keyword (k := "NOT") (by decide) hinner (ends_blank _)
  | all parts ih =>
    obtain ⟨-, ss, hss, rfl⟩ := Condition.parts_of_statement_all h
    rw [Condition.tokens]
    exact spells_parts (by decide) (by decide) hss fun p hp _ hs => ih p hp hs
  | any parts ih =>
    obtain ⟨-, ss, hss, rfl⟩ := Condition.parts_of_statement_any h
    rw [Condition.tokens]
    exact spells_parts (by decide) (by decide) hss fun p hp _ hs => ih p hp hs

/-! ## Selections and clauses -/

theorem spells_expression {i : Selection} {e : String} (h : i.expression = .ok e) :
    Spells e.toList i.expressionTokens := by
  cases i with
  | column n label =>
    cases h
    exact spells_name n
  | aggregate how target label =>
    have hword : isWord how.keyword.toList = true := by cases how <;> decide
    rw [Selection.expressionTokens]
    cases target with
    | some n =>
      cases h
      simpa using spells_keyword hword (spells_bracketed (spells_name n))
        (ends_cons (by decide) _)
    | none =>
      have hstar : Spells ['*'] [.symbol "*"] := spells_of_lexeme rfl fun _ _ => rfl
      cases how with
      | count =>
        cases h
        exact spells_keyword hword (spells_bracketed hstar) (ends_cons (by decide) _)
      | sum | avg | min | max => cases h

/-- The text of a selection spells its tokens. -/
theorem spells_selection {i : Selection} {s : String} (h : i.statement = .ok s) :
    Spells s.toList i.tokens := by
  unfold Selection.statement at h
  split at h
  · cases h
  rename_i e he
  have hexpression := spells_expression he
  rw [Selection.tokens]
  split at h
  · rename_i a ha
    cases h
    rw [ha]
    have hlabel := spells_between (k := "AS") (by decide) (spells_name a)
    simpa using hexpression.append hlabel (ends_blank _)
  · rename_i ha
    cases h
    rw [ha]
    simpa using hexpression

theorem spells_sortKey (k : SortKey) : Spells k.statement.toList k.tokens := by
  rw [SortKey.statement, SortKey.tokens, String.toList_append]
  cases k.descending with
  | false =>
    exact (spells_name k.column).append (spells_last (k := "ASC") (by decide))
      (ends_blank _)
  | true =>
    exact (spells_name k.column).append (spells_last (k := "DESC") (by decide))
      (ends_blank _)

theorem spells_list {α : Type} {toks : α → List Token} {xs : List α} {ss : List String}
    (h : List.Forall₂ (fun x s => Spells s.toList (toks x)) xs ss) :
    Spells (Text.joined ", " ss).toList (separated (.symbol ",") (xs.map toks)) := by
  have hcomma : ∀ {cs ts}, Spells cs ts → Spells (", ".toList ++ cs) (.symbol "," :: ts) :=
    fun hcs => hcs.blank.comma
  exact spells_joined hcomma (fun _ => ends_cons (by decide) _) h

/-- The end of a statement from one of its clauses on. -/
structure Closing (cs : List Char) (ts : List Token) : Prop where
  spells : Spells cs ts
  ends : Ends cs

theorem Closing.append {cs ds : List Char} {ts us : List Token} (hcs : Closing cs ts)
    (hds : Closing ds us) : Closing (cs ++ ds) (ts ++ us) :=
  ⟨hcs.spells.append hds.spells hds.ends, hcs.ends.append hds.ends⟩

theorem closing_nil : Closing [] [] := ⟨spells_nil, ends_nil⟩

theorem closing_listClause {α : Type} {opening first second : String} {toks : α → List Token}
    {text : α → String}
    (hopening : opening.toList = ' ' :: (first.toList ++ ' ' :: (second.toList ++ [' '])))
    (hfirst : isWord first.toList = true) (hsecond : isWord second.toList = true) {xs : List α}
    (h : ∀ x ∈ xs, Spells (text x).toList (toks x)) :
    Closing (listClause opening (xs.map text)).toList
      (clauseTokens first second (xs.map toks)) := by
  cases xs with
  | nil => exact closing_nil
  | cons x xs =>
    have hitems : List.Forall₂ (fun x s => Spells s.toList (toks x)) (x :: xs)
        ((x :: xs).map text) := by
      rw [List.forall₂_map_right_iff, List.forall₂_same]
      exact h
    have hsecond := spells_keyword hsecond (spells_list hitems).blank (ends_blank _)
    have hclause := (spells_keyword hfirst hsecond.blank (ends_blank _)).blank
    rw [listClause, if_neg (by simp), clauseTokens, if_neg (by simp), String.toList_append,
      hopening]
    exact ⟨by simpa using hclause, ends_blank _⟩

/-! ## Statements -/

theorem closing_where {p : Plan} {rows : String} (h : p.whereClause = .ok rows) :
    Closing rows.toList ((p.filter.map fun c => wordToken "WHERE" :: c.tokens).getD []) := by
  obtain ⟨hfilter, rfl⟩ | ⟨c, s, hfilter, hs, rfl⟩ := Plan.filter_of_whereClause h
  · rw [hfilter]
    exact closing_nil
  · rw [hfilter, String.toList_append]
    exact ⟨spells_between (k := "WHERE") (by decide) (spells_condition hs), ends_blank _⟩

theorem closing_limit (p : Plan) : Closing p.limitClause.toList
    ((p.limit.map fun n => [wordToken "LIMIT", .number (Decimal.natText n) false]).getD []) := by
  unfold Plan.limitClause
  cases p.limit with
  | none => exact closing_nil
  | some n =>
    have hnumber := spells_number (p := []) (x := [])
      ⟨Decimal.digits_digitChars n, .inl rfl, .inl rfl⟩
    rw [List.append_nil, List.append_nil, ← Decimal.natText] at hnumber
    have hdigits : (Decimal.natText n).toList = Decimal.digitChars n := String.toList_ofList
    dsimp only
    rw [String.toList_append, hdigits]
    exact ⟨spells_between (k := "LIMIT") (by decide) hnumber, ends_blank _⟩

theorem closing_groupBy (names : List String) :
    Closing (listClause " GROUP BY " (names.map quoteName)).toList
      (clauseTokens "GROUP" "BY" (names.map fun n => [nameToken n])) :=
  closing_listClause (by decide) (by decide) (by decide) fun n _ => spells_name n

theorem closing_orderBy (keys : List SortKey) :
    Closing (listClause " ORDER BY " (keys.map SortKey.statement)).toList
      (clauseTokens "ORDER" "BY" (keys.map SortKey.tokens)) :=
  closing_listClause (by decide) (by decide) (by decide) fun k _ => spells_sortKey k

/-- The statement of a plan spells the tokens of the plan. -/
theorem spells_statement {p : Plan} {s : String} (h : p.statement = .ok s) :
    Spells s.toList p.tokens := by
  obtain ⟨items, rows, hclauses⟩ := Plan.clauses_of_statement h
  have hitems := spells_list (hclauses.selected.imp fun _ _ hs => spells_selection hs)
  have hclosing := (((closing_where hclauses.filtered).append (closing_groupBy p.groupBy)).append
    (closing_orderBy p.orderBy)).append (closing_limit p)
  have htable := (spells_name p.table).append hclosing.spells hclosing.ends
  have hfrom := hitems.append (spells_between (k := "FROM") (by decide) htable)
    (ends_blank _)
  have hselect := spells_keyword (k := "SELECT") (by decide) hfrom.blank (ends_blank _)
  rw [hclauses.text, Plan.tokens]
  simpa using hselect

/-- **A statement says what its plan says, and nothing else.** The statement of a plan is read as
exactly one selection, which is the plan as `Plan.reading` keeps it, and no plan that is kept as
something else has the same statement. -/
theorem statement_readBack {p : Plan} {s : String} (h : p.statement = .ok s) :
    ReadBack.statements s.toList = some [p.reading] ∧
      ∀ q : Plan, q.statement = .ok s → q.reading = p.reading := by
  have hread : ∀ q : Plan, q.statement = .ok s →
      ReadBack.statements s.toList = some [q.reading] := by
    intro q hq
    obtain ⟨ls, hls, htokens⟩ := (spells_statement hq).tokens
    exact ReadBack.statements_tokens hq hls htokens
  refine ⟨hread p h, fun q hq => ?_⟩
  have hsame := (hread q hq).symm.trans (hread p h)
  exact List.singleton_inj.mp (Option.some.inj hsame)

/-- A plan whose names and texts try to end their quotations. -/
def hostilePlan : Plan :=
  ⟨"t\"; DROP TABLE t; --", [.column "a\" FROM b" (some "x"), .aggregate .count none none],
    some (.all [.compare "a" .eq (.text "' OR '1'='1"), .any [.not (.isNull "b")],
      .compare "c" .lt (.int (-7))]),
    ["a\" FROM b"], [⟨"x", true⟩], some 5⟩

theorem statement_readBack_hostilePlan :
    hostilePlan.statement = .ok ("SELECT \"a\"\" FROM b\" AS \"x\", COUNT(*) FROM " ++
      "\"t\"\"; DROP TABLE t; --\" WHERE (\"a\" = ''' OR ''1''=''1') AND " ++
      "((NOT (\"b\" IS NULL))) AND (\"c\" < -7) GROUP BY \"a\"\" FROM b\" " ++
      "ORDER BY \"x\" DESC LIMIT 5") ∧
    ∃ s, hostilePlan.statement = .ok s ∧
      ReadBack.statements s.toList = some [hostilePlan.reading] :=
  ⟨rfl, _, rfl, (statement_readBack rfl).1⟩

end Enclave
