import Enclave.Proofs.Decimal.Numeral
import Enclave.Proofs.Plan.Reading
import Enclave.Proofs.Plan.Statement

/-!
# The tokens of a plan

`Plan.tokens` are the tokens that the statement of a plan should have: one for every name and every
text, whatever characters they hold. `statements_tokens` says that the reader makes of them the
plan and nothing else.

Conditions carry the argument. The parts of a junction and the operand of a negation stand in
brackets, so each can be read by the weakest rule whatever stands behind it; `filterWithin_tokens`
is an induction over the condition with arbitrary tokens behind it.
-/

namespace Enclave

open Sql (Token)

/-- A keyword. -/
def wordToken (k : String) : Token := .word k none

/-- A name between double quotes. -/
def nameToken (n : String) : Token := .word n (some '"')

/-- A number, perhaps with a sign in front. -/
def numberTokens (text : String) : List Token :=
  match text.toList with
  | '-' :: digits => [.symbol "-", .number (String.ofList digits) false]
  | _ => [.number text false]

/-- Tokens between brackets. -/
def bracketed (ts : List Token) : List Token := .symbol "(" :: (ts ++ [.symbol ")"])

/-- Lists of tokens with a separator between neighbours. -/
def separated (separator : Token) : List (List Token) → List Token
  | [] => []
  | [ts] => ts
  | ts :: rest => ts ++ separator :: separated separator rest

/-- The tokens of a literal. -/
def Literal.tokens : Literal → List Token
  | .null => [wordToken "NULL"]
  | .bool b => [wordToken (if b then "TRUE" else "FALSE")]
  | .int n => numberTokens (Decimal.intText n)
  | .float f => numberTokens (statementNotation.render f)
  | .text s => [.text .plain s]

/-- The tokens of a condition. -/
def Condition.tokens : Condition → List Token
  | .compare column how value => nameToken column :: .symbol how.symbol :: value.tokens
  | .isNull column => [nameToken column, wordToken "IS", wordToken "NULL"]
  | .isNotNull column => [nameToken column, wordToken "IS", wordToken "NOT", wordToken "NULL"]
  | .all parts => separated (wordToken "AND") (parts.map fun p => bracketed (Condition.tokens p))
  | .any parts => separated (wordToken "OR") (parts.map fun p => bracketed (Condition.tokens p))
  | .not inner => wordToken "NOT" :: bracketed inner.tokens

/-- The tokens of a selected expression. -/
def Selection.expressionTokens : Selection → List Token
  | .column name _ => [nameToken name]
  | .aggregate how target _ =>
    wordToken how.keyword :: bracketed [(target.map nameToken).getD (.symbol "*")]

/-- The tokens of a selection. -/
def Selection.tokens (s : Selection) : List Token :=
  s.expressionTokens ++ (s.label?.map fun a => [wordToken "AS", nameToken a]).getD []

/-- The tokens of a key of the order. -/
def SortKey.tokens (k : SortKey) : List Token :=
  [nameToken k.column, wordToken (if k.descending then "DESC" else "ASC")]

/-- The tokens of a clause that is left out when it has no items. -/
def clauseTokens (first second : String) (items : List (List Token)) : List Token :=
  if items.isEmpty then []
  else wordToken first :: wordToken second :: separated (.symbol ",") items

/-- The tokens of a plan. -/
def Plan.tokens (p : Plan) : List Token :=
  wordToken "SELECT" :: separated (.symbol ",") (p.select.map Selection.tokens) ++
    wordToken "FROM" :: nameToken p.table ::
    ((p.filter.map fun c => wordToken "WHERE" :: c.tokens).getD [] ++
      clauseTokens "GROUP" "BY" (p.groupBy.map fun n => [nameToken n]) ++
      clauseTokens "ORDER" "BY" (p.orderBy.map SortKey.tokens) ++
      (p.limit.map fun n => [wordToken "LIMIT", .number (Decimal.natText n) false]).getD [])

namespace ReadBack

variable {α β : Type}

/-! ## Single steps of a reader -/

/-- The first of some tokens, if there is one, does not say what is asked for. -/
def Stops (f : Token → Option α) (ts : List Token) : Prop := ∀ t ∈ ts.head?, f t = none

theorem stops_nil (f : Token → Option α) : Stops f [] := nofun

theorem stops_cons {f : Token → Option α} {t : Token} (h : f t = none) (ts : List Token) :
    Stops f (t :: ts) := by
  rintro _ ⟨⟩
  exact h

theorem bind_eq {r : Reader α} {f : α → Reader β} {ts rest : List Token} {a : α}
    (h : r ts = some (a, rest)) : (r >>= f) ts = f a rest := by
  simp [bind, StateT.bind, h]

theorem map_eq {r : Reader α} {f : α → β} {ts rest : List Token} {a : α}
    (h : r ts = some (a, rest)) : (f <$> r) ts = some (f a, rest) := by
  simp [Functor.map, StateT.map, h]

theorem take_eq {f : Token → Option α} {t : Token} {a : α} (h : f t = some a) (ts : List Token) :
    take f (t :: ts) = some (a, ts) := by
  simp [take, h]

theorem accept_eq {f : Token → Option α} {t : Token} {a : α} (h : f t = some a)
    (ts : List Token) : accept f (t :: ts) = some (some a, ts) := by
  simp [accept, h]

theorem accept_stops {f : Token → Option α} {ts : List Token} (h : Stops f ts) :
    accept f ts = some (none, ts) := by
  cases ts with
  | nil => rfl
  | cons t rest =>
    have ht : f t = none := h t rfl
    simp [accept, ht]

theorem behind_eq {f : Token → Option α} {t : Token} {a : α} (h : f t = some a) (r : Reader β)
    (otherwise : β) (ts : List Token) : behind f r otherwise (t :: ts) = r ts := by
  rw [behind, bind_eq (accept_eq h ts)]

theorem behind_stops {f : Token → Option α} {ts : List Token} (h : Stops f ts) (r : Reader β)
    (otherwise : β) : behind f r otherwise ts = some (otherwise, ts) := by
  rw [behind, bind_eq (accept_stops h)]
  rfl

/-! ## Chains -/

theorem separated_cons {t : Token} {ts : List Token} {tss : List (List Token)} (h : tss ≠ []) :
    separated t (ts :: tss) = ts ++ t :: separated t tss := by
  cases tss with
  | nil => exact absurd rfl h
  | cons _ _ => rfl

theorem length_le_separated {t : Token} {ts : List Token} {tss : List (List Token)}
    (h : ts ∈ tss) : ts.length ≤ (separated t tss).length := by
  induction tss with
  | nil => cases h
  | cons us tss ih =>
    by_cases hne : tss = []
    · subst hne
      obtain rfl := List.mem_singleton.mp h
      exact Nat.le_refl _
    · rw [separated_cons hne, List.length_append, List.length_cons]
      obtain rfl | hmem := List.mem_cons.mp h
      · omega
      · have hlength := ih hmem
        omega

theorem length_le_succ_separated (t : Token) (tss : List (List Token)) :
    tss.length ≤ (separated t tss).length + 1 := by
  induction tss with
  | nil => exact Nat.zero_le _
  | cons us tss ih =>
    by_cases hne : tss = []
    · subst hne
      exact Nat.le_add_left 1 _
    · rw [separated_cons hne, List.length_cons, List.length_append, List.length_cons]
      omega

section Chains

variable {γ : Type} {r : Reader α} {separator : Token → Option Unit} {t : Token}
  {toks : γ → List Token} {v : γ → α} {P : List Token → Prop}

theorem chainWithin_eq (ht : separator t = some ()) (hok : ∀ rest, P (t :: rest)) {n : Nat}
    {xs : List γ} (hne : xs ≠ []) (hn : xs.length ≤ n)
    (hitem : ∀ x ∈ xs, ∀ rest, P rest → r (toks x ++ rest) = some (v x, rest))
    {rest : List Token} (hrest : P rest) (hstop : Stops separator rest) :
    chainWithin r separator n (separated t (xs.map toks) ++ rest)
      = some (xs.map v, rest) := by
  induction n generalizing xs with
  | zero => exact absurd (List.eq_nil_of_length_eq_zero (Nat.le_zero.mp hn)) hne
  | succ n ih =>
    obtain ⟨x, xs, rfl⟩ := List.exists_cons_of_ne_nil hne
    have hx := hitem x List.mem_cons_self
    by_cases hxs : xs = []
    · -- Behind the last thing the chain stops.
      subst hxs
      rw [chainWithin, List.map_singleton, separated, bind_eq (hx rest hrest),
        bind_eq (behind_stops hstop _ _)]
      rfl
    · have hmore := ih hxs (Nat.le_of_succ_le_succ hn)
        fun y hy => hitem y (List.mem_cons_of_mem _ hy)
      rw [chainWithin, List.map_cons, separated_cons (by simpa using hxs), List.append_assoc,
        List.cons_append, bind_eq (hx _ (hok _)), bind_eq ((behind_eq ht _ _ _).trans hmore)]
      rfl

/-- Things with separators between them are read one by one. `P` is what a thing wants to see
behind it. -/
theorem chain_eq (ht : separator t = some ()) (hok : ∀ rest, P (t :: rest)) {xs : List γ}
    (hne : xs ≠ [])
    (hitem : ∀ x ∈ xs, ∀ rest, P rest → r (toks x ++ rest) = some (v x, rest))
    {rest : List Token} (hrest : P rest) (hstop : Stops separator rest) :
    chain r separator (separated t (xs.map toks) ++ rest) = some (xs.map v, rest) := by
  refine chainWithin_eq ht hok hne ?_ hitem hrest hstop
  have hlength := length_le_succ_separated t (xs.map toks)
  rw [List.length_map] at hlength
  rw [List.length_append]
  omega

/-- One thing alone is a chain. -/
theorem chain_single {ts rest : List Token} {a : α} (h : r (ts ++ rest) = some (a, rest))
    (hstop : Stops separator rest) : chain r separator (ts ++ rest) = some ([a], rest) := by
  rw [chain, chainWithin, bind_eq h, bind_eq (behind_stops hstop _ _)]
  rfl

end Chains

/-! ## Constants -/

theorem numberTokens_eq (negative : Bool) {c : Char} {cs : List Char} (hc : c.isDigit = true) :
    numberTokens (String.ofList (if negative then '-' :: c :: cs else c :: cs))
      = (if negative then [.symbol "-"] else []) ++ [.number (String.ofList (c :: cs)) false] := by
  cases negative with
  | true => simp [numberTokens]
  | false =>
    have hne : c ≠ '-' := Decimal.ne_of_isDigit hc rfl
    simp [numberTokens, hne]

theorem constant_of_plain {t : Token} {c : Constant} (h : plainConstant t = some c)
    (hsign : symbol "-" t = none) (rest : List Token) :
    constant (t :: rest) = some (c, rest) := by
  rw [constant, bind_eq (accept_stops (stops_cons hsign rest))]
  exact take_eq h rest

theorem constant_number (negative : Bool) (text : String) (rest : List Token) :
    constant ((if negative then [.symbol "-"] else []) ++ [.number text false] ++ rest)
      = some (numberOf negative text, rest) := by
  cases negative with
  | true =>
    have hsign : symbol "-" (.symbol "-") = some () := by decide
    change constant (.symbol "-" :: .number text false :: rest) = _
    rw [constant, bind_eq (accept_eq hsign _)]
    exact bind_eq (take_eq (f := digits) rfl rest)
  | false => exact constant_of_plain rfl rfl rest

theorem numberOf_natText (negative : Bool) (n : Nat) :
    numberOf negative (Decimal.natText n) = .int (if negative then -n else n) := by
  rw [numberOf, if_pos (Decimal.natText_isDigit n), Decimal.ofDigitChars_natText]

theorem numberOf_decimal (negative : Bool) {cs : List Char}
    (h : ∃ c ∈ cs, c.isDigit = false) : numberOf negative (String.ofList cs)
      = .decimal (String.ofList (if negative then '-' :: cs else cs)) := by
  have hall : cs.all Char.isDigit = false := by
    obtain ⟨c, hc, hdigit⟩ := h
    exact List.all_eq_false.mpr ⟨c, hc, by simp [hdigit]⟩
  simp only [numberOf, String.toList_ofList, hall]
  cases negative
  · rfl
  · exact congrArg Constant.decimal (String.toList_injective (by simp))

/-- The tokens of a literal are read as the literal. -/
theorem constant_tokens {l : Literal} {v : String} (h : l.statement = .ok v) (rest : List Token) :
    constant (l.tokens ++ rest) = some (l.reading, rest) := by
  cases l with
  | null => cases h
  | bool b => cases b <;> exact constant_of_plain (by decide) (by decide) rest
  | text s => exact constant_of_plain rfl rfl rest
  | int n =>
    obtain ⟨negative, htext, hvalue⟩ := Decimal.intText_eq n
    have hdigits := Decimal.digits_digitChars n.natAbs
    obtain ⟨c, cs, hcs⟩ := List.exists_cons_of_ne_nil hdigits.nonempty
    have hc : c.isDigit = true := hdigits.digit c (by rw [hcs]; exact List.mem_cons_self)
    rw [Literal.tokens, Literal.reading, htext, hcs, numberTokens_eq negative hc,
      constant_number, ← hcs, ← Decimal.natText, numberOf_natText, hvalue]
  | float f =>
    have hfinite : Decimal.isFinite f = true := by
      simp only [Literal.statement] at h
      split at h
      · assumption
      · cases h
    obtain ⟨negative, w, p, x, hrender, hne, hnumeral⟩ :=
      Decimal.Notation.render_numeral (c := statementNotation) rfl hfinite
    obtain ⟨c, cs, hcs, hc⟩ := hnumeral.head_isDigit
    rw [Literal.tokens, Literal.reading, hrender, hcs, numberTokens_eq negative hc,
      constant_number, ← hcs, numberOf_decimal negative (hnumeral.exists_notDigit hne)]

/-! ## Conditions -/

theorem primary_name (inner : Reader Filter) (column : String) (ts : List Token) :
    primary inner (nameToken column :: ts) = columnTest (nameToken column :: ts) := by
  have hbracket : symbol "(" (nameToken column) = none := rfl
  rw [primary, bind_eq (accept_stops (stops_cons hbracket ts))]

theorem negation_primary (inner : Reader Filter) {t : Token} (h : keyword "NOT" t = none)
    (ts : List Token) : negation inner (t :: ts) = primary inner (t :: ts) := by
  rw [negation, h]

theorem negation_bracketed {inner : Reader Filter} {ts rest : List Token} {c : Filter}
    (h : inner (ts ++ .symbol ")" :: rest) = some (c, .symbol ")" :: rest)) :
    negation inner (bracketed ts ++ rest) = some (c, rest) := by
  have hopen : symbol "(" (.symbol "(") = some () := by decide
  have hclose : symbol ")" (.symbol ")") = some () := by decide
  have htokens : bracketed ts ++ rest = .symbol "(" :: (ts ++ .symbol ")" :: rest) := by
    simp [bracketed]
  rw [htokens, negation_primary inner rfl, primary, bind_eq (accept_eq hopen _)]
  dsimp only
  rw [bind_eq h, bind_eq (take_eq hclose rest)]
  rfl

theorem negation_not {inner : Reader Filter} {ts rest : List Token} {c : Filter}
    (h : inner (ts ++ .symbol ")" :: rest) = some (c, .symbol ")" :: rest)) :
    negation inner (wordToken "NOT" :: bracketed ts ++ rest) = some (.not c, rest) := by
  have hnot : keyword "NOT" (wordToken "NOT") = some () := by decide
  rw [List.cons_append, negation, hnot]
  simp only [negation_bracketed h, Option.map_some]

/-- What binds like a negation is a condition where neither `AND` nor `OR` follows. -/
theorem conjunction_single {inner : Reader Filter} {ts rest : List Token} {c : Filter}
    (h : negation inner (ts ++ rest) = some (c, rest)) (hand : Stops (keyword "AND") rest) :
    conjunction inner (ts ++ rest) = some (c, rest) :=
  map_eq (chain_single (r := negation inner) h hand)

theorem disjunction_single {inner : Reader Filter} {ts rest : List Token} {c : Filter}
    (h : conjunction inner (ts ++ rest) = some (c, rest)) (hor : Stops (keyword "OR") rest) :
    disjunction inner (ts ++ rest) = some (c, rest) :=
  map_eq (chain_single h hor)

theorem filter_test {depth : Nat} {column : String} {ts more rest : List Token} {c : Filter}
    (hts : ts = nameToken column :: more) (h : columnTest (ts ++ rest) = some (c, rest))
    (hand : Stops (keyword "AND") rest) (hor : Stops (keyword "OR") rest) :
    filterWithin (depth + 1) (ts ++ rest) = some (c, rest) := by
  rw [filterWithin]
  refine disjunction_single (conjunction_single ?_ hand) hor
  subst hts
  rw [List.cons_append] at h ⊢
  rw [negation_primary _ rfl, primary_name, h]

theorem columnTest_compare {column : String} {how : Comparison} {value : Literal} {v : String}
    (hv : value.statement = .ok v) (rest : List Token) :
    columnTest ((Condition.compare column how value).tokens ++ rest)
      = some (.compare column how value.reading, rest) := by
  have hname : name (nameToken column) = some column := rfl
  have his : keyword "IS" (.symbol how.symbol) = none := rfl
  have hhow : comparison (.symbol how.symbol) = some how := by cases how <;> rfl
  rw [Condition.tokens, List.cons_append, List.cons_append, columnTest,
    bind_eq (take_eq hname _), bind_eq (accept_stops (stops_cons his _))]
  dsimp only
  rw [bind_eq (take_eq hhow _), bind_eq (constant_tokens hv rest)]
  rfl

theorem columnTest_isNull (column : String) (rest : List Token) :
    columnTest ((Condition.isNull column).tokens ++ rest) = some (.isNull column, rest) := by
  have hname : name (nameToken column) = some column := rfl
  have his : keyword "IS" (wordToken "IS") = some () := by decide
  have hnot : keyword "NOT" (wordToken "NULL") = none := by decide
  have hnull : keyword "NULL" (wordToken "NULL") = some () := by decide
  rw [Condition.tokens]
  change columnTest (nameToken column :: wordToken "IS" :: wordToken "NULL" :: rest) = _
  rw [columnTest, bind_eq (take_eq hname _), bind_eq (accept_eq his _)]
  dsimp only
  rw [bind_eq (accept_stops (stops_cons hnot _))]
  exact bind_eq (take_eq hnull rest)

theorem columnTest_isNotNull (column : String) (rest : List Token) :
    columnTest ((Condition.isNotNull column).tokens ++ rest)
      = some (.isNotNull column, rest) := by
  have hname : name (nameToken column) = some column := rfl
  have his : keyword "IS" (wordToken "IS") = some () := by decide
  have hnot : keyword "NOT" (wordToken "NOT") = some () := by decide
  have hnull : keyword "NULL" (wordToken "NULL") = some () := by decide
  rw [Condition.tokens]
  change columnTest (nameToken column :: wordToken "IS" :: wordToken "NOT" :: wordToken "NULL"
    :: rest) = _
  rw [columnTest, bind_eq (take_eq hname _), bind_eq (accept_eq his _)]
  dsimp only
  rw [bind_eq (accept_eq hnot _)]
  exact bind_eq (take_eq hnull rest)

theorem length_bracketed (ts : List Token) : (bracketed ts).length = ts.length + 2 := by
  simp [bracketed]

/-- The parts of a junction leave room for one more pair of brackets. -/
theorem length_part_lt {t : Token} {parts : List Condition} {p : Condition} (hp : p ∈ parts)
    {depth : Nat}
    (hd : (separated t (parts.map fun p => bracketed p.tokens)).length ≤ depth + 1) :
    p.tokens.length ≤ depth := by
  have hlength := length_le_separated (t := t)
    (List.mem_map_of_mem (f := fun p : Condition => bracketed p.tokens) hp)
  rw [length_bracketed] at hlength
  omega

/-- A condition has tokens, so there is room for its outermost rule. -/
theorem exists_depth {c : Condition} {s : String} (h : c.statement = .ok s) {depth : Nat}
    (hd : c.tokens.length ≤ depth) : ∃ d, depth = d + 1 := by
  suffices hpos : 0 < c.tokens.length by exact Nat.exists_eq_add_one.mpr (by omega)
  have hjunction : ∀ (t : Token) {parts : List Condition}, parts ≠ [] →
      0 < (separated t (parts.map fun p => bracketed p.tokens)).length := by
    intro t parts hne
    obtain ⟨p, ps, rfl⟩ := List.exists_cons_of_ne_nil hne
    have hlength := length_le_separated (t := t)
      (List.mem_map_of_mem (f := fun p : Condition => bracketed p.tokens)
        (List.mem_cons_self (a := p) (l := ps)))
    rw [length_bracketed] at hlength
    omega
  cases c with
  | compare | isNull | isNotNull | not => simp [Condition.tokens]
  | all parts =>
    rw [Condition.tokens]
    exact hjunction _ (Condition.parts_of_statement_all h).1
  | any parts =>
    rw [Condition.tokens]
    exact hjunction _ (Condition.parts_of_statement_any h).1

/-- The tokens of a condition are read as the condition, whatever else follows that is neither
`AND` nor `OR`. -/
theorem filterWithin_tokens {c : Condition} {s : String} (h : c.statement = .ok s) {depth : Nat}
    (hd : c.tokens.length ≤ depth) {rest : List Token} (hand : Stops (keyword "AND") rest)
    (hor : Stops (keyword "OR") rest) :
    filterWithin depth (c.tokens ++ rest) = some (c.reading, rest) := by
  have hclose : ∀ (k : String) (rest : List Token), k ≠ "" →
      Stops (keyword k) (.symbol ")" :: rest) :=
    fun k rest hk => stops_cons (if_neg (Ne.symm hk)) rest
  induction c using Condition.byParts generalizing s depth rest with
  | compare column how value =>
    obtain ⟨depth, rfl⟩ := exists_depth h hd
    obtain ⟨v, hv, -⟩ := Condition.value_of_statement_compare h
    rw [Condition.reading]
    exact filter_test (by rw [Condition.tokens]) (columnTest_compare hv rest) hand hor
  | isNull column =>
    obtain ⟨depth, rfl⟩ := exists_depth h hd
    rw [Condition.reading]
    exact filter_test (by rw [Condition.tokens]) (columnTest_isNull column rest) hand hor
  | isNotNull column =>
    obtain ⟨depth, rfl⟩ := exists_depth h hd
    rw [Condition.reading]
    exact filter_test (by rw [Condition.tokens]) (columnTest_isNotNull column rest) hand hor
  | not inner ih =>
    obtain ⟨depth, rfl⟩ := exists_depth h hd
    obtain ⟨s, hs, -⟩ := Condition.inner_of_statement_not h
    rw [Condition.tokens, List.length_cons, length_bracketed] at hd
    rw [Condition.tokens, Condition.reading, filterWithin]
    have hroom : inner.tokens.length ≤ depth := by omega
    have hinner := ih hs hroom (hclose "AND" rest (by decide)) (hclose "OR" rest (by decide))
    exact disjunction_single (conjunction_single (negation_not hinner) hand) hor
  | all parts ih =>
    obtain ⟨depth, rfl⟩ := exists_depth h hd
    obtain ⟨hne, ss, hss, -⟩ := Condition.parts_of_statement_all h
    rw [Condition.tokens] at hd
    rw [Condition.tokens, Condition.reading, filterWithin]
    -- A part stands between brackets, so what follows its tokens is the closing bracket.
    refine disjunction_single (map_eq (chain_eq (P := fun _ => True) (by decide)
      (fun _ => trivial) hne (fun p hp rest _ => negation_bracketed ?_) trivial hand)) hor
    obtain ⟨-, -, s, hs, -⟩ := forall₂_exists_of_mem hss hp
    exact ih p hp hs (length_part_lt hp hd) (hclose _ rest (by decide)) (hclose _ rest (by decide))
  | any parts ih =>
    obtain ⟨depth, rfl⟩ := exists_depth h hd
    obtain ⟨hne, ss, hss, -⟩ := Condition.parts_of_statement_any h
    rw [Condition.tokens] at hd
    rw [Condition.tokens, Condition.reading, filterWithin]
    -- `OR` is the weaker operator: each part has to be a whole conjunction, which `OR` ends.
    refine map_eq (chain_eq (P := Stops (keyword "AND")) (by decide)
      (fun rest => stops_cons (by decide) rest) hne
      (fun p hp rest hrest => conjunction_single (negation_bracketed ?_) hrest) hand hor)
    obtain ⟨-, -, s, hs, -⟩ := forall₂_exists_of_mem hss hp
    exact ih p hp hs (length_part_lt hp hd) (hclose _ rest (by decide)) (hclose _ rest (by decide))

/-! ## Statements -/

theorem operand_tokens {how : Aggregate} {target : Option String}
    (h : target = none → how = .count) (rest : List Token) :
    operand how ((target.map nameToken).getD (.symbol "*") :: rest) = some (target, rest) := by
  cases target with
  | none =>
    obtain rfl := h rfl
    have hstar : symbol "*" (.symbol "*") = some () := by decide
    rw [operand]
    exact bind_eq (accept_eq hstar rest)
  | some n =>
    have hstar : symbol "*" (nameToken n) = none := rfl
    have hname : name (nameToken n) = some n := rfl
    rw [operand]
    change (accept (symbol "*") >>= _) (nameToken n :: rest) = _
    rw [bind_eq (accept_stops (stops_cons hstar rest))]
    exact map_eq (take_eq hname rest)

theorem expression_column (n : String) (rest : List Token) :
    expression (nameToken n :: rest) = some (.column n, rest) := by
  have hname : name (nameToken n) = some n := rfl
  rw [expression, bind_eq (accept_stops (stops_cons rfl rest))]
  exact map_eq (take_eq hname rest)

theorem expression_aggregate {how : Aggregate} {target : Option String}
    (h : target = none → how = .count) (rest : List Token) :
    expression (wordToken how.keyword ::
        bracketed [(target.map nameToken).getD (.symbol "*")] ++ rest)
      = some (.aggregate how target, rest) := by
  have hword : aggregate (wordToken how.keyword) = some how := by cases how <;> decide
  have hopen : symbol "(" (.symbol "(") = some () := by decide
  have hclose : symbol ")" (.symbol ")") = some () := by decide
  change expression (wordToken how.keyword :: .symbol "(" ::
    (target.map nameToken).getD (.symbol "*") :: .symbol ")" :: rest) = _
  rw [expression, bind_eq (accept_eq hword _)]
  dsimp only
  rw [bind_eq (take_eq hopen _), bind_eq (operand_tokens h _), bind_eq (take_eq hclose _)]
  rfl

/-- The tokens of a selection are read as the selection. -/
theorem selection_tokens {i : Selection} {s : String} (h : i.statement = .ok s)
    {rest : List Token} (hrest : Stops (keyword "AS") rest) :
    selection (i.tokens ++ rest) = some (i, rest) := by
  have hlabel : ∀ a : Option String, behind (keyword "AS") (some <$> take name) none
      ((a.map fun a => [wordToken "AS", nameToken a]).getD [] ++ rest) = some (a, rest) := by
    rintro (_ | a)
    · exact behind_stops hrest _ _
    · have has : keyword "AS" (wordToken "AS") = some () := by decide
      have hname : name (nameToken a) = some a := rfl
      exact (behind_eq has _ _ _).trans (map_eq (take_eq hname rest))
  rw [selection, Selection.tokens, List.append_assoc]
  cases i with
  | column n label =>
    rw [Selection.expressionTokens, List.singleton_append, bind_eq (expression_column n _)]
    exact bind_eq (hlabel label)
  | aggregate how target label =>
    have htarget : target = none → how = .count := by
      rintro rfl
      cases how with
      | count => rfl
      | sum | avg | min | max => cases h
    rw [Selection.expressionTokens, bind_eq (expression_aggregate htarget _)]
    exact bind_eq (hlabel label)

theorem sortKey_tokens (k : SortKey) (rest : List Token) :
    sortKey (k.tokens ++ rest) = some (k, rest) := by
  have hname : name (nameToken k.column) = some k.column := rfl
  have hdirection : direction (wordToken (if k.descending then "DESC" else "ASC"))
      = some k.descending := by
    cases k.descending <;> decide
  rw [sortKey, SortKey.tokens, List.cons_append, bind_eq (take_eq hname _), List.singleton_append,
    bind_eq (accept_eq hdirection rest)]
  rfl

/-- Tokens that begin with one of some keywords, or no tokens. -/
def Begins (ks : List String) (ts : List Token) : Prop := ∀ t ∈ ts.head?, ∃ k ∈ ks, t = wordToken k

theorem Begins.stops {ks : List String} {ts : List Token} (h : Begins ks ts)
    {f : Token → Option α} (hf : ∀ k ∈ ks, f (wordToken k) = none) : Stops f ts := by
  intro t ht
  obtain ⟨k, hk, rfl⟩ := h t ht
  exact hf k hk

theorem Begins.cons {k : String} {ks : List String} (hk : k ∈ ks) (ts : List Token) :
    Begins ks (wordToken k :: ts) := by
  rintro _ ⟨⟩
  exact ⟨k, hk, rfl⟩

theorem Begins.append {ks ls : List String} {ts us : List Token} (hts : Begins ks ts)
    (hus : Begins ls us) : Begins (ks ++ ls) (ts ++ us) := by
  cases ts with
  | nil =>
    intro t ht
    obtain ⟨k, hk, rfl⟩ := hus t ht
    exact ⟨k, List.mem_append_right ks hk, rfl⟩
  | cons t ts =>
    rintro _ ⟨⟩
    obtain ⟨k, hk, rfl⟩ := hts t rfl
    exact ⟨k, List.mem_append_left ls hk, rfl⟩

theorem begins_clauseTokens (first second : String) (items : List (List Token)) :
    Begins [first] (clauseTokens first second items) := by
  unfold clauseTokens
  split
  · exact nofun
  · exact .cons List.mem_cons_self _

theorem listOf_tokens {first second : String} {item : Reader α} {toks : α → List Token}
    (hfirst : keyword first (wordToken first) = some ())
    (hsecond : keyword second (wordToken second) = some ()) {xs : List α}
    (hitem : ∀ x ∈ xs, ∀ rest, item (toks x ++ rest) = some (x, rest)) {ks : List String}
    {rest : List Token} (hrest : Begins ks rest)
    (hks : ∀ k ∈ ks, keyword first (wordToken k) = none) :
    listOf first second item (clauseTokens first second (xs.map toks) ++ rest)
      = some (xs, rest) := by
  unfold listOf clauseTokens
  cases xs with
  | nil => exact behind_stops (hrest.stops hks) _ _
  | cons x xs =>
    have hcomma : ∀ k ∈ ks, symbol "," (wordToken k) = none := fun _ _ => rfl
    have hread := chain_eq (v := id) (P := fun _ => True) (t := .symbol ",") (by decide)
      (fun _ => trivial) (List.cons_ne_nil x xs) (fun y hy rest _ => hitem y hy rest) trivial
      (hrest.stops hcomma)
    rw [List.map_id] at hread
    rw [if_neg (by simp), List.cons_append, List.cons_append, behind_eq hfirst,
      bind_eq (take_eq hsecond _), hread]

theorem groupBy_tokens (names : List String) {rest : List Token}
    (hrest : Begins ["ORDER", "LIMIT"] rest) :
    listOf "GROUP" "BY" (take name)
        (clauseTokens "GROUP" "BY" (names.map fun n => [nameToken n]) ++ rest)
      = some (names, rest) :=
  listOf_tokens (by decide) (by decide) (fun _ _ rest => take_eq (f := name) rfl rest) hrest
    (by decide)

theorem orderBy_tokens (keys : List SortKey) {rest : List Token} (hrest : Begins ["LIMIT"] rest) :
    listOf "ORDER" "BY" sortKey (clauseTokens "ORDER" "BY" (keys.map SortKey.tokens) ++ rest)
      = some (keys, rest) :=
  listOf_tokens (by decide) (by decide) (fun k _ rest => sortKey_tokens k rest) hrest (by decide)

theorem count_natText (n : Nat) : count (.number (Decimal.natText n) false) = some n := by
  change (if (Decimal.natText n).toList.all Char.isDigit then _ else _) = _
  rw [if_pos (Decimal.natText_isDigit n), Decimal.ofDigitChars_natText]

theorem filter_tokens {c : Condition} {s : String} (h : c.statement = .ok s) {rest : List Token}
    (hand : Stops (keyword "AND") rest) (hor : Stops (keyword "OR") rest) :
    filter (c.tokens ++ rest) = some (c.reading, rest) := by
  refine filterWithin_tokens h ?_ hand hor
  rw [List.length_append]
  omega

theorem where_tokens {p : Plan} {rows : String} (h : p.whereClause = .ok rows)
    {rest : List Token} (hrest : Begins ["GROUP", "ORDER", "LIMIT"] rest) :
    behind (keyword "WHERE") (some <$> filter) none
        ((p.filter.map fun c => wordToken "WHERE" :: c.tokens).getD [] ++ rest)
      = some (p.filter.map Condition.reading, rest) := by
  have hwhere : keyword "WHERE" (wordToken "WHERE") = some () := by decide
  obtain ⟨hfilter, -⟩ | ⟨c, s, hfilter, hs, -⟩ := Plan.filter_of_whereClause h
  · rw [hfilter]
    exact behind_stops (hrest.stops (by decide)) _ _
  · rw [hfilter]
    have hread := filter_tokens hs (hrest.stops (by decide)) (hrest.stops (by decide))
    exact (behind_eq hwhere _ _ _).trans (map_eq hread)

theorem limit_tokens (limit : Option Nat) :
    behind (keyword "LIMIT") (some <$> take count) none
        ((limit.map fun n => [wordToken "LIMIT", .number (Decimal.natText n) false]).getD [])
      = some (limit, []) := by
  cases limit with
  | none => exact behind_stops (stops_nil _) _ _
  | some n =>
    have hlimit : keyword "LIMIT" (wordToken "LIMIT") = some () := by decide
    exact (behind_eq hlimit _ _ _).trans (map_eq (take_eq (count_natText n) []))

theorem select_tokens {items : List Selection} {texts : List String} (hne : items ≠ [])
    (h : List.Forall₂ (fun i s => i.statement = .ok s) items texts) (rest : List Token) :
    chain selection (symbol ",")
        (separated (.symbol ",") (items.map Selection.tokens) ++ wordToken "FROM" :: rest)
      = some (items, wordToken "FROM" :: rest) := by
  have hcomma : symbol "," (.symbol ",") = some () := by decide
  have hfrom : keyword "AS" (wordToken "FROM") = none := by decide
  have hitem : ∀ i ∈ items, ∀ rest, Stops (keyword "AS") rest →
      selection (i.tokens ++ rest) = some (i, rest) := by
    intro i hi rest hrest
    obtain ⟨s, -, hs⟩ := forall₂_exists_of_mem h hi
    exact selection_tokens hs hrest
  have hread := chain_eq (v := id) hcomma (fun rest => stops_cons rfl rest) hne hitem
    (stops_cons hfrom rest) (stops_cons rfl rest)
  rwa [List.map_id] at hread

/-- The tokens of a plan are read as one selection, and nothing is left. -/
theorem query_tokens {p : Plan} {s : String} (h : p.statement = .ok s) :
    query p.tokens = some (p.reading, []) := by
  obtain ⟨items, rows, hclauses⟩ := Plan.clauses_of_statement h
  have hselect : keyword "SELECT" (wordToken "SELECT") = some () := by decide
  have hfrom : keyword "FROM" (wordToken "FROM") = some () := by decide
  have htable : name (nameToken p.table) = some p.table := rfl
  -- What can begin the tokens behind each clause.
  have hlimit : Begins ["LIMIT"]
      ((p.limit.map fun n => [wordToken "LIMIT", .number (Decimal.natText n) false]).getD []) := by
    cases p.limit with
    | none => exact nofun
    | some n => exact .cons List.mem_cons_self _
  have horder := (begins_clauseTokens "ORDER" "BY" (p.orderBy.map SortKey.tokens)).append hlimit
  have hgroup := (begins_clauseTokens "GROUP" "BY" (p.groupBy.map fun n => [nameToken n])).append
    horder
  rw [Plan.tokens, List.cons_append, query, bind_eq (take_eq hselect _)]
  simp only [List.append_assoc]
  rw [bind_eq (select_tokens hclauses.nonempty hclauses.selected _), bind_eq (take_eq hfrom _),
    bind_eq (take_eq htable _), bind_eq (where_tokens hclauses.filtered hgroup)]
  rw [bind_eq (groupBy_tokens p.groupBy horder), bind_eq (orderBy_tokens p.orderBy hlimit),
    bind_eq (limit_tokens p.limit)]
  rfl

/-- A text with the tokens of a plan holds one statement, which is read as the plan. -/
theorem statements_tokens {p : Plan} {s : String} (h : p.statement = .ok s) {text : List Char}
    {ls : List Sql.Lexeme} (hls : Sql.lexemes text = some ls)
    (htokens : Sql.grammarTokens ls = p.tokens) : statements text = some [p.reading] := by
  have hread := query_tokens h
  rw [← List.append_nil p.tokens] at hread
  have hchain : chain query (symbol ";") (p.tokens ++ []) = some ([p.reading], []) :=
    chain_single hread (stops_nil _)
  rw [List.append_nil, ← htokens] at hchain
  simp [statements, hls, hchain]

end ReadBack

end Enclave
