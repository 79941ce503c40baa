import Enclave.Plan.Statement
import Enclave.Proofs.Outcome
import Mathlib.Data.List.Forall2

/-!
# What a written plan is made of

A plan that has a statement is taken apart as its statement was put together: every lemma names
the texts of the parts and how they stand in the text of the whole.
-/

namespace Enclave

theorem forall₂_exists_of_mem {α β : Type} {R : α → β → Prop} {as : List α} {bs : List β}
    (h : List.Forall₂ R as bs) {a : α} (ha : a ∈ as) : ∃ b ∈ bs, R a b := by
  induction h with
  | nil => cases ha
  | cons hab _ ih =>
    obtain rfl | ha := List.mem_cons.mp ha
    · exact ⟨_, List.mem_cons_self, hab⟩
    · obtain ⟨b, hb, hab⟩ := ih ha
      exact ⟨b, List.mem_cons_of_mem _ hb, hab⟩

namespace Condition

/-- Conditions by their parts. -/
theorem byParts {motive : Condition → Prop}
    (compare : ∀ column how value, motive (.compare column how value))
    (isNull : ∀ column, motive (.isNull column))
    (isNotNull : ∀ column, motive (.isNotNull column))
    (all : ∀ parts, (∀ p ∈ parts, motive p) → motive (.all parts))
    (any : ∀ parts, (∀ p ∈ parts, motive p) → motive (.any parts))
    (not : ∀ inner, motive inner → motive (.not inner)) (c : Condition) : motive c :=
  match c with
  | .compare column how value => compare column how value
  | .isNull column => isNull column
  | .isNotNull column => isNotNull column
  | .all parts => all parts fun p _ => byParts compare isNull isNotNull all any not p
  | .any parts => any parts fun p _ => byParts compare isNull isNotNull all any not p
  | .not inner => not inner (byParts compare isNull isNotNull all any not inner)

/-- A part of a junction has a text of its own, which stands there in brackets. -/
def WrittenPart (p : Condition) (s : String) : Prop :=
  ∃ inner, p.statement = .ok inner ∧ s = "(" ++ inner ++ ")"

theorem parts_of_partStatements {ps : List Condition} {ss : List String}
    (h : partStatements ps = .ok ss) : List.Forall₂ WrittenPart ps ss := by
  induction ps generalizing ss with
  | nil =>
    rw [partStatements] at h
    cases h
    exact .nil
  | cons p ps ih =>
    rw [partStatements] at h
    split at h
    · cases h
    rename_i s hs
    split at h
    · cases h
    rename_i rest hrest
    cases h
    exact .cons ⟨s, hs, rfl⟩ (ih hrest)

theorem parts_of_statement_all {ps : List Condition} {s : String}
    (h : (Condition.all ps).statement = .ok s) :
    ps ≠ [] ∧ ∃ ss, List.Forall₂ WrittenPart ps ss ∧ s = Text.joined " AND " ss := by
  cases ps with
  | nil => cases h
  | cons p ps =>
    rw [statement] at h
    obtain ⟨ss, hss, rfl⟩ := map_eq_ok.mp h
    exact ⟨List.cons_ne_nil _ _, ss, parts_of_partStatements hss, rfl⟩

theorem parts_of_statement_any {ps : List Condition} {s : String}
    (h : (Condition.any ps).statement = .ok s) :
    ps ≠ [] ∧ ∃ ss, List.Forall₂ WrittenPart ps ss ∧ s = Text.joined " OR " ss := by
  cases ps with
  | nil => cases h
  | cons p ps =>
    rw [statement] at h
    obtain ⟨ss, hss, rfl⟩ := map_eq_ok.mp h
    exact ⟨List.cons_ne_nil _ _, ss, parts_of_partStatements hss, rfl⟩

theorem inner_of_statement_not {c : Condition} {s : String}
    (h : (Condition.not c).statement = .ok s) :
    ∃ inner, c.statement = .ok inner ∧ s = "NOT (" ++ inner ++ ")" := by
  rw [statement] at h
  split at h
  · cases h
  · rename_i inner hinner
    cases h
    exact ⟨inner, hinner, rfl⟩

theorem value_of_statement_compare {column : String} {how : Comparison} {value : Literal}
    {s : String} (h : (Condition.compare column how value).statement = .ok s) :
    ∃ v, value.statement = .ok v ∧ s = quoteName column ++ " " ++ how.symbol ++ " " ++ v := by
  rw [statement] at h
  split at h
  · cases h
  · rename_i v hv
    cases h
    exact ⟨v, hv, rfl⟩

end Condition

theorem items_of_selectionStatements {items : List Selection} {ss : List String}
    (h : selectionStatements items = .ok ss) :
    List.Forall₂ (fun i s => i.statement = .ok s) items ss := by
  induction items generalizing ss with
  | nil =>
    rw [selectionStatements] at h
    cases h
    exact .nil
  | cons i items ih =>
    rw [selectionStatements] at h
    split at h
    · cases h
    rename_i s hs
    split at h
    · cases h
    rename_i rest hrest
    cases h
    exact .cons hs (ih hrest)

namespace Plan

theorem filter_of_whereClause {p : Plan} {rows : String} (h : p.whereClause = .ok rows) :
    p.filter = none ∧ rows = "" ∨
      ∃ c s, p.filter = some c ∧ c.statement = .ok s ∧ rows = " WHERE " ++ s := by
  unfold whereClause at h
  split at h
  · rename_i hfilter
    cases h
    exact .inl ⟨hfilter, rfl⟩
  · rename_i c hfilter
    split at h
    · cases h
    · rename_i s hs
      cases h
      exact .inr ⟨c, s, hfilter, hs, rfl⟩

/-- The text of the bound on the rows. -/
def limitClause (p : Plan) : String :=
  match p.limit with
  | some n => " LIMIT " ++ Decimal.natText n
  | none => ""

/-- The texts of the selections and of the condition, and the statement around them. -/
structure Clauses (p : Plan) (items : List String) (rows statement : String) : Prop where
  nonempty : p.select ≠ []
  selected : List.Forall₂ (fun i s => i.statement = .ok s) p.select items
  filtered : p.whereClause = .ok rows
  text : statement = "SELECT " ++ Text.joined ", " items ++ " FROM " ++ quoteName p.table ++ rows ++
    listClause " GROUP BY " (p.groupBy.map quoteName) ++
    listClause " ORDER BY " (p.orderBy.map SortKey.statement) ++ p.limitClause

theorem clauses_of_statement {p : Plan} {s : String} (h : p.statement = .ok s) :
    ∃ items rows, p.Clauses items rows s := by
  unfold statement at h
  by_cases hselect : p.select.isEmpty = true
  · rw [if_pos hselect] at h
    cases h
  · rw [if_neg hselect] at h
    obtain ⟨items, hitems, h⟩ := bind_eq_ok.mp h
    obtain ⟨rows, hrows, h⟩ := bind_eq_ok.mp h
    refine ⟨items, rows, ?_, items_of_selectionStatements hitems, hrows, ?_⟩
    · simpa using hselect
    · exact (pure_eq_ok.mp h).symm

end Plan

end Enclave
