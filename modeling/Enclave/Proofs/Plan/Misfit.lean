import Enclave.Proofs.Plan.Judgement
import Enclave.Proofs.Plan.Nodes

/-!
# Which plans fit a dataset, and what is said of the others

`Plan.Suits` is what a table asks of a plan, told without an order. `Plan.FirstMisfit` is the place
of the first thing that does not fit: the table, the selections, the condition, the keys of the
groups, the keys of the order, the limit. `check_judges` says that `Plan.check` accepts the one and
reports the other; it is put together from a judgement of every part of the check.

A place within the condition is that of the steps to a leaf. The condition is checked as if its
nodes were checked one after the other (`Condition.check_eq_checkEach`).
-/

namespace Enclave

open Decimal (natText)

/-! ## What is asked of a plan -/

/-- A table has a column of a name. -/
def Table.Has (t : Table) (name : String) : Prop := ∃ c ∈ t.columns, c.name = name

/-- The first column of a name. -/
def Table.FirstColumn (t : Table) (name : String) (c : ColumnSchema) : Prop :=
  ∃ i, First (fun c => c.name = name) t.columns i c

/-- The table of a plan: the first one of its name. -/
def Plan.TableIn (p : Plan) (d : Dataset) (t : Table) : Prop :=
  ∃ i, First (fun t => t.name = p.table) d.tables i t

/-- A label that shows nothing. -/
def Blank (label : String) : Prop := ∀ c ∈ label.toList, Text.isBlank c = true

/-- The column that a selection names. -/
def Selection.column? : Selection → Option String
  | .column name _ => some name
  | .aggregate _ name _ => name

namespace Plan

/-- The rows of the answer stand for groups: there are keys, or an aggregate is selected. -/
def Groups (p : Plan) : Prop :=
  p.groupBy ≠ [] ∨ ∃ how column label, Selection.aggregate how column label ∈ p.select

/-- A plan that fits a table. -/
structure Suits (p : Plan) (t : Table) (maxLimit : Nat) : Prop where
  selects : p.select ≠ []
  labelled : ∀ s ∈ p.select, ∀ label ∈ s.label?, ¬ Blank label
  selected : ∀ s ∈ p.select, ∀ name ∈ s.column?, t.Has name
  filtered : ∀ c ∈ p.filter, ∀ steps leaf, c.at? steps = some leaf → ∀ name ∈ leaf.column?,
    t.Has name
  keys : ∀ name ∈ p.groupBy, t.Has name
  accepted : ∀ how name label, Selection.aggregate how (some name) label ∈ p.select →
    ∀ c, t.FirstColumn name c → how.accepts c.type = true
  grouped : p.Groups → ∀ name label, Selection.column name label ∈ p.select → name ∈ p.groupBy
  ordered : ∀ k ∈ p.orderBy, (∃ s ∈ p.select, s.label? = some k.column) ∨ t.Has k.column
  limited : ∀ n ∈ p.limit, 1 ≤ n ∧ n ≤ maxLimit

/-! ## What is reported -/

variable (p : Plan) (t : Table)

/-- What is asked of the label of a selection. -/
def LabelSuits (s : Selection) : Prop := ∀ label ∈ s.label?, ¬ Blank label

/-- What is asked of the column of a selection. -/
structure ColumnSuits (s : Selection) : Prop where
  has : ∀ name ∈ s.column?, t.Has name
  accepted : ∀ how name label, s = .aggregate how (some name) label →
    ∀ c, t.FirstColumn name c → how.accepts c.type = true
  grouped : p.Groups → ∀ name label, s = .column name label → name ∈ p.groupBy

/-- Something is selected, and all of it fits. -/
def SelectsWell : Prop := p.select ≠ [] ∧ ∀ s ∈ p.select, LabelSuits s ∧ p.ColumnSuits t s

/-- A condition that names a column which is not there. -/
def NamesMissing (n : List Condition.Step × Condition) : Prop :=
  ∃ name ∈ n.2.column?, ¬ t.Has name

/-- The condition names columns of the table only. -/
def FiltersWell : Prop := ∀ c ∈ p.filter, ∀ n ∈ c.nodes, ¬ NamesMissing t n

/-- The keys of the groups are columns. -/
def GroupsWell : Prop := ∀ name ∈ p.groupBy, t.Has name

/-- A key of the order is a label of a selection or a column. -/
def KeySuits (k : SortKey) : Prop := (∃ s ∈ p.select, s.label? = some k.column) ∨ t.Has k.column

/-- The keys of the order fit. -/
def OrdersWell : Prop := ∀ k ∈ p.orderBy, p.KeySuits t k

/-- The limit is at least one and not above the ceiling. -/
def LimitsWell (maxLimit : Nat) : Prop := ∀ n ∈ p.limit, 1 ≤ n ∧ n ≤ maxLimit

/-- The first leaf of a condition, from left to right, whose column is missing. No other steps have
its place. -/
structure FirstMissing (c : Condition) (steps : List Condition.Step) : Prop where
  leaf : ∃ n name, c.at? steps = some n ∧ n.column? = some name ∧ ¬ t.Has name
  first : ∃ i n, First (NamesMissing t) c.nodes i (steps, n)
  only : ∀ other, Condition.placeFrom "filter" other ++ ".column" =
    Condition.placeFrom "filter" steps ++ ".column" → other = steps

/-- The place of the first thing in a plan that does not fit. Everything asked for before it is
there. -/
inductive FirstMisfit (d : Dataset) (maxLimit : Nat) : String → Prop
  | table (h : ∀ t ∈ d.tables, t.name ≠ p.table) : FirstMisfit d maxLimit "table"
  | select {t : Table} (ht : p.TableIn d t) (h : p.select = []) : FirstMisfit d maxLimit "select"
  | label {t : Table} {i : Nat} {s : Selection} (ht : p.TableIn d t)
      (hfirst : First (fun s => ¬ (LabelSuits s ∧ p.ColumnSuits t s)) p.select i s)
      (h : ¬ LabelSuits s) : FirstMisfit d maxLimit ("select[" ++ natText i ++ "].alias")
  | column {t : Table} {i : Nat} {s : Selection} (ht : p.TableIn d t)
      (hfirst : First (fun s => ¬ (LabelSuits s ∧ p.ColumnSuits t s)) p.select i s)
      (hlabel : LabelSuits s) (h : ¬ p.ColumnSuits t s) :
      FirstMisfit d maxLimit ("select[" ++ natText i ++ "].column")
  | filter {t : Table} {c : Condition} {steps : List Condition.Step} (ht : p.TableIn d t)
      (hselect : p.SelectsWell t) (hc : p.filter = some c) (h : FirstMissing t c steps) :
      FirstMisfit d maxLimit (Condition.placeFrom "filter" steps ++ ".column")
  | groupBy {t : Table} {i : Nat} {name : String} (ht : p.TableIn d t)
      (hselect : p.SelectsWell t) (hfilter : p.FiltersWell t)
      (h : First (fun name => ¬ t.Has name) p.groupBy i name) :
      FirstMisfit d maxLimit ("group_by[" ++ natText i ++ "]")
  | orderBy {t : Table} {i : Nat} {k : SortKey} (ht : p.TableIn d t)
      (hselect : p.SelectsWell t) (hfilter : p.FiltersWell t) (hgroup : p.GroupsWell t)
      (h : First (fun k => ¬ p.KeySuits t k) p.orderBy i k) :
      FirstMisfit d maxLimit ("order_by[" ++ natText i ++ "].column")
  | limit {t : Table} (ht : p.TableIn d t) (hselect : p.SelectsWell t)
      (hfilter : p.FiltersWell t) (hgroup : p.GroupsWell t) (horder : p.OrdersWell t)
      (h : ¬ p.LimitsWell maxLimit) : FirstMisfit d maxLimit "limit"

end Plan

/-! ## Tables and columns -/

namespace Table

variable {t : Table} {name place : String} {c : ColumnSchema}

theorem column?_eq_some : t.column? name = some c ↔ t.FirstColumn name c := by
  rw [column?]
  exact find?_eq_some_iff_first fun c => beq_iff_eq

theorem FirstColumn.has (h : t.FirstColumn name c) : t.Has name := by
  obtain ⟨i, h⟩ := h
  exact ⟨c, h.mem, h.holds⟩

theorem FirstColumn.unique {c' : ColumnSchema} (h : t.FirstColumn name c)
    (h' : t.FirstColumn name c') : c = c' :=
  Option.some.inj ((column?_eq_some.mpr h).symm.trans (column?_eq_some.mpr h'))

theorem column?_isSome : (t.column? name).isSome = true ↔ t.Has name := by
  rw [column?, List.find?_isSome]
  simp only [Has, beq_iff_eq]

theorem column?_eq_none : t.column? name = none ↔ ¬ t.Has name := by
  rw [← column?_isSome, Option.not_isSome_iff_eq_none]

/-- A column that is asked for is the first one of its name, or its absence is reported. -/
theorem require_cases (t : Table) (name place : String) :
    (∃ c, t.FirstColumn name c ∧ t.require name place = .ok c) ∨
      ¬ t.Has name ∧ ∃ reason, t.require name place = .error (.invalid place reason) := by
  cases hc : t.column? name with
  | some c => exact .inl ⟨c, column?_eq_some.mp hc, by rw [require, hc]⟩
  | none =>
    refine .inr ⟨column?_eq_none.mp hc, ?_⟩
    rw [require, hc]
    exact ⟨_, rfl⟩

theorem require_judges (t : Table) (name place : String) :
    Judges (t.Has name) (fun e => ∃ reason, e = .invalid place reason)
      ((t.require name place).map fun _ => ()) := by
  obtain ⟨c, hc, h⟩ | ⟨hmissing, reason, h⟩ := t.require_cases name place
  · rw [h]
    exact .accepts hc.has
  · rw [h]
    exact .rejects hmissing ⟨reason, rfl⟩

end Table

theorem Plan.tableIn_iff {p : Plan} {d : Dataset} {t : Table} :
    d.table? p.table = some t ↔ p.TableIn d t := by
  rw [Dataset.table?]
  exact find?_eq_some_iff_first fun t => beq_iff_eq

/-! ## The condition -/

namespace Condition

/-- The check of the column that a node names. -/
def checkColumn (t : Table) (place : String) (n : List Step × Condition) : Outcome Unit :=
  match n.2.column? with
  | some name => (t.require name (placeFrom place n.1 ++ ".column")).map fun _ => ()
  | none => .ok ()

theorem checkColumn_judges (t : Table) (place : String) (n : List Step × Condition) :
    Judges (¬ Plan.NamesMissing t n)
      (fun e => ∃ reason, e = .invalid (placeFrom place n.1 ++ ".column") reason)
      (checkColumn t place n) := by
  rw [checkColumn]
  cases hname : n.2.column? with
  | none => exact .accepts (by simp [Plan.NamesMissing, hname])
  | some name =>
    refine (t.require_judges name _).imp ?_ fun e he => he
    simp [Plan.NamesMissing, hname]

theorem checkColumn_behind (t : Table) (place : String) (step : Step)
    (ns : List (List Step × Condition)) :
    checkEach (fun _ => checkColumn t place) 0 (ns.map (behind step)) =
      checkEach (fun _ => checkColumn t (place ++ step.text)) 0 ns :=
  checkEach_map _ _ _ _

theorem checkParts_eq_checkEach {t : Table} {list place : String} {step : Nat → Step}
    {ps : List Condition} (hstep : ∀ i, placeOf list i = place ++ (step i).text)
    (ih : ∀ p ∈ ps, ∀ place, p.check t place = checkEach (fun _ => checkColumn t place) 0 p.nodes)
    (i : Nat) :
    checkParts t list i ps = checkEach (fun _ => checkColumn t place) 0 (partNodes step i ps) := by
  induction ps generalizing i with
  | nil => rfl
  | cons p ps ihps =>
    obtain ⟨hp, hps⟩ := List.forall_mem_cons.mp ih
    rw [checkParts, partNodes, checkEach_append, checkColumn_behind, ← hstep, hp, ihps hps]
    cases checkEach (fun _ => checkColumn t (placeOf list i)) 0 p.nodes <;> rfl

/-- A condition is checked like its nodes, one after the other. -/
theorem check_eq_checkEach (t : Table) (place : String) (c : Condition) :
    c.check t place = checkEach (fun _ => checkColumn t place) 0 c.nodes := by
  induction c using byParts generalizing place with
  | compare column how value =>
    rw [nodes, checkEach_singleton]
    rfl
  | isNull column =>
    rw [nodes, checkEach_singleton]
    rfl
  | isNotNull column =>
    rw [nodes, checkEach_singleton]
    rfl
  | all parts ih =>
    have hroot : checkColumn t place ([], .all parts) = .ok () := rfl
    rw [nodes, checkEach_cons_of_ok hroot, check]
    refine checkParts_eq_checkEach (fun i => ?_) ih 0
    exact String.toList_injective (by simp [placeOf, Step.text])
  | any parts ih =>
    have hroot : checkColumn t place ([], .any parts) = .ok () := rfl
    rw [nodes, checkEach_cons_of_ok hroot, check]
    refine checkParts_eq_checkEach (fun i => ?_) ih 0
    exact String.toList_injective (by simp [placeOf, Step.text])
  | not inner ih =>
    have hroot : checkColumn t place ([], .not inner) = .ok () := rfl
    rw [nodes, checkEach_cons_of_ok hroot, checkColumn_behind, check, ih]
    rfl

theorem check_judges (t : Table) (c : Condition) :
    Judges (∀ n ∈ c.nodes, ¬ Plan.NamesMissing t n)
      (fun e => ∃ steps reason, Plan.FirstMissing t c steps ∧
        e = .invalid (placeFrom "filter" steps ++ ".column") reason)
      (c.check t "filter") := by
  rw [check_eq_checkEach]
  refine (checkEach_judges (fun _ => checkColumn_judges t "filter") 0 c.nodes).imp Iff.rfl ?_
  rintro e ⟨i, ⟨steps, n⟩, hfirst, reason, rfl⟩
  obtain ⟨name, hname, hmissing⟩ := not_not.mp hfirst.holds
  refine ⟨steps, reason, ⟨⟨n, name, mem_nodes.mp hfirst.mem, hname, hmissing⟩, ⟨i, n, ?_⟩, ?_⟩, rfl⟩
  · simpa using hfirst
  · intro other hother
    exact placeFrom_injective "filter" ((String.append_left_inj ".column").mp hother)

end Condition

/-! ## The other parts of the check -/

theorem isBlankText_iff {label : String} : Text.isBlankText label = true ↔ Blank label :=
  List.all_eq_true

theorem checkAlias_judges (place : String) (label? : Option String) :
    Judges (∀ label ∈ label?, ¬ Blank label)
      (fun e => ∃ reason, e = .invalid (place ++ ".alias") reason) (checkAlias place label?) := by
  cases label? with
  | none => exact .accepts (by simp)
  | some label =>
    rw [checkAlias]
    by_cases hblank : Text.isBlankText label = true
    · rw [if_pos hblank]
      exact .rejects (fun h => h label rfl (isBlankText_iff.mp hblank)) ⟨_, rfl⟩
    · rw [if_neg hblank]
      refine .accepts ?_
      rintro _ ⟨⟩
      exact mt isBlankText_iff.mpr hblank

namespace Plan

variable {p : Plan} {t : Table}

theorem isGrouped_iff : p.isGrouped = true ↔ p.Groups := by
  rw [isGrouped, Groups, Bool.or_eq_true, Bool.not_eq_true', List.isEmpty_eq_false_iff,
    List.any_eq_true]
  refine or_congr_right ⟨?_, ?_⟩
  · rintro ⟨s, hs, haggregate⟩
    cases s with
    | column name label => cases haggregate
    | aggregate how name label => exact ⟨how, name, label, hs⟩
  · rintro ⟨how, name, label, hs⟩
    exact ⟨_, hs, rfl⟩

theorem columnSuits_column {name : String} {label : Option String} :
    p.ColumnSuits t (.column name label) ↔ t.Has name ∧ (p.Groups → name ∈ p.groupBy) := by
  constructor
  · intro h
    exact ⟨h.has name rfl, fun hgroups => h.grouped hgroups name label rfl⟩
  · rintro ⟨hhas, hgrouped⟩
    refine ⟨?_, nofun, ?_⟩
    · rintro _ ⟨⟩
      exact hhas
    · rintro hgroups _ _ ⟨⟩
      exact hgrouped hgroups

theorem columnSuits_rows (how : Aggregate) (label : Option String) :
    p.ColumnSuits t (.aggregate how none label) := ⟨nofun, nofun, nofun⟩

theorem columnSuits_aggregate {how : Aggregate} {name : String} {label : Option String} :
    p.ColumnSuits t (.aggregate how (some name) label) ↔
      t.Has name ∧ ∀ c, t.FirstColumn name c → how.accepts c.type = true := by
  constructor
  · intro h
    exact ⟨h.has name rfl, h.accepted how name label rfl⟩
  · rintro ⟨hhas, haccepted⟩
    refine ⟨?_, ?_, nofun⟩
    · rintro _ ⟨⟩
      exact hhas
    · rintro _ _ _ ⟨⟩
      exact haccepted

/-- The check of a selection apart from its label. -/
def checkSelected (p : Plan) (t : Table) (place : String) : Selection → Outcome Unit
  | .column name _ => do
    let _ ← t.require name (place ++ ".column")
    if p.isGrouped && !p.groupBy.contains name then
      misplaced (place ++ ".column") ("column '" ++ name ++ "' must appear in group_by")
    else .ok ()
  | .aggregate _ none _ => .ok ()
  | .aggregate how (some name) _ => do
    let c ← t.require name (place ++ ".column")
    if how.accepts c.type then .ok ()
    else
      misplaced (place ++ ".column")
        (how.keyword ++ " is not applicable to " ++ c.type.label ++ " column '" ++ name ++ "'")

theorem checkSelection_eq (p : Plan) (t : Table) (i : Nat) (s : Selection) :
    p.checkSelection t i s = (checkAlias (placeOf "select" i) s.label? >>= fun _ =>
      p.checkSelected t (placeOf "select" i) s) := by
  rcases s with ⟨name, label⟩ | ⟨how, _ | name, label⟩ <;> rfl

theorem checkSelected_judges (p : Plan) (t : Table) (place : String) (s : Selection) :
    Judges (p.ColumnSuits t s) (fun e => ∃ reason, e = .invalid (place ++ ".column") reason)
      (p.checkSelected t place s) := by
  rcases s with ⟨name, label⟩ | ⟨how, _ | name, label⟩
  · rw [checkSelected]
    obtain ⟨c, hc, hrequire⟩ | ⟨hmissing, reason, hrequire⟩ :=
      t.require_cases name (place ++ ".column")
    · simp only [hrequire, bind, Except.bind]
      by_cases hgrouped : p.isGrouped && !p.groupBy.contains name
      · rw [if_pos hgrouped]
        rw [Bool.and_eq_true, isGrouped_iff, Bool.not_eq_true'] at hgrouped
        refine .rejects (fun h => ?_) ⟨_, rfl⟩
        have hmem := (columnSuits_column.mp h).2 hgrouped.1
        simp [hmem] at hgrouped
      · rw [if_neg hgrouped]
        refine .accepts (columnSuits_column.mpr ⟨hc.has, fun hgroups => ?_⟩)
        simpa [isGrouped_iff.mpr hgroups] using hgrouped
    · rw [hrequire]
      exact .rejects (fun h => hmissing (columnSuits_column.mp h).1) ⟨reason, rfl⟩
  · exact .accepts (columnSuits_rows how label)
  · rw [checkSelected]
    obtain ⟨c, hc, hrequire⟩ | ⟨hmissing, reason, hrequire⟩ :=
      t.require_cases name (place ++ ".column")
    -- Only the first column of the name is looked at.
    · simp only [hrequire, bind, Except.bind]
      by_cases haccepts : how.accepts c.type = true
      · rw [if_pos haccepts]
        refine .accepts (columnSuits_aggregate.mpr ⟨hc.has, fun c' hc' => ?_⟩)
        rwa [← hc.unique hc']
      · rw [if_neg haccepts]
        exact .rejects (fun h => haccepts ((columnSuits_aggregate.mp h).2 c hc)) ⟨_, rfl⟩
    · rw [hrequire]
      exact .rejects (fun h => hmissing (columnSuits_aggregate.mp h).1) ⟨reason, rfl⟩

theorem checkSelection_judges (p : Plan) (t : Table) (i : Nat) (s : Selection) :
    Judges (LabelSuits s ∧ p.ColumnSuits t s)
      (fun e => ¬ LabelSuits s ∧ (∃ reason, e = .invalid (placeOf "select" i ++ ".alias") reason) ∨
        LabelSuits s ∧ ¬ p.ColumnSuits t s ∧
          ∃ reason, e = .invalid (placeOf "select" i ++ ".column") reason)
      (p.checkSelection t i s) := by
  rw [checkSelection_eq]
  exact (checkAlias_judges _ _).andThen (p.checkSelected_judges t _ s)

theorem checkSortKey_judges (p : Plan) (t : Table) (i : Nat) (k : SortKey) :
    Judges (p.KeySuits t k)
      (fun e => ∃ reason, e = .invalid (placeOf "order_by" i ++ ".column") reason)
      (p.checkSortKey t i k) := by
  have hsuits : (p.select.any (fun s => s.label? == some k.column) ||
      (t.column? k.column).isSome) = true ↔ p.KeySuits t k := by
    rw [Bool.or_eq_true, List.any_eq_true, Table.column?_isSome]
    simp only [beq_iff_eq, KeySuits]
  rw [checkSortKey]
  by_cases h : (p.select.any (fun s => s.label? == some k.column) ||
      (t.column? k.column).isSome) = true
  · rw [if_pos h]
    exact .accepts (hsuits.mp h)
  · rw [if_neg h]
    exact .rejects (mt hsuits.mpr h) ⟨_, rfl⟩

theorem checkLimit_judges (p : Plan) (maxLimit : Nat) :
    Judges (p.LimitsWell maxLimit) (fun e => ∃ reason, e = .invalid "limit" reason)
      (checkLimit maxLimit p.limit) := by
  unfold LimitsWell
  cases p.limit with
  | none => exact .accepts nofun
  | some n =>
    rw [checkLimit]
    by_cases h : n = 0 ∨ maxLimit < n
    · rw [if_pos h]
      refine .rejects (fun hlimit => ?_) ⟨_, rfl⟩
      obtain ⟨hpos, hle⟩ := hlimit n rfl
      omega
    · rw [if_neg h]
      refine .accepts ?_
      rintro _ ⟨⟩
      omega

/-! ## The whole check -/

/-- The check of the condition, if there is one. -/
def checkFilter (p : Plan) (t : Table) : Outcome Unit :=
  match p.filter with
  | some c => c.check t "filter"
  | none => .ok ()

theorem checkFilter_judges (p : Plan) (t : Table) :
    Judges (p.FiltersWell t) (fun e => ∃ c steps reason, p.filter = some c ∧
        FirstMissing t c steps ∧
          e = .invalid (Condition.placeFrom "filter" steps ++ ".column") reason)
      (p.checkFilter t) := by
  unfold checkFilter FiltersWell
  cases p.filter with
  | none => exact .accepts nofun
  | some c =>
    refine (Condition.check_judges t c).imp (by simp) ?_
    rintro e ⟨steps, reason, hfirst, he⟩
    exact ⟨c, steps, reason, rfl, hfirst, he⟩

theorem checkSelect_judges (p : Plan) :
    Judges (p.select ≠ []) (fun e => ∃ reason, e = .invalid "select" reason)
      (if p.select.isEmpty then misplaced "select" "at least one output expression is required"
        else .ok ()) := by
  by_cases h : p.select.isEmpty = true
  · rw [if_pos h]
    exact .rejects (not_not.mpr (List.isEmpty_iff.mp h)) ⟨_, rfl⟩
  · rw [if_neg h]
    exact .accepts (mt List.isEmpty_iff.mpr h)

theorem check_eq {d : Dataset} (ht : d.table? p.table = some t) (maxLimit : Nat) :
    p.check d maxLimit =
      ((if p.select.isEmpty then misplaced "select" "at least one output expression is required"
        else .ok ()) >>= fun _ => checkEach (p.checkSelection t) 0 p.select >>= fun _ =>
        p.checkFilter t >>= fun _ =>
        checkEach (fun i name => (t.require name (placeOf "group_by" i)).map fun _ => ()) 0
          p.groupBy >>= fun _ =>
        checkEach (p.checkSortKey t) 0 p.orderBy >>= fun _ => checkLimit maxLimit p.limit) := by
  unfold check checkFilter
  rw [ht]
  cases p.select.isEmpty <;> cases p.filter <;> rfl

theorem suits_iff {maxLimit : Nat} : p.Suits t maxLimit ↔ p.select ≠ [] ∧
    (∀ s ∈ p.select, LabelSuits s ∧ p.ColumnSuits t s) ∧ p.FiltersWell t ∧ p.GroupsWell t ∧
      p.OrdersWell t ∧ p.LimitsWell maxLimit := by
  constructor
  · intro h
    refine ⟨h.selects, fun s hs => ⟨h.labelled s hs, h.selected s hs, ?_, ?_⟩, ?_, h.keys,
      h.ordered, h.limited⟩
    · rintro how name label rfl
      exact h.accepted how name label hs
    · rintro hgroups name label rfl
      exact h.grouped hgroups name label hs
    · rintro c hc ⟨steps, n⟩ hn ⟨name, hname, hmissing⟩
      exact hmissing (h.filtered c hc steps n (Condition.mem_nodes.mp hn) name hname)
  · rintro ⟨hselects, hselect, hfilter, hgroup, horder, hlimit⟩
    refine ⟨hselects, fun s hs => (hselect s hs).1, fun s hs => (hselect s hs).2.has, ?_, hgroup,
      fun how name label hs => (hselect _ hs).2.accepted how name label rfl,
      fun hgroups name label hs => (hselect _ hs).2.grouped hgroups name label rfl, horder, hlimit⟩
    intro c hc steps leaf hleaf name hname
    by_contra hmissing
    exact hfilter c hc (steps, leaf) (Condition.mem_nodes.mpr hleaf) ⟨name, hname, hmissing⟩

/-- The place of a member of an item of a list, in one piece. -/
theorem placeOf_append (list member : String) (i : Nat) :
    placeOf list i ++ member = list ++ "[" ++ natText i ++ ("]" ++ member) := by
  simp only [placeOf, String.append_assoc]

/-- The check accepts a plan that fits, and otherwise reports the place of the first thing that does
not. -/
theorem check_judges (p : Plan) (d : Dataset) (maxLimit : Nat) :
    Judges (∃ t, p.TableIn d t ∧ p.Suits t maxLimit)
      (fun e => ∃ place reason, e = .invalid place reason ∧ p.FirstMisfit d maxLimit place)
      (p.check d maxLimit) := by
  cases ht : d.table? p.table with
  | none =>
    have hmissing : ∀ t ∈ d.tables, t.name ≠ p.table := by
      rw [Dataset.table?, List.find?_eq_none] at ht
      simpa using ht
    have hcheck : ∃ reason, p.check d maxLimit = .error (.invalid "table" reason) := by
      rw [check, ht]
      exact ⟨_, rfl⟩
    obtain ⟨reason, hcheck⟩ := hcheck
    rw [hcheck]
    refine .rejects ?_ ⟨"table", reason, rfl, .table hmissing⟩
    rintro ⟨t, ⟨i, hfirst⟩, -⟩
    exact hmissing t hfirst.mem hfirst.holds
  | some t =>
    have htable : p.TableIn d t := tableIn_iff.mp ht
    -- The judgements of the parts, in the order in which they are checked.
    rw [check_eq ht]
    refine ((p.checkSelect_judges).andThen <|
      (checkEach_judges (p.checkSelection_judges t) 0 p.select).andThen <|
      (p.checkFilter_judges t).andThen <|
      (checkEach_judges (fun i name => t.require_judges name (placeOf "group_by" i)) 0
        p.groupBy).andThen <|
      (checkEach_judges (p.checkSortKey_judges t) 0 p.orderBy).andThen
        (p.checkLimit_judges maxLimit)).imp ?_ ?_
    · constructor
      · intro h
        exact ⟨t, htable, suits_iff.mpr h⟩
      · rintro ⟨t', ht', h⟩
        obtain rfl := Option.some.inj (ht.symm.trans (tableIn_iff.mpr ht'))
        exact suits_iff.mp h
    · rintro e (⟨hselects, reason, rfl⟩ | ⟨hselects, -, ⟨-, i, s, hfirst, hmember⟩ |
        ⟨hselect, -, ⟨-, c, steps, reason, hc, hmissing, rfl⟩ |
        ⟨hfilter, -, ⟨-, i, name, hfirst, reason, rfl⟩ |
        ⟨hgroup, -, ⟨-, i, k, hfirst, reason, rfl⟩ | ⟨horder, hlimit, reason, rfl⟩⟩⟩⟩⟩)
      · exact ⟨_, reason, rfl, .select htable (not_not.mp hselects)⟩
      · rw [Nat.zero_add] at hmember
        obtain ⟨hlabel, reason, rfl⟩ | ⟨hlabel, hcolumn, reason, rfl⟩ := hmember
        · rw [placeOf_append]
          exact ⟨_, reason, rfl, .label htable hfirst hlabel⟩
        · rw [placeOf_append]
          exact ⟨_, reason, rfl, .column htable hfirst hlabel hcolumn⟩
      · exact ⟨_, reason, rfl, .filter htable ⟨hselects, hselect⟩ hc hmissing⟩
      · rw [Nat.zero_add]
        exact ⟨_, reason, rfl, .groupBy htable ⟨hselects, hselect⟩ hfilter hfirst⟩
      · rw [Nat.zero_add, placeOf_append]
        exact ⟨_, reason, rfl, .orderBy htable ⟨hselects, hselect⟩ hfilter hgroup hfirst⟩
      · exact ⟨_, reason, rfl, .limit htable ⟨hselects, hselect⟩ hfilter hgroup horder hlimit⟩

/-- **The check accepts exactly the plans that fit.** -/
theorem check_eq_ok_iff_suits (p : Plan) (d : Dataset) (maxLimit : Nat) :
    p.check d maxLimit = .ok () ↔ ∃ t, p.TableIn d t ∧ p.Suits t maxLimit :=
  (p.check_judges d maxLimit).eq_ok_iff

/-- **What is reported is the first thing that does not fit**, and the place is its own. -/
theorem firstMisfit_of_check {p : Plan} {d : Dataset} {maxLimit : Nat} {e : Failure}
    (h : p.check d maxLimit = .error e) :
    ∃ place reason, e = .invalid place reason ∧ p.FirstMisfit d maxLimit place :=
  ((p.check_judges d maxLimit).of_error h).2

/-- A plan whose condition names two columns that are missing, the first of them four steps down. -/
def nestedPlan : Plan where
  table := "tickets"
  select := [.column "id" (some "n")]
  filter := some (.all [.compare "id" .eq (.int 1),
    .any [.isNull "id", .not (.any [.isNotNull "id", .isNull "closed_at"])], .isNull "owner"])
  groupBy := ["id", "queue"]
  orderBy := []
  limit := some 0

/-- Two tables, the second of which the plan is about. -/
def nestedDataset : Dataset :=
  ⟨"support", [⟨"notes.csv", []⟩, ⟨"Tickets.csv", [⟨"id", .integer⟩]⟩]⟩

theorem firstMisfit_of_check_nested :
    nestedPlan.check nestedDataset 100 =
        .error (.invalid "filter.all[1].any[1].inner.any[1].column"
          "column 'closed_at' not found on table 'tickets'") ∧
      nestedPlan.FirstMisfit nestedDataset 100 "filter.all[1].any[1].inner.any[1].column" := by
  have hcheck : nestedPlan.check nestedDataset 100 =
      .error (.invalid "filter.all[1].any[1].inner.any[1].column"
        "column 'closed_at' not found on table 'tickets'") := by decide +kernel
  obtain ⟨place, reason, he, hfirst⟩ := firstMisfit_of_check hcheck
  cases he
  exact ⟨hcheck, hfirst⟩

end Plan

end Enclave
