import Enclave.Proofs.Plan.Judgement
import Enclave.Proofs.Plan.Nodes

/-!
# Which plans have a statement

What has no text in a statement can be seen from a selection, or from one node of the condition
without its parts: `Selection.Unwritable` and `Condition.Unwritable`. `Plan.FirstUnwritable` is the
first such thing in a plan, in the order in which the statement is written, and `statement_judges`
says that a plan without any of them has a statement and that otherwise the first is reported.

To write the texts of a list and to check that each item has one fail alike. So `statement` without
its text is a check, and that of a condition is a check of its nodes (`statement_eq_checkEach`).
-/

namespace Enclave

/-! ## What has no text -/

/-- Why a selection has no text. -/
inductive Selection.Unwritable : Selection → Uncompilable → Prop
  | overRows {how : Aggregate} {label : Option String} (h : how ≠ .count) :
      Unwritable (.aggregate how none label) (.overRows how)

/-- Why a condition has no text, whatever its parts. -/
inductive Condition.Unwritable : Condition → Uncompilable → Prop
  | emptyAll : Unwritable (.all []) (.emptyJunction "AND")
  | emptyAny : Unwritable (.any []) (.emptyJunction "OR")
  | null {column : String} {how : Comparison} :
      Unwritable (.compare column how .null) .comparedWithNull
  | notFinite {column : String} {how : Comparison} {f : Float} (h : Decimal.isFinite f = false) :
      Unwritable (.compare column how (.float f)) (.notFinite f)

theorem Selection.Unwritable.unique {s : Selection} {why why' : Uncompilable}
    (h : s.Unwritable why) (h' : s.Unwritable why') : why = why' := by
  cases h
  cases h'
  rfl

theorem Condition.Unwritable.unique {c : Condition} {why why' : Uncompilable}
    (h : c.Unwritable why) (h' : c.Unwritable why') : why = why' := by
  cases h <;> cases h' <;> rfl

/-- The first thing in a plan that has no text: nothing selected, a selection, or else a node of the
condition. -/
inductive Plan.FirstUnwritable (p : Plan) : Uncompilable → Prop
  | select (h : p.select = []) : FirstUnwritable p .emptySelection
  | selection {i : Nat} {s : Selection} {why : Uncompilable}
      (hfirst : First (fun s => ∃ why, s.Unwritable why) p.select i s) (h : s.Unwritable why) :
      FirstUnwritable p why
  | filter {c n : Condition} {i : Nat} {steps : List Condition.Step} {why : Uncompilable}
      (hselects : p.select ≠ []) (hselect : ∀ s ∈ p.select, ¬ ∃ why, s.Unwritable why)
      (hc : p.filter = some c)
      (hfirst : First (fun n => ∃ why, n.2.Unwritable why) c.nodes i (steps, n))
      (h : n.Unwritable why) : FirstUnwritable p why

/-- A failure to write a statement. -/
def Reported (unwritable : Uncompilable → Prop) (e : Failure) : Prop :=
  ∃ why, unwritable why ∧ e = .notCompilable why.message

theorem judges_uncompilable {unwritable : Uncompilable → Prop} {why : Uncompilable}
    (h : unwritable why) :
    Judges (¬ ∃ why, unwritable why) (Reported unwritable) (uncompilable why) :=
  .rejects (not_not.mpr ⟨why, h⟩) ⟨why, h, rfl⟩

/-! ## Texts as checks -/

/-- A text that is written, looked at as a check. -/
def written {α : Type} (x : Outcome α) : Outcome Unit := x.map fun _ => ()

theorem written_map {α β : Type} (x : Outcome α) (f : α → β) : written (x.map f) = written x := by
  cases x <;> rfl

theorem written_eq_ok {α : Type} {x : Outcome α} : written x = .ok () ↔ ∃ a, x = .ok a := by
  cases x <;> simp [written, Except.map]

theorem written_eq_error {α : Type} {x : Outcome α} {e : Failure} :
    written x = .error e ↔ x = .error e := by
  cases x <;> simp [written, Except.map]

/-! ## Selections -/

namespace Selection

/-- The check that a selection has a text. -/
def checkWritable (s : Selection) : Outcome Unit := written s.statement

theorem checkWritable_judges (s : Selection) :
    Judges (¬ ∃ why, s.Unwritable why) (Reported s.Unwritable) s.checkWritable := by
  have hlabel : s.checkWritable = written s.expression := by
    rw [checkWritable, statement]
    cases s.expression with
    | error e => rfl
    | ok text => cases s.label? <;> rfl
  rw [hlabel]
  rcases s with ⟨name, label⟩ | ⟨how, _ | name, label⟩
  · exact .accepts nofun
  · by_cases hcount : how = .count
    · subst hcount
      refine .accepts ?_
      rintro ⟨why, ⟨h⟩⟩
      exact h rfl
    · have hrows : (aggregate how none label).expression = uncompilable (.overRows how) := by
        cases how with
        | count => exact absurd rfl hcount
        | sum => rfl
        | avg => rfl
        | min => rfl
        | max => rfl
      rw [hrows]
      exact judges_uncompilable (.overRows hcount)
  · exact .accepts nofun

theorem written_selectionStatements (items : List Selection) :
    written (selectionStatements items) = checkEach (fun _ => checkWritable) 0 items := by
  induction items with
  | nil => rfl
  | cons s items ih =>
    rw [selectionStatements, checkEach, checkEach_from, ← ih, checkWritable]
    cases s.statement with
    | error e => rfl
    | ok text => cases selectionStatements items <;> rfl

end Selection

/-! ## Conditions -/

namespace Condition

/-- The check that a node has a text, its parts left out. -/
def checkWritable : Condition → Outcome Unit
  | .compare _ _ value => written value.statement
  | .all [] => uncompilable (.emptyJunction "AND")
  | .any [] => uncompilable (.emptyJunction "OR")
  | _ => .ok ()

theorem checkWritable_judges (c : Condition) :
    Judges (¬ ∃ why, c.Unwritable why) (Reported c.Unwritable) c.checkWritable := by
  cases c with
  | compare column how value =>
    rw [checkWritable]
    cases value with
    | null => exact judges_uncompilable .null
    | bool b => exact .accepts nofun
    | int n => exact .accepts nofun
    | text s => exact .accepts nofun
    | float f =>
      rw [Literal.statement]
      cases hfinite : Decimal.isFinite f with
      | false => exact judges_uncompilable (.notFinite hfinite)
      | true =>
        refine .accepts ?_
        rintro ⟨why, hwhy⟩
        cases hwhy with
        | notFinite h =>
          rw [hfinite] at h
          cases h
  | isNull column => exact .accepts nofun
  | isNotNull column => exact .accepts nofun
  | all parts =>
    cases parts with
    | nil => exact judges_uncompilable .emptyAll
    | cons p ps => exact .accepts nofun
  | any parts =>
    cases parts with
    | nil => exact judges_uncompilable .emptyAny
    | cons p ps => exact .accepts nofun
  | not inner => exact .accepts nofun

/-- The check of a node of a condition. -/
def checkNode (n : List Step × Condition) : Outcome Unit := n.2.checkWritable

theorem checkNode_behind (step : Step) (ns : List (List Step × Condition)) :
    checkEach (fun _ => checkNode) 0 (ns.map (behind step)) =
      checkEach (fun _ => checkNode) 0 ns :=
  checkEach_map _ _ _ _

theorem written_partStatements {ps : List Condition} (step : Nat → Step)
    (ih : ∀ p ∈ ps, written p.statement = checkEach (fun _ => checkNode) 0 p.nodes) (i : Nat) :
    written (partStatements ps) = checkEach (fun _ => checkNode) 0 (partNodes step i ps) := by
  induction ps generalizing i with
  | nil => rfl
  | cons p ps ihps =>
    obtain ⟨hp, hps⟩ := List.forall_mem_cons.mp ih
    rw [partNodes, checkEach_append, checkNode_behind, ← hp, ← ihps hps, partStatements]
    cases p.statement with
    | error e => rfl
    | ok text => cases partStatements ps <;> rfl

/-- A condition has a text like its nodes, one after the other. -/
theorem statement_eq_checkEach (c : Condition) :
    written c.statement = checkEach (fun _ => checkNode) 0 c.nodes := by
  induction c using byParts with
  | compare column how value =>
    rw [nodes, checkEach_singleton, statement]
    show _ = written value.statement
    cases value.statement <;> rfl
  | isNull column => rfl
  | isNotNull column => rfl
  | all parts ih =>
    -- An empty junction fails by itself, any other by its parts.
    cases parts with
    | nil => rfl
    | cons p ps =>
      have hroot : checkNode ([], .all (p :: ps)) = .ok () := rfl
      rw [nodes, checkEach_cons_of_ok hroot, statement, written_map, written_partStatements .all ih]
  | any parts ih =>
    cases parts with
    | nil => rfl
    | cons p ps =>
      have hroot : checkNode ([], .any (p :: ps)) = .ok () := rfl
      rw [nodes, checkEach_cons_of_ok hroot, statement, written_map, written_partStatements .any ih]
  | not inner ih =>
    have hroot : checkNode ([], .not inner) = .ok () := rfl
    rw [nodes, checkEach_cons_of_ok hroot, checkNode_behind, ← ih, statement]
    cases inner.statement <;> rfl

theorem statement_judges (c : Condition) :
    Judges (∀ n ∈ c.nodes, ¬ ∃ why, n.2.Unwritable why)
      (fun e => ∃ i n, First (fun n => ∃ why, n.2.Unwritable why) c.nodes i n ∧
        Reported n.2.Unwritable e)
      (written c.statement) := by
  rw [statement_eq_checkEach]
  refine (checkEach_judges (fun _ n => n.2.checkWritable_judges) 0 c.nodes).imp Iff.rfl ?_
  simp only [not_not]
  exact fun e he => he

end Condition

/-! ## Plans -/

namespace Plan

/-- Nothing in a plan is without a text. -/
structure Writable (p : Plan) : Prop where
  selects : p.select ≠ []
  select : ∀ s ∈ p.select, ¬ ∃ why, s.Unwritable why
  filter : ∀ c ∈ p.filter, ∀ n ∈ c.nodes, ¬ ∃ why, n.2.Unwritable why

theorem written_statement (p : Plan) : written p.statement =
    ((if p.select.isEmpty then uncompilable .emptySelection else .ok ()) >>= fun _ =>
      checkEach (fun _ => Selection.checkWritable) 0 p.select >>= fun _ =>
      written p.whereClause) := by
  rw [← Selection.written_selectionStatements, statement]
  cases p.select.isEmpty with
  | true => rfl
  | false =>
    cases selectionStatements p.select with
    | error e => rfl
    | ok items => cases p.whereClause <;> rfl

theorem whereClause_judges (p : Plan) :
    Judges (∀ c ∈ p.filter, ∀ n ∈ c.nodes, ¬ ∃ why, n.2.Unwritable why)
      (fun e => ∃ c i n, p.filter = some c ∧
        First (fun n => ∃ why, n.2.Unwritable why) c.nodes i n ∧ Reported n.2.Unwritable e)
      (written p.whereClause) := by
  cases hc : p.filter with
  | none =>
    have hnothing : written p.whereClause = .ok () := by
      rw [whereClause, hc]
      rfl
    rw [hnothing]
    exact .accepts nofun
  | some c =>
    have hcondition : written p.whereClause = written c.statement := by
      simp only [whereClause, hc]
      cases c.statement <;> rfl
    rw [hcondition]
    refine c.statement_judges.imp ⟨?_, fun h => h c rfl⟩ ?_
    · rintro h _ ⟨⟩
      exact h
    · rintro e ⟨i, n, hfirst, he⟩
      exact ⟨c, i, n, rfl, hfirst, he⟩

theorem statement_judges (p : Plan) :
    Judges p.Writable (Reported p.FirstUnwritable) (written p.statement) := by
  rw [written_statement]
  have hselects : Judges (p.select ≠ []) (Reported fun why => why = .emptySelection)
      (if p.select.isEmpty then uncompilable .emptySelection else .ok ()) := by
    by_cases h : p.select.isEmpty = true
    · rw [if_pos h]
      exact .rejects (not_not.mpr (List.isEmpty_iff.mp h)) ⟨_, rfl, rfl⟩
    · rw [if_neg h]
      exact .accepts (mt List.isEmpty_iff.mpr h)
  refine (hselects.andThen <|
    (checkEach_judges (fun _ s => s.checkWritable_judges) 0 p.select).andThen
      p.whereClause_judges).imp ?_ ?_
  · constructor
    · rintro ⟨hselects, hselect, hfilter⟩
      exact ⟨hselects, hselect, hfilter⟩
    · intro h
      exact ⟨h.selects, h.select, h.filter⟩
  · simp only [not_not]
    rintro e (⟨hnone, why, rfl, rfl⟩ | ⟨hselects, -, ⟨-, i, s, hfirst, why, hwhy, rfl⟩ |
      ⟨hselect, -, c, i, ⟨steps, n⟩, hc, hfirst, why, hwhy, rfl⟩⟩)
    · exact ⟨_, .select hnone, rfl⟩
    · exact ⟨why, .selection hfirst hwhy, rfl⟩
    · exact ⟨why, .filter hselects hselect hc hfirst hwhy, rfl⟩

/-! ## The first reason -/

namespace FirstUnwritable

variable {p : Plan} {why why' : Uncompilable}

theorem not_writable (h : p.FirstUnwritable why) : ¬ p.Writable := by
  intro hp
  cases h with
  | select h => exact hp.selects h
  | selection hfirst h => exact hp.select _ hfirst.mem ⟨why, h⟩
  | filter hselects hselect hc hfirst h => exact hp.filter _ hc _ hfirst.mem ⟨why, h⟩

theorem unique (h : p.FirstUnwritable why) (h' : p.FirstUnwritable why') : why = why' := by
  cases h with
  | select h =>
    cases h' with
    | select h' => rfl
    | selection hfirst h' =>
      have hmem := hfirst.mem
      rw [h] at hmem
      cases hmem
    | filter hselects => exact absurd h hselects
  | selection hfirst h =>
    cases h' with
    | select h' =>
      have hmem := hfirst.mem
      rw [h'] at hmem
      cases hmem
    | selection hfirst' h' =>
      obtain rfl := hfirst.unique hfirst'
      exact h.unique h'
    | filter hselects hselect => exact absurd ⟨why, h⟩ (hselect _ hfirst.mem)
  | filter hselects hselect hc hfirst h =>
    cases h' with
    | select h' => exact absurd h' hselects
    | selection hfirst' h' => exact absurd ⟨why', h'⟩ (hselect _ hfirst'.mem)
    | filter hselects' hselect' hc' hfirst' h' =>
      obtain rfl := Option.some.inj (hc.symm.trans hc')
      obtain ⟨⟩ := hfirst.unique hfirst'
      exact h.unique h'

end FirstUnwritable

theorem not_writable_iff {p : Plan} : ¬ p.Writable ↔ p.select = [] ∨
    (∃ s ∈ p.select, ∃ why, s.Unwritable why) ∨
      ∃ c ∈ p.filter, ∃ steps n why, c.at? steps = some n ∧ n.Unwritable why := by
  constructor
  · intro h
    by_contra hnone
    obtain ⟨hselects, hnone⟩ := not_or.mp hnone
    obtain ⟨hselect, hfilter⟩ := not_or.mp hnone
    refine h ⟨hselects, fun s hs hwhy => hselect ⟨s, hs, hwhy⟩, ?_⟩
    rintro c hc ⟨steps, n⟩ hn ⟨why, hwhy⟩
    exact hfilter ⟨c, hc, steps, n, why, Condition.mem_nodes.mp hn, hwhy⟩
  · rintro (hselects | ⟨s, hs, hwhy⟩ | ⟨c, hc, steps, n, why, hn, hwhy⟩) h
    · exact h.selects hselects
    · exact h.select s hs hwhy
    · exact h.filter c hc (steps, n) (Condition.mem_nodes.mpr hn) ⟨why, hwhy⟩

/-- **Why a plan has no statement.** Writing a statement fails exactly if nothing is selected, a
selection has no text, or there is a condition without one anywhere in the condition of the plan;
and it fails with the first of these reasons. -/
theorem statement_fails_iff (p : Plan) :
    ((∃ e, p.statement = .error e) ↔ p.select = [] ∨ (∃ s ∈ p.select, ∃ why, s.Unwritable why) ∨
      ∃ c ∈ p.filter, ∃ steps n why, c.at? steps = some n ∧ n.Unwritable why) ∧
    ∀ e, p.statement = .error e ↔
      ∃ why, p.FirstUnwritable why ∧ e = .notCompilable why.message := by
  have hjudges := p.statement_judges
  constructor
  · rw [← not_writable_iff, ← hjudges.eq_ok_iff, written_eq_ok]
    cases p.statement <;> simp
  · intro e
    constructor
    · intro h
      exact (hjudges.of_error (written_eq_error.mpr h)).2
    · rintro ⟨why, hwhy, rfl⟩
      cases hwritten : written p.statement with
      | ok u => exact absurd (hjudges.eq_ok_iff.mp hwritten) hwhy.not_writable
      | error e =>
        obtain ⟨-, why', hwhy', rfl⟩ := hjudges.of_error hwritten
        rw [hwhy.unique hwhy']
        exact written_eq_error.mp hwritten

end Plan

end Enclave
