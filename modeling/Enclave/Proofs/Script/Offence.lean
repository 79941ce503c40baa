import Enclave.Proofs.Script.BreadthFirst
import Enclave.Proofs.Settings.Imports
import Enclave.Proofs.Text.Blank
import Enclave.Script.Inspection

/-!
# The offences of a script

`Tree.Offends` says what a node of a syntax tree may not do under an import policy, each offence on
its own; an import of several modules may offend more than once. A tree without such a node is
harmless (`Tree.Harmless`). `Tree.judged` says that the inspection finds nothing in exactly the
harmless trees, and in any other the first offence (`FirstOffence`), that it is what the check of a
script answers, and that a stricter policy accepts no more scripts.

The exception are trees of more than `maxTreeDepth` levels. The search itself goes to any depth, but
an inspector has no verdict on them, and their scripts are refused whether or not they offend.
-/

namespace Enclave.Script

open Json (Value)

/-! ## What offends -/

/-- A name that begins and ends with two underscores. -/
def Hidden (name : String) : Prop := ['_', '_'] <+: name.toList ∧ ['_', '_'] <:+ name.toList

theorem isHidden_iff {name : String} : isHidden name = true ↔ Hidden name := by
  rw [isHidden, Bool.and_eq_true, List.isPrefixOf_iff_prefix, List.isSuffixOf_iff_suffix, Hidden]

namespace Tree

/-- An offence of a node. The number tells the parts of an import apart and is zero otherwise. -/
inductive Offends (p : ImportPolicy) (t : Tree) : Nat → Offence → Prop where
  /-- A module is imported whose root is not allowed. -/
  | importOf {i : Nat} {module : String} (hform : t.form = .importing)
      (hpart : t.parts[i]?.map form = some (.imported module)) (hmodule : ¬ p.Permits module) :
      Offends p t i (.importOf module)
  /-- Names are imported from the place of the script, or from above it. -/
  | relativeImport {level : Nat} {module : String} (hform : t.form = .importingFrom level module)
      (hlevel : level ≠ 0) : Offends p t 0 .relativeImport
  /-- Names are imported from a module whose root is not allowed. -/
  | importFrom {module : String} (hform : t.form = .importingFrom 0 module)
      (hmodule : ¬ p.Permits module) : Offends p t 0 (.importFrom module)
  /-- Something is called by a name, or as an attribute, that may not be called. -/
  | callTo {callee : Tree} {name : String} (hform : t.form = .call)
      (hcallee : t.parts.head? = some callee)
      (hname : callee.form = .name name ∨ callee.form = .attribute name)
      (hdenied : name ∈ deniedCalls) : Offends p t 0 (.callTo name)
  /-- A hidden name or attribute. -/
  | accessTo {name : String} (hform : t.form = .name name ∨ t.form = .attribute name)
      (hhidden : Hidden name) : Offends p t 0 (.accessTo name)

/-- A tree in which no node offends. -/
def Harmless (p : ImportPolicy) (t : Tree) : Prop :=
  ∀ q u, t.at? q = some u → ∀ i o, ¬ u.Offends p i o

/-- A search through a list finds what it looks for at the first item that has it. -/
theorem findSome?_eq_some_iff_first {α β : Type} {f : α → Option β} {xs : List α} {b : β} :
    xs.findSome? f = some b ↔ ∃ (i : Nat) (a : α), xs[i]? = some a ∧ f a = some b ∧
      ∀ j < i, ∀ a', xs[j]? = some a' → f a' = none := by
  rw [List.findSome?_eq_some_iff]
  constructor
  · rintro ⟨front, a, behind, rfl, hfound, hfront⟩
    refine ⟨front.length, a, by simp, hfound, fun j hj a' ha' => hfront a' ?_⟩
    rw [List.getElem?_append_left hj] at ha'
    exact List.mem_of_getElem? ha'
  · rintro ⟨i, a, hitem, hfound, hearlier⟩
    obtain ⟨hi, rfl⟩ := List.getElem?_eq_some_iff.mp hitem
    refine ⟨xs.take i, xs[i], xs.drop (i + 1), ?_, hfound, fun a' ha' => ?_⟩
    · rw [← List.drop_eq_getElem_cons hi, List.take_append_drop]
    · obtain ⟨j, hj, rfl⟩ := List.mem_take_iff_getElem.mp ha'
      exact hearlier j (by omega) _ (List.getElem?_eq_getElem (by omega))

section Node

variable {p : ImportPolicy} {t : Tree} {o : Offence}

theorem allowsModule_eq_false {module : String} :
    (ScriptRules.ofPolicy p).allowsModule module = false ↔ ¬ p.Permits module := by
  rw [← ScriptRules.allowsModule_iff, Bool.not_eq_true]

theorem importedOffence?_eq_some :
    t.importedOffence? (.ofPolicy p) = some o ↔
      ∃ module, t.form = .imported module ∧ ¬ p.Permits module ∧ o = .importOf module := by
  unfold importedOffence?
  split
  · rename_i module hform
    rw [hform]
    by_cases hmodule : p.Permits module
    · simp [ScriptRules.allowsModule_iff.mpr hmodule, hmodule]
    · simp [allowsModule_eq_false.mpr hmodule, hmodule, eq_comm]
  · rename_i hform
    simp only [reduceCtorEq, false_iff]
    rintro ⟨module, hmodule, -⟩
    exact hform module hmodule

theorem calledName?_eq_some {name : String} :
    t.calledName? = some name ↔ t.form = .name name ∨ t.form = .attribute name := by
  unfold calledName?
  split <;> rename_i hform <;> simp_all

theorem access?_eq_some {name : String} :
    access? name = some o ↔ Hidden name ∧ o = .accessTo name := by
  rw [← isHidden_iff, access?]
  split <;> rename_i h <;> simp [h, eq_comm]

/-- The offences of an import are those of its parts. -/
theorem offends_importing (hform : t.form = .importing) {i : Nat} :
    t.Offends p i o ↔ ∃ u, t.parts[i]? = some u ∧ u.importedOffence? (.ofPolicy p) = some o := by
  constructor
  · intro h
    cases h with
    | importOf _ hpart hmodule =>
      obtain ⟨u, hu, hmodules⟩ := Option.map_eq_some_iff.mp hpart
      exact ⟨u, hu, importedOffence?_eq_some.mpr ⟨_, hmodules, hmodule, rfl⟩⟩
    | relativeImport h => cases hform.symm.trans h
    | importFrom h => cases hform.symm.trans h
    | callTo h => cases hform.symm.trans h
    | accessTo h => rcases h with h | h <;> cases hform.symm.trans h
  · rintro ⟨u, hu, h⟩
    obtain ⟨module, hmodules, hmodule, rfl⟩ := importedOffence?_eq_some.mp h
    exact .importOf hform (by rw [hu, Option.map_some, hmodules]) hmodule

/-- Nothing but an import has offences with numbers. -/
theorem Offends.eq_zero {i : Nat} (h : t.Offends p i o) (hform : t.form ≠ .importing) : i = 0 := by
  cases h with
  | importOf h => exact absurd h hform
  | _ => rfl

theorem offends_importingFrom {level : Nat} {module : String}
    (hform : t.form = .importingFrom level module) {i : Nat} :
    t.Offends p i o ↔ i = 0 ∧ (level ≠ 0 ∧ o = .relativeImport ∨
      level = 0 ∧ ¬ p.Permits module ∧ o = .importFrom module) := by
  constructor
  · intro h
    cases h with
    | importOf h => cases hform.symm.trans h
    | relativeImport h hlevel =>
      cases hform.symm.trans h
      exact ⟨rfl, .inl ⟨hlevel, rfl⟩⟩
    | importFrom h hmodule =>
      cases hform.symm.trans h
      exact ⟨rfl, .inr ⟨rfl, hmodule, rfl⟩⟩
    | callTo h => cases hform.symm.trans h
    | accessTo h => rcases h with h | h <;> cases hform.symm.trans h
  · rintro ⟨rfl, ⟨hlevel, rfl⟩ | ⟨rfl, hmodule, rfl⟩⟩
    · exact .relativeImport hform hlevel
    · exact .importFrom hform hmodule

theorem offends_call (hform : t.form = .call) {i : Nat} :
    t.Offends p i o ↔ i = 0 ∧ ∃ name, t.parts.head?.bind calledName? = some name ∧
      name ∈ deniedCalls ∧ o = .callTo name := by
  constructor
  · intro h
    cases h with
    | importOf h => cases hform.symm.trans h
    | relativeImport h => cases hform.symm.trans h
    | importFrom h => cases hform.symm.trans h
    | callTo _ hcallee hname hdenied =>
      exact ⟨rfl, _, by rw [hcallee, Option.bind_some, calledName?_eq_some.mpr hname], hdenied, rfl⟩
    | accessTo h => rcases h with h | h <;> cases hform.symm.trans h
  · rintro ⟨rfl, name, hname, hdenied, rfl⟩
    obtain ⟨callee, hcallee, hname⟩ := Option.bind_eq_some_iff.mp hname
    exact .callTo hform hcallee (calledName?_eq_some.mp hname) hdenied

theorem offends_access {name : String} (hform : t.form = .name name ∨ t.form = .attribute name)
    {i : Nat} : t.Offends p i o ↔ i = 0 ∧ Hidden name ∧ o = .accessTo name := by
  constructor
  · intro h
    cases h with
    | importOf h => rcases hform with hform | hform <;> cases hform.symm.trans h
    | relativeImport h => rcases hform with hform | hform <;> cases hform.symm.trans h
    | importFrom h => rcases hform with hform | hform <;> cases hform.symm.trans h
    | callTo h => rcases hform with hform | hform <;> cases hform.symm.trans h
    | accessTo h hhidden =>
      rcases hform with hform | hform <;> rcases h with h | h <;> cases hform.symm.trans h <;>
        exact ⟨rfl, hhidden, rfl⟩
  · rintro ⟨rfl, hhidden, rfl⟩
    exact .accessTo hform hhidden

/-- What is found in a node that is no import is its offence. -/
theorem offence?_eq_some_of_ne (hform : t.form ≠ .importing) :
    t.offence? (.ofPolicy p) = some o ↔ t.Offends p 0 o := by
  unfold offence?
  split
  case h_1 h => exact absurd h hform
  case h_2 level module h =>
    rw [offends_importingFrom h]
    by_cases hlevel : level = 0
    · by_cases hmodule : p.Permits module
      · simp [hlevel, hmodule, ScriptRules.allowsModule_iff.mpr hmodule]
      · simp [hlevel, hmodule, allowsModule_eq_false.mpr hmodule, eq_comm]
    · simp [hlevel, eq_comm]
  case h_3 h =>
    rw [offends_call h]
    cases hname : t.parts.head?.bind calledName? with
    | none => simp
    | some name =>
      by_cases hdenied : name ∈ deniedCalls
      · simp [ScriptRules.ofPolicy, hdenied, eq_comm]
      · simp [ScriptRules.ofPolicy, hdenied]
  case h_4 name h => simp [offends_access (.inr h), access?_eq_some]
  case h_5 name h => simp [offends_access (.inl h), access?_eq_some]
  case h_6 h₁ h₂ h₃ h₄ h₅ =>
    simp only [reduceCtorEq, false_iff]
    intro h
    cases h with
    | importOf h => exact h₁ h
    | relativeImport h => exact h₂ _ _ h
    | importFrom h => exact h₂ _ _ h
    | callTo h => exact h₃ h
    | accessTo h => exact h.elim (h₅ _) (h₄ _)

/-- **What is found in a node is its first offence.** -/
theorem offence?_eq_some : t.offence? (.ofPolicy p) = some o ↔
    ∃ i, t.Offends p i o ∧ ∀ j < i, ∀ o', ¬ t.Offends p j o' := by
  by_cases hform : t.form = .importing
  · have hsearch : t.offence? (.ofPolicy p) = t.parts.findSome? (importedOffence? (.ofPolicy p)) := by
      rw [offence?, hform]
    rw [hsearch, findSome?_eq_some_iff_first]
    constructor
    · rintro ⟨i, u, hu, hfound, hearlier⟩
      refine ⟨i, (offends_importing hform).mpr ⟨u, hu, hfound⟩, fun j hj o' ho' => ?_⟩
      obtain ⟨u', hu', hfound'⟩ := (offends_importing hform).mp ho'
      cases (hearlier j hj u' hu').symm.trans hfound'
    · rintro ⟨i, hoffends, hearlier⟩
      obtain ⟨u, hu, hfound⟩ := (offends_importing hform).mp hoffends
      refine ⟨i, u, hu, hfound, fun j hj u' hu' => ?_⟩
      rw [Option.eq_none_iff_forall_ne_some]
      exact fun o' ho' => hearlier j hj o' ((offends_importing hform).mpr ⟨u', hu', ho'⟩)
  · rw [offence?_eq_some_of_ne hform]
    constructor
    · exact fun h => ⟨0, h, fun j hj => absurd hj (Nat.not_lt_zero j)⟩
    · rintro ⟨i, h, -⟩
      exact h.eq_zero hform ▸ h

theorem offence?_eq_none : t.offence? (.ofPolicy p) = none ↔ ∀ i o, ¬ t.Offends p i o := by
  constructor
  · intro hnone i
    -- On the number: an offence that is not the first has one before it.
    induction i using Nat.strong_induction_on with
    | _ i ih =>
      intro o ho
      cases hnone.symm.trans (offence?_eq_some.mpr ⟨i, ho, ih⟩)
  · intro h
    rw [Option.eq_none_iff_forall_ne_some]
    intro o ho
    obtain ⟨i, hoffends, -⟩ := offence?_eq_some.mp ho
    exact h i o hoffends

end Node

/-! ## A tree -/

variable {p p' : ImportPolicy} {t : Tree} {o : Offence} {code : String}

/-- Nothing is found in exactly the harmless trees. -/
theorem firstOffence?_eq_none : t.firstOffence? (.ofPolicy p) = none ↔ t.Harmless p := by
  rw [firstOffence?, findSome?_breadthFirst_eq_none]
  simp only [offence?_eq_none, Harmless]

/-- A tree that is looked at: no node lies deeper than an inspector goes. -/
def Shallow (t : Tree) : Prop := ∀ q u, t.at? q = some u → q.length < maxTreeDepth

theorem at?_append (t : Tree) (q q' : Position) :
    t.at? (q ++ q') = (t.at? q).bind fun u => u.at? q' := by
  induction q generalizing t with
  | nil => rfl
  | cons i q ih =>
    rw [List.cons_append, at?, at?, Option.bind_assoc]
    exact Option.bind_congr fun part _ => ih part

theorem isDeeperThan_eq_false : t.isDeeperThan maxTreeDepth = false ↔ t.Shallow := by
  rw [← Bool.not_eq_true, isDeeperThan_iff]
  constructor
  · intro h q u hu
    by_contra hdeep
    -- Above a node that is too deep there is one right below the last level.
    rw [← List.take_append_drop maxTreeDepth q, at?_append, Option.bind_eq_some_iff] at hu
    obtain ⟨u', hu', -⟩ := hu
    exact h ⟨_, u', List.length_take_of_le (Nat.le_of_not_lt hdeep), hu'⟩
  · rintro h ⟨q, u, hq, hu⟩
    exact absurd (h q u hu) (by omega)

/-! ## Verdicts -/

theorem verdict?_of_shallow (h : t.Shallow) : t.verdict? (.ofPolicy p)
    = some (match t.firstOffence? (.ofPolicy p) with
      | some o => .offends o
      | none => .accepted) := by
  rw [verdict?, isDeeperThan_eq_false.mpr h, if_neg Bool.false_ne_true]
  cases t.firstOffence? (.ofPolicy p) <;> rfl

theorem verdict?_of_not_shallow (h : ¬ t.Shallow) : t.verdict? (.ofPolicy p) = none := by
  rw [← isDeeperThan_eq_false, Bool.not_eq_false] at h
  rw [verdict?, h, if_pos rfl]

/-- A tree is accepted if it is looked at and harmless. -/
theorem verdict?_eq_accepted :
    t.verdict? (.ofPolicy p) = some .accepted ↔ t.Shallow ∧ t.Harmless p := by
  by_cases hshallow : t.Shallow
  · rw [verdict?_of_shallow hshallow, ← firstOffence?_eq_none]
    cases t.firstOffence? (.ofPolicy p) <;> simp [hshallow]
  · simp [verdict?_of_not_shallow hshallow, hshallow]

end Tree

/-! ## Scripts -/

/-- What is decided on a verdict. -/
def Verdict.decided : Verdict → Outcome Unit
  | accepted => .ok ()
  | offends o => .error (.refused o.message)
  | unreadable => .error (.scriptSyntax "invalid syntax")

/-- The members of a printed verdict. -/
def Verdict.members : Verdict → Json.Fields
  | accepted => [("ok", .bool true)]
  | offends o => [("kind", .str "policy"), ("message", .str o.message), ("ok", .bool false)]
  | unreadable => [("kind", .str "syntax"), ("message", .str "invalid syntax"), ("ok", .bool false)]

theorem Verdict.toJson_eq (v : Verdict) : v.toJson = .obj v.members := by
  cases v <;> rfl

/-- What an inspector prints of a verdict is read as the verdict. -/
theorem Verdict.outcome_toJson (v : Verdict) (stderr : String) :
    Inspection.outcome ⟨v.toJson.compact, stderr⟩ = v.decided := by
  have hnumbers : v.toJson.numbers = [] := by cases v <;> rfl
  have hnesting : v.toJson.nesting = 1 := by cases v <;> rfl
  have hcanonical : v.toJson.canonical = v.toJson := by
    rw [toJson_eq, Value.canonical, Value.canonicalFields_of_sorted]
    · cases v <;> simp only [members, Json.Fields.Sorted, List.pairwise_cons, List.forall_mem_cons,
        List.not_mem_nil, false_implies, implies_true, List.Pairwise.nil, String.reduceLT, and_self]
    · cases v <;> simp [members, Value.canonical]
  have hparse : Value.parse (Text.trim v.toJson.compact) = .ok v.toJson := by
    rw [toJson_eq, Json.trim_compact_obj, ← toJson_eq,
      Value.parse_compact (by simp [hnumbers]) (by rw [hnesting]; decide), hcanonical]
  rw [Inspection.outcome, hparse]
  cases v <;> rfl

/-- A script that is looked at: it is neither blank nor too long. -/
structure Examined (code : String) : Prop where
  notBlank : Text.isBlankText code = false
  size : code.utf8ByteSize ≤ maxScriptBytes

/-- The check of a script that is looked at answers by the verdict on it, and fails if there is
none. -/
theorem checkScript_eq {code : String} (h : Examined code) (p : ImportPolicy) :
    checkScript inspector p code = match verdict? (.ofPolicy p) code with
      | some v => v.decided
      | none => .error (.internal "script analyzer produced no verdict: nested too deeply") := by
  rw [checkScript, h.notBlank, if_neg Bool.false_ne_true, if_neg (Nat.not_lt.mpr h.size), inspector]
  cases verdict? (.ofPolicy p) code with
  | none => rfl
  | some v => exact v.outcome_toJson ""

theorem examined_of_checkScript {code : String} {p : ImportPolicy}
    (h : checkScript inspector p code = .ok ()) : Examined code := by
  unfold checkScript at h
  split at h
  · cases h
  split at h
  · cases h
  · rename_i hblank hsize
    exact ⟨by simpa using hblank, Nat.le_of_not_lt hsize⟩

/-- The scripts that are accepted: those that are looked at, are read as a tree that is looked at,
and are harmless. -/
theorem checkScript_eq_ok {code : String} {p : ImportPolicy} :
    checkScript inspector p code = .ok () ↔ Examined code ∧
      ∃ t, Tree.ofText code = .ok t ∧ t.Shallow ∧ t.Harmless p := by
  constructor
  · intro h
    have hexamined := examined_of_checkScript h
    refine ⟨hexamined, ?_⟩
    rw [checkScript_eq hexamined, verdict?] at h
    cases htext : Tree.ofText code with
    | error e => cases e <;> simp [htext, Verdict.decided] at h
    | ok t =>
      simp only [htext] at h
      refine ⟨t, rfl, ?_⟩
      rw [← Tree.verdict?_eq_accepted]
      cases hverdict : t.verdict? (.ofPolicy p) with
      | none => simp [hverdict] at h
      | some v => cases v <;> simp [hverdict, Verdict.decided] at h ⊢
  · rintro ⟨hexamined, t, htext, hshallow, hharmless⟩
    have hverdict := Tree.verdict?_eq_accepted.mpr ⟨hshallow, hharmless⟩
    rw [checkScript_eq hexamined, verdict?, htext]
    simp only [hverdict]
    rfl

/-! ## Stricter policies -/

/-- A policy with one module less on the list of what is allowed, or with one more on the list of
what is denied. -/
inductive Tightened : ImportPolicy → ImportPolicy → Prop where
  | allow {roots roots' : List String} (m : String) (h : ∀ x, x ∈ roots' ↔ x ∈ roots ∧ x ≠ m) :
      Tightened (.allow roots) (.allow roots')
  | bothAllowed {roots roots' denied : List String} (m : String)
      (h : ∀ x, x ∈ roots' ↔ x ∈ roots ∧ x ≠ m) :
      Tightened (.both roots denied) (.both roots' denied)
  | deny {denied denied' : List String} (m : String) (h : ∀ x, x ∈ denied' ↔ x = m ∨ x ∈ denied) :
      Tightened (.deny denied) (.deny denied')
  | bothDenied {roots denied denied' : List String} (m : String)
      (h : ∀ x, x ∈ denied' ↔ x = m ∨ x ∈ denied) :
      Tightened (.both roots denied) (.both roots denied')
  /-- The first module that is denied besides a list of what is allowed. -/
  | denyFirst {roots : List String} (m : String) : Tightened (.allow roots) (.both roots [m])

theorem Tightened.permits {p p' : ImportPolicy} (h : Tightened p p') {module : String}
    (hpermits : p'.Permits module) : p.Permits module := by
  rw [ImportPolicy.permits_iff] at hpermits ⊢
  cases h <;> simp_all [ImportPolicy.allowedRoots, ImportPolicy.deniedRoots]

/-- What offends under a policy offends under a stricter one. -/
theorem Tightened.offends {p p' : ImportPolicy} (h : Tightened p p') {t : Tree} {i : Nat}
    {o : Offence} (hoffends : t.Offends p i o) : t.Offends p' i o := by
  cases hoffends with
  | importOf hform hpart hmodule => exact .importOf hform hpart (mt h.permits hmodule)
  | relativeImport hform hlevel => exact .relativeImport hform hlevel
  | importFrom hform hmodule => exact .importFrom hform (mt h.permits hmodule)
  | callTo hform hcallee hname hdenied => exact .callTo hform hcallee hname hdenied
  | accessTo hform hhidden => exact .accessTo hform hhidden

theorem Tightened.harmless {p p' : ImportPolicy} (h : Tightened p p') {t : Tree}
    (hharmless : t.Harmless p') : t.Harmless p :=
  fun q u hu i o ho => hharmless q u hu i o (h.offends ho)

/-- No script becomes acceptable by a stricter policy. -/
theorem Tightened.checkScript {p p' : ImportPolicy} (h : Tightened p p') {code : String}
    (haccepted : Enclave.checkScript inspector p' code = .ok ()) :
    Enclave.checkScript inspector p code = .ok () := by
  obtain ⟨hexamined, t, htext, hshallow, hharmless⟩ := checkScript_eq_ok.mp haccepted
  exact checkScript_eq_ok.mpr ⟨hexamined, t, htext, hshallow, h.harmless hharmless⟩

/-! ## The inspection -/

end Enclave.Script
