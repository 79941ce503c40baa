import Enclave.Proofs.Settings.Runner
import Enclave.Script.Policy

/-!
# One decision about imports

Whether a module may be imported is decided in several places: by a policy itself, by the rules
that an inspector of scripts goes by, by the document in which the inspector is told of them, and by
the policy that the runner reads out of a variable. `ImportPolicy.Permits` says what the decision
is. Only the root of a name counts, it has to be on the list of what is allowed, if there is one,
and it must not be on the list of what is denied. `imports_decidedAlike` says that every place
decides so.
-/

namespace Enclave

open Json (Value)

/-! ## The decision -/

/-- The root of a dotted name: what stands before its first dot, or all of it. -/
def IsRoot (module root : String) : Prop :=
  '.' ∉ root.toList ∧ (module = root ∨ ∃ rest, module = root ++ "." ++ rest)

theorem isRoot_rootOf (module : String) : IsRoot module (ImportPolicy.rootOf module) := by
  refine ⟨fun hdot => ?_, ?_⟩
  · rw [ImportPolicy.rootOf, String.toList_ofList] at hdot
    simpa using List.mem_takeWhile_imp hdot
  · have hsplit := List.takeWhile_append_dropWhile (p := (· != '.')) (l := module.toList)
    cases hrest : module.toList.dropWhile (· != '.') with
    | nil =>
      rw [hrest, List.append_nil] at hsplit
      exact .inl (by rw [ImportPolicy.rootOf, hsplit, String.ofList_toList])
    | cons c rest =>
      obtain rfl : c = '.' := by
        have hhead := List.head?_dropWhile_not (· != '.') module.toList
        rw [hrest] at hhead
        simpa using hhead
      refine .inr ⟨String.ofList rest, ?_⟩
      rw [hrest] at hsplit
      rw [← String.toList_inj, ImportPolicy.rootOf]
      simpa using hsplit.symm

/-- A name has one root only. -/
theorem IsRoot.eq_rootOf {module root : String} (h : IsRoot module root) :
    root = ImportPolicy.rootOf module := by
  obtain ⟨hdot, hmodule⟩ := h
  have hroot : ∀ c ∈ root.toList, (c != '.') = true := fun c hc =>
    bne_iff_ne.mpr fun h => hdot (h ▸ hc)
  rcases hmodule with rfl | ⟨rest, rfl⟩
  · rw [ImportPolicy.rootOf, List.takeWhile_eq_self_iff.mpr hroot, String.ofList_toList]
  · rw [ImportPolicy.rootOf, String.toList_append, String.toList_append, List.append_assoc,
      List.takeWhile_append_of_pos hroot]
    simp

namespace ImportPolicy

/-- What a policy permits: a module whose root is on the list of what is allowed, where there is
such a list, and not on that of what is denied. -/
structure Permits (p : ImportPolicy) (module : String) : Prop where
  allowed : ∀ roots ∈ p.allowedRoots, ∀ root, IsRoot module root → root ∈ roots
  denied : ∀ root, IsRoot module root → root ∉ p.deniedRoots

theorem permits_iff {p : ImportPolicy} {module : String} : p.Permits module ↔
    (∀ roots ∈ p.allowedRoots, rootOf module ∈ roots) ∧ rootOf module ∉ p.deniedRoots := by
  constructor
  · intro h
    exact ⟨fun roots hroots => h.allowed roots hroots _ (isRoot_rootOf module),
      h.denied _ (isRoot_rootOf module)⟩
  · rintro ⟨hallowed, hdenied⟩
    refine ⟨fun roots hroots root hroot => ?_, fun root hroot => ?_⟩
    · rw [hroot.eq_rootOf]
      exact hallowed roots hroots
    · rw [hroot.eq_rootOf]
      exact hdenied

theorem allows_iff {p : ImportPolicy} {module : String} :
    p.allows module = true ↔ p.Permits module := by
  rw [permits_iff]
  cases p <;> simp [allows, allowedRoots, deniedRoots]

/-- Policies of the same modules permit the same. -/
theorem Same.permits_iff {p p' : ImportPolicy} (h : p.Same p') (module : String) :
    p.Permits module ↔ p'.Permits module := by
  rw [ImportPolicy.permits_iff, ImportPolicy.permits_iff]
  cases h with
  | deny hd => simp [allowedRoots, deniedRoots, hd]
  | allow ha => simp [allowedRoots, deniedRoots, ha]
  | both ha hd => simp [allowedRoots, deniedRoots, ha, hd]

end ImportPolicy

/-! ## The rules of an inspector -/

namespace ScriptRules

theorem allowsModule_iff {p : ImportPolicy} {module : String} :
    (ofPolicy p).allowsModule module = true ↔ p.Permits module := by
  rw [ImportPolicy.permits_iff, allowsModule, ofPolicy]
  cases p <;> simp [ImportPolicy.allowedRoots, ImportPolicy.deniedRoots, and_comm]

/-- The texts in the list that a member of an object holds. -/
def textsAt (v : Value) (name : String) : Option (List String) :=
  ((v.get? name).bind Value.asArray?).map fun items => items.filterMap Value.asString?

/-- The rules that an inspector takes from the document in which it is told of them. Where no list
is given of what is allowed, imports are not restricted to one. -/
def ofJson (v : Value) : ScriptRules where
  allowed := textsAt v "allowed"
  denied := (textsAt v "denied_modules").getD []
  calls := (textsAt v "denied_calls").getD []

theorem textsAt_eq {v : Value} {name : String} {ss : List String}
    (h : v.get? name = some (.strings ss)) : textsAt v name = some ss := by
  simp [textsAt, h, Value.strings, Value.asArray?, List.filterMap_map, Function.comp_def,
    Value.asString?]

theorem canonical_strings (ss : List String) : (Value.strings ss).canonical = .strings ss :=
  Value.canonical_arr_map Value.str ss

theorem nesting_strings (ss : List String) : (Value.strings ss).nesting = 1 := by
  have hitems : Value.itemNesting (ss.map .str) ≤ 0 := by
    rw [Value.itemNesting_le_iff, List.forall_mem_map]
    exact fun _ _ => Nat.le_refl 0
  simp only [Value.strings, Value.nesting]
  omega

theorem nesting_toJson (r : ScriptRules) : r.toJson.nesting ≤ 2 := by
  cases hallowed : r.allowed <;>
    simp [toJson, hallowed, Value.nesting, Value.fieldNesting, nesting_strings]

theorem numbers_toJson (r : ScriptRules) : r.toJson.numbers = [] := by
  cases hallowed : r.allowed <;>
    simp [toJson, hallowed, Value.numbers, Json.fieldNumbers, numbers_strings]

/-- The members of the document stand in order. -/
theorem canonical_toJson (r : ScriptRules) : r.toJson.canonical = r.toJson := by
  rw [toJson, Value.canonical, Value.canonicalFields_of_sorted]
  · simp only [Json.Fields.Sorted, List.pairwise_cons, List.forall_mem_cons, List.not_mem_nil,
      false_implies, implies_true, List.Pairwise.nil, String.reduceLT, and_self]
  · cases hallowed : r.allowed <;> simp [canonical_strings, Value.canonical]

/-- **An inspector is told of the rules as they are.** -/
theorem ofJson_parse (r : ScriptRules) :
    ∃ v, Value.parse r.toJson.compact = .ok v ∧ ofJson v = r := by
  refine ⟨r.toJson, ?_, ?_⟩
  · rw [Value.parse_compact (by simp [numbers_toJson]) (r.nesting_toJson.trans (by decide)),
      canonical_toJson]
  · have hdenied : textsAt r.toJson "denied_modules" = some r.denied := textsAt_eq rfl
    have hcalls : textsAt r.toJson "denied_calls" = some r.calls := textsAt_eq rfl
    have hallowed : textsAt r.toJson "allowed" = r.allowed := by
      obtain ⟨allowed, denied, calls⟩ := r
      cases allowed with
      | none => rfl
      | some roots => exact textsAt_eq rfl
    rw [ofJson, hallowed, hdenied, hcalls]
    rfl

end ScriptRules

/-! ## The decisions -/

/-- Every place that decides on a module decides what a policy says. -/
structure DecidedAlike (p : ImportPolicy) (module : String) : Prop where
  policy : p.allows module = true ↔ p.Permits module
  rules : (ScriptRules.ofPolicy p).allowsModule module = true ↔ p.Permits module
  /-- An inspector that reads the document in which it is told of the rules. -/
  inspector : ∃ v, Value.parse (ScriptRules.ofPolicy p).toJson.compact = .ok v ∧
    ((ScriptRules.ofJson v).allowsModule module = true ↔ p.Permits module)
  /-- The policy in the variable for it of any settings with this policy. -/
  carried : ∀ r : RunnerSettings, r.importPolicy = p →
    ∃ p', RunnerSettings.variableJson r.toEnvironment "SQLSANDBOX_IMPORT_POLICY"
        ImportPolicy.decoder .analysis = .ok p' ∧
      (p'.allows module = true ↔ p.Permits module) ∧
      ((ScriptRules.ofPolicy p').allowsModule module = true ↔ p.Permits module)
  /-- The runner that takes its settings from the variables, which it does if these carry them. -/
  runner : ∀ r : RunnerSettings, r.importPolicy = p →
    (∀ r', RunnerSettings.ofEnvironment r.toEnvironment = .ok r' →
      (r'.importPolicy.allows module = true ↔ p.Permits module) ∧
      ((ScriptRules.ofPolicy r'.importPolicy).allowsModule module = true ↔ p.Permits module)) ∧
    (r.Carried → ∃ r', RunnerSettings.ofEnvironment r.toEnvironment = .ok r')

/-- The policy that comes out of the variable for it. -/
theorem ImportPolicy.variableJson_toEnvironment (r : RunnerSettings) :
    RunnerSettings.variableJson r.toEnvironment "SQLSANDBOX_IMPORT_POLICY" ImportPolicy.decoder
      .analysis = .ok r.importPolicy.ordered :=
  RunnerSettings.variableJson_of_lookup .analysis r.lookup_toEnvironment.2.2.1
    (by simp [r.importPolicy.numbers_toJson]) (r.importPolicy.decoder_ofValue (by decide))

/-- The policy of a runner is the one in the variable for it. -/
theorem RunnerSettings.importPolicy_of_ofEnvironment {env : Environment} {r : RunnerSettings}
    (h : ofEnvironment env = .ok r) : variableJson env "SQLSANDBOX_IMPORT_POLICY"
      ImportPolicy.decoder .analysis = .ok r.importPolicy := by
  obtain ⟨p, hp, h⟩ := bind_eq_ok.mp h
  obtain ⟨limits, -, h⟩ := bind_eq_ok.mp h
  cases h
  exact hp

/-- **Every place decides alike**, whatever the lists of a policy hold and whatever the name of a
module is. -/
theorem imports_decidedAlike (p : ImportPolicy) (module : String) : DecidedAlike p module where
  policy := ImportPolicy.allows_iff
  rules := ScriptRules.allowsModule_iff
  inspector := by
    obtain ⟨v, hparse, hread⟩ := (ScriptRules.ofPolicy p).ofJson_parse
    exact ⟨v, hparse, by rw [hread, ScriptRules.allowsModule_iff]⟩
  carried := by
    rintro r rfl
    have hsame := r.importPolicy.ordered_same.permits_iff module
    exact ⟨r.importPolicy.ordered, ImportPolicy.variableJson_toEnvironment r,
      ImportPolicy.allows_iff.trans hsame, ScriptRules.allowsModule_iff.trans hsame⟩
  runner := by
    rintro r rfl
    refine ⟨fun r' hr' => ?_, fun h => ⟨_, RunnerSettings.ofEnvironment_toEnvironment h⟩⟩
    have hread := RunnerSettings.importPolicy_of_ofEnvironment hr'
    rw [ImportPolicy.variableJson_toEnvironment r, Except.ok.injEq] at hread
    have hsame := r.importPolicy.ordered_same.permits_iff module
    rw [← hread]
    exact ⟨ImportPolicy.allows_iff.trans hsame, ScriptRules.allowsModule_iff.trans hsame⟩

end Enclave
