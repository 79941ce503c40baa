import Enclave.Settings.Runner
import Enclave.Proofs.Json.Variant

/-!
# Settings that travel in variables

The settings of a runner are written into variables and read back from them
(`RunnerSettings.ofEnvironment_toEnvironment`). Two of the variables are JSON documents, and each
part of them is decoded to what it was written from. The modules of an import policy are a set:
what is read back lists them in order (`ImportPolicy.ordered`), and is the same policy
(`ImportPolicy.Same`).

What does not travel is a number that JSON cannot carry, and an interpreter that is blank or has
blanks around it, since the runner trims it.
-/

namespace Enclave

open Json (Value Doc Scope Numeral docFields)

/-! ## Sets of modules -/

theorem mem_insertSorted {s t : String} {ss : List String} :
    t ∈ insertSorted s ss ↔ t = s ∨ t ∈ ss := by
  induction ss with
  | nil => simp [insertSorted]
  | cons u ss ih =>
    unfold insertSorted
    split
    · rename_i h
      subst h
      simp
    · split
      · simp
      · rw [List.mem_cons, ih, List.mem_cons]
        exact or_left_comm

@[simp]
theorem mem_sortedSet {s : String} {ss : List String} : s ∈ sortedSet ss ↔ s ∈ ss := by
  induction ss with
  | nil => simp [sortedSet]
  | cons t ss ih =>
    rw [sortedSet, List.foldr_cons, mem_insertSorted, ← sortedSet, ih, List.mem_cons]

namespace ImportPolicy

/-- A policy with its modules in order and once each. -/
def ordered : ImportPolicy → ImportPolicy
  | .deny denied => .deny (sortedSet denied)
  | .allow allowed => .allow (sortedSet allowed)
  | .both allowed denied => .both (sortedSet allowed) (sortedSet denied)

/-- Two policies of one kind with the same modules. -/
inductive Same : ImportPolicy → ImportPolicy → Prop where
  | deny {ds ds' : List String} (h : ∀ m, m ∈ ds ↔ m ∈ ds') : Same (.deny ds) (.deny ds')
  | allow {as as' : List String} (h : ∀ m, m ∈ as ↔ m ∈ as') : Same (.allow as) (.allow as')
  | both {as as' ds ds' : List String} (ha : ∀ m, m ∈ as ↔ m ∈ as')
      (hd : ∀ m, m ∈ ds ↔ m ∈ ds') : Same (.both as ds) (.both as' ds')

theorem Same.refl (p : ImportPolicy) : p.Same p := by
  cases p with
  | deny ds => exact .deny fun _ => .rfl
  | allow as => exact .allow fun _ => .rfl
  | both as ds => exact .both (fun _ => .rfl) fun _ => .rfl

theorem ordered_same (p : ImportPolicy) : p.ordered.Same p := by
  cases p with
  | deny ds => exact .deny fun _ => mem_sortedSet
  | allow as => exact .allow fun _ => mem_sortedSet
  | both as ds => exact .both (fun _ => mem_sortedSet) fun _ => mem_sortedSet

/-! ## The document of a policy -/

theorem modulesDecoder_ofValue {s : Scope} (hguard : Json.guardDepth s = .ok ())
    (ms : List String) : modulesDecoder s (Doc.ofValue (.strings ms)) = .ok (sortedSet ms) := by
  rw [modulesDecoder, Value.strings,
    Json.list_ofValues hguard fun m _ => Json.text_ofValue s.inner m]
  rfl

/-- A policy that was written is decoded to the same policy, its modules in order. -/
theorem decoder_ofValue {s : Scope} (hs : 3 < s.depth) (p : ImportPolicy) :
    decoder s (Doc.ofValue p.toJson) = .ok p.ordered := by
  have hmodules (s : Scope) (h : 0 < s.depth) (ms : List String) :=
    modulesDecoder_ofValue (Json.guardDepth_of_pos h) ms
  have hguard : Json.guardDepth s = .ok () := Json.guardDepth_of_pos (by omega)
  have hinner : 2 < s.inner.depth := Nat.lt_sub_of_add_lt hs
  have hdeeper : 1 < s.inner.inner.depth := Nat.lt_sub_of_add_lt hinner
  cases p with
  | deny ds =>
    refine Json.contentVariant_single rfl hguard ?_
    simp only [hmodules s.inner (by omega) ds]
    rfl
  | allow as =>
    refine Json.contentVariant_single rfl hguard ?_
    simp only [hmodules s.inner (by omega) as]
    rfl
  | both as ds =>
    refine Json.contentVariant_single rfl hguard ?_
    rw [Doc.ofValue, Json.recordVariant_obj]
    refine Json.RecordShape.decode_fields ["blacklist", "whitelist"]
      (Json.guardDepth_of_pos (by omega)) ?_ (by simp [bothShape])
    simp only [docFields]
    rw [Json.takeFields_cons rfl rfl (hmodules _ (by omega) as),
      Json.takeFields_cons rfl rfl (hmodules _ (by omega) ds)]
    rfl

end ImportPolicy

theorem numbers_strings (ss : List String) : (Value.strings ss).numbers = [] := by
  rw [Value.strings, Value.numbers, Json.itemNumbers_eq, List.flatMap_map, List.flatMap_eq_nil_iff]
  exact fun _ _ => rfl

theorem ImportPolicy.numbers_toJson (p : ImportPolicy) : p.toJson.numbers = [] := by
  cases p <;> simp [toJson, Value.numbers, Json.fieldNumbers, numbers_strings]

/-! ## The document of limits -/

namespace Limits

/-- Limits that their document carries: words, and a finite share of processors that is still the
same after it was written and read. -/
structure Carried (l : Limits) : Prop where
  memoryMb : l.memoryMb < 2 ^ 64
  finite : Decimal.isFinite l.cpus = true
  survives : Json.Survives l.cpus
  processes : l.processes < 2 ^ 64
  cpuSeconds : l.cpuSeconds < 2 ^ 64
  threads : l.threads < 2 ^ 32

theorem Carried.floatJson {l : Limits} (h : l.Carried) : floatJson l.cpus = .float l.cpus := by
  rw [Limits.floatJson, if_pos h.finite]

theorem Carried.decoder_ofValue {l : Limits} (h : l.Carried) :
    decoder .ofText (Doc.ofValue l.toJson) = .ok l := by
  have hcpus (s : Scope) : Json.double s (Doc.ofValue (.float l.cpus)) = .ok l.cpus := rfl
  refine Json.RecordShape.decode_fields
    ["max_threads", "cpu_seconds", "max_processes", "cpus", "memory_mb"]
    (Json.guardDepth_of_pos (by decide)) ?_ (by simp)
  simp only [docFields, h.floatJson]
  rw [Json.takeFields_cons rfl rfl (Json.word_ofValue 64 "usize" _ h.memoryMb),
    Json.takeFields_cons rfl rfl (hcpus _),
    Json.takeFields_cons rfl rfl (Json.word_ofValue 64 "u64" _ h.processes),
    Json.takeFields_cons rfl rfl (Json.word_ofValue 64 "u64" _ h.cpuSeconds),
    Json.takeFields_cons rfl rfl (Json.word_ofValue 32 "u32" _ h.threads)]
  rfl

theorem Carried.numbers {l : Limits} (h : l.Carried) : ∀ n ∈ l.toJson.numbers, n.Carried := by
  have hfloat := h.floatJson
  obtain ⟨hmemory, -, hcpus, hprocesses, hseconds, hthreads⟩ := h
  intro n hn
  simp only [toJson, hfloat, Value.numbers, Json.fieldNumbers, Value.nat, List.append_nil,
    List.cons_append, List.nil_append, List.mem_cons, List.not_mem_nil, or_false] at hn
  -- The share of processors is the only number that is no word.
  rcases hn with rfl | rfl | rfl | rfl | rfl
  case inr.inl => exact hcpus
  all_goals constructor <;> omega

end Limits

/-! ## The variables -/

namespace RunnerSettings

/-- Settings that variables carry. -/
structure Carried (r : RunnerSettings) : Prop where
  limits : r.limits.Carried
  /-- An interpreter is no blank text, and there are no blanks around it. -/
  interpreter : ∀ p ∈ r.interpreter, Text.isBlankText p = false ∧ Text.trim p = p

/-- The same settings, the lists of their import policy in order. -/
def ordered (r : RunnerSettings) : RunnerSettings :=
  { r with importPolicy := r.importPolicy.ordered }

/-- Two settings that agree in everything, the modules of their import policies taken as sets. -/
structure Same (r r' : RunnerSettings) : Prop where
  dataRoot : r.dataRoot = r'.dataRoot
  interpreter : r.interpreter = r'.interpreter
  scriptEnabled : r.scriptEnabled = r'.scriptEnabled
  importPolicy : r.importPolicy.Same r'.importPolicy
  limits : r.limits = r'.limits

theorem ordered_same (r : RunnerSettings) : r.ordered.Same r :=
  ⟨rfl, rfl, rfl, r.importPolicy.ordered_same, rfl⟩

theorem variableJson_of_lookup {α : Type} {env : Environment} {name : String}
    {decoder : Json.Decoder α} {v : Value} {a : α} (absent : α)
    (hlookup : env.lookup name = some v.compact) (hnumbers : ∀ n ∈ v.numbers, n.Carried)
    (hdecoded : decoder .ofText (Doc.ofValue v) = .ok a) :
    variableJson env name decoder absent = .ok a := by
  simp only [variableJson, hlookup, Json.decodeText_compact hnumbers, hdecoded]

/-- What is looked up in the variables of settings. -/
theorem lookup_toEnvironment (r : RunnerSettings) :
    r.toEnvironment.lookup "SQLSANDBOX_DATA_ROOT" = some r.dataRoot ∧
      r.toEnvironment.lookup "SQLSANDBOX_SCRIPT_ENABLED"
        = some (if r.scriptEnabled then "true" else "false") ∧
      r.toEnvironment.lookup "SQLSANDBOX_IMPORT_POLICY" = some r.importPolicy.toJson.compact ∧
      r.toEnvironment.lookup "SQLSANDBOX_LIMITS" = some r.limits.toJson.compact ∧
      r.toEnvironment.lookup "SQLSANDBOX_PYTHON" = r.interpreter := by
  obtain ⟨dataRoot, interpreter, scriptEnabled, importPolicy, limits⟩ := r
  cases interpreter <;> exact ⟨rfl, rfl, rfl, rfl, rfl⟩

/-- No variable has an equals sign in its name. -/
theorem equals_notMem_name {r : RunnerSettings} {kv : String × String}
    (h : kv ∈ r.toEnvironment) : '=' ∉ kv.1.toList := by
  have hnames : kv.1 ∈ ["SQLSANDBOX_DATA_ROOT", "SQLSANDBOX_SCRIPT_ENABLED",
      "SQLSANDBOX_IMPORT_POLICY", "SQLSANDBOX_LIMITS", "SQLSANDBOX_PYTHON"] := by
    have hmem := List.mem_map_of_mem (f := Prod.fst) h
    unfold toEnvironment at hmem
    cases hp : r.interpreter with
    | none =>
      rw [hp] at hmem
      exact List.mem_append_left ["SQLSANDBOX_PYTHON"] hmem
    | some p =>
      rw [hp] at hmem
      exact hmem
  revert hnames
  generalize kv.1 = name
  revert name
  decide

/-- **Settings come out of the variables as they went in.** -/
theorem ofEnvironment_toEnvironment {r : RunnerSettings} (h : r.Carried) :
    ofEnvironment r.toEnvironment = .ok r.ordered := by
  obtain ⟨hroot, hscript, hpolicy, hlimits, hinterpreter⟩ := r.lookup_toEnvironment
  have hpolicy := variableJson_of_lookup .analysis hpolicy
    (by simp [r.importPolicy.numbers_toJson]) (r.importPolicy.decoder_ofValue (by decide))
  have hlimits := variableJson_of_lookup .default hlimits h.limits.numbers
    h.limits.decoder_ofValue
  have hyes : Settings.isYes (if r.scriptEnabled then "true" else "false") = r.scriptEnabled := by
    cases r.scriptEnabled <;> decide
  -- An interpreter is trimmed when it is read, and a blank one counts as none.
  have htrimmed : ((r.interpreter.map Text.trim).filter fun p => !p.isEmpty) = r.interpreter := by
    cases hp : r.interpreter with
    | none => rfl
    | some p =>
      obtain ⟨hblank, htrim⟩ := h.interpreter p hp
      have hne : p.isEmpty = false := by
        rw [Bool.eq_false_iff, ne_eq, String.isEmpty_iff]
        rintro rfl
        cases hblank
      rw [Option.map_some, htrim, Option.filter_some, hne]
      rfl
  simp only [ofEnvironment, hpolicy, hlimits, hroot, hscript, hinterpreter, htrimmed, bind,
    Except.bind, Option.map_some, Option.getD_some, hyes]
  rfl

end RunnerSettings

end Enclave
