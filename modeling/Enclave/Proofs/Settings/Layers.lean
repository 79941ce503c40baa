import Enclave.Proofs.Settings.Omission

/-!
# The layers of settings

Settings are put together from three layers: the defaults, a document in a file, and environment
variables. What the file leaves out keeps its default (`Settings.load_abridged`), and a variable
replaces the one field that it names (`Settings.Overridden`). `settings_layered` says so of every
document of usable settings with any members left out, and of every environment.
-/

namespace Enclave

open Json (Value Doc Scope AbridgesDeep Holds)

namespace Settings

variable {s s' b : Settings} {t : Path.Tree} {env : Environment}

/-! ## Usable settings -/

/-- What settings have to be like to be used. -/
structure Usable (s : Settings) : Prop where
  image : Text.isBlankText s.runnerImage = false
  dataRoot : Path.isAbsolute s.sandboxDataRoot = true
  memory : s.limits.memoryMb ≠ 0
  cpus : ¬s.limits.cpus <= 0.0
  processes : s.limits.processes ≠ 0
  attempts : s.retry.attempts ≠ 0
  planLimit : s.maxPlanLimit ≠ 0

theorem check_eq_ok : s.check = .ok () ↔ s.Usable := by
  unfold check
  constructor
  · intro h
    split at h
    · cases h
    rename_i himage
    split at h
    · cases h
    rename_i hroot
    split at h
    · cases h
    rename_i hlimits
    split at h
    · cases h
    rename_i hattempts
    split at h
    · cases h
    rename_i hlimit
    simp only [Bool.or_eq_true, decide_eq_true_eq, not_or] at hlimits
    exact ⟨by simpa using himage, by simpa using hroot, hlimits.1.1, hlimits.1.2, hlimits.2,
      hattempts, hlimit⟩
  · rintro ⟨himage, hroot, hmemory, hcpus, hprocesses, hattempts, hlimit⟩
    simp [himage, hroot, hmemory, hcpus, hprocesses, hattempts, hlimit]

/-- The settings that hold when nothing is set. -/
theorem usable_default : default.Usable :=
  ⟨by decide, by decide, by decide, by decide, by decide, by decide, by decide⟩

/-- Each default is usable, so leaving members out keeps settings usable. -/
theorem Usable.without (h : s.Usable) (o : Omission) : (s.without o).Usable where
  image := iteInduction (motive := fun image => Text.isBlankText image = false)
    (fun _ => usable_default.image) fun _ => h.image
  dataRoot := iteInduction (motive := fun root => Path.isAbsolute root = true)
    (fun _ => usable_default.dataRoot) fun _ => h.dataRoot
  memory := iteInduction (motive := fun l : Limits => l.memoryMb ≠ 0)
    (fun _ => usable_default.memory) fun _ => iteInduction (motive := (· ≠ 0))
      (fun _ => usable_default.memory) fun _ => h.memory
  cpus := iteInduction (motive := fun l : Limits => ¬l.cpus <= 0.0)
    (fun _ => usable_default.cpus) fun _ => iteInduction (motive := fun c : Float => ¬c <= 0.0)
      (fun _ => usable_default.cpus) fun _ => h.cpus
  processes := iteInduction (motive := fun l : Limits => l.processes ≠ 0)
    (fun _ => usable_default.processes) fun _ => iteInduction (motive := (· ≠ 0))
      (fun _ => usable_default.processes) fun _ => h.processes
  attempts := iteInduction (motive := fun p : RetryPolicy => p.attempts ≠ 0)
    (fun _ => usable_default.attempts) fun _ => iteInduction (motive := (· ≠ 0))
      (fun _ => usable_default.attempts) fun _ => h.attempts
  planLimit := iteInduction (motive := (· ≠ 0))
    (fun _ => usable_default.planLimit) fun _ => h.planLimit

/-- A file that holds what is left of usable settings is loaded as those settings, with the
defaults where something is missing. -/
theorem load_abridged (hs : s.Carried) (hcheck : s.check = .ok ()) {o : Omission} {doc : Value}
    (hdoc : AbridgesDeep sections o.top o.within s.toJson doc) {text path : String}
    (htext : Holds doc text) (hread : t.read path = .ok text) :
    ∃ s', load t path = .ok s' ∧ s'.Same (s.without o) := by
  have hdecode : Json.decodeText decoder text
      = .ok ({ s with importPolicy := s.importPolicy.ordered }.without o) := by
    rw [htext.decodeText fun n hn => hs.numbers n (hdoc.numbers hn)]
    exact hs.decoder_abridged hdoc
  have husable : ({ s with importPolicy := s.importPolicy.ordered } : Settings).Usable := by
    obtain ⟨himage, hroot, hmemory, hcpus, hprocesses, hattempts, hlimit⟩ := check_eq_ok.mp hcheck
    exact ⟨himage, hroot, hmemory, hcpus, hprocesses, hattempts, hlimit⟩
  refine ⟨_, ?_, without_same s o⟩
  simp only [load, hread, ofText, hdecode, check_eq_ok.mpr (husable.without o), Except.map]

/-! ## Environment variables -/

/-- Settings that differ from others in what the variables of an environment set. -/
structure Overridden (env : Environment) (b s : Settings) : Prop where
  mode : ((env.lookup "SQLSANDBOX_MODE").elim (some b.mode) Mode.ofText?) = some s.mode
  runnerImage : s.runnerImage = (env.lookup "SQLSANDBOX_RUNNER_IMAGE").getD b.runnerImage
  hostDataRoot : s.hostDataRoot = (env.lookup "SQLSANDBOX_HOST_DATA_ROOT").getD b.hostDataRoot
  sandboxDataRoot : s.sandboxDataRoot = b.sandboxDataRoot
  limits : s.limits = b.limits
  container : s.container =
    { b.container with command := (env.lookup "SQLSANDBOX_DOCKER").getD b.container.command }
  cluster : s.cluster =
    { b.cluster with
      command := (env.lookup "SQLSANDBOX_KUBECTL").getD b.cluster.command
      space := (env.lookup "SQLSANDBOX_NAMESPACE").getD b.cluster.space }
  retry : s.retry = b.retry
  budget : s.budget = b.budget
  maxPlanLimit : s.maxPlanLimit = b.maxPlanLimit
  scriptEnabled : s.scriptEnabled =
    ((env.lookup "SQLSANDBOX_SCRIPT_ENABLED").map isYes).getD b.scriptEnabled
  importPolicy : s.importPolicy = b.importPolicy

/-- What settings start from: the file that the environment names, or the defaults. -/
inductive StartsFrom (t : Path.Tree) (env : Environment) : Settings → Prop where
  | file {path : String} {b : Settings} (hset : env.lookup "SQLSANDBOX_CONFIG" = some path)
      (hpath : Text.isBlankText path = false) (h : load t (Text.trim path) = .ok b) :
      StartsFrom t env b
  | defaults (h : ∀ path, env.lookup "SQLSANDBOX_CONFIG" = some path →
      Text.isBlankText path = true) : StartsFrom t env default

theorem base_eq_ok : base t env = .ok b ↔ StartsFrom t env b := by
  constructor
  · intro h
    unfold base at h
    cases hset : env.lookup "SQLSANDBOX_CONFIG" with
    | none =>
      simp only [hset, Except.ok.injEq] at h
      subst h
      exact .defaults (by simp [hset])
    | some path =>
      simp only [hset] at h
      split at h
      · cases h
        exact .defaults (by simpa [hset])
      · rename_i hpath
        exact .file hset (Bool.eq_false_iff.mpr hpath) h
  · rintro (⟨hset, hpath, h⟩ | h)
    · simp [base, hset, hpath, h]
    · unfold base
      split
      · rename_i path hset
        rw [if_pos (h path hset)]
      · rfl

/-- A variable that sets one field leaves the others as they were. -/
theorem overrideAll_field {β : Type} {v : String} (read : String → β)
    (put : Settings → β → Settings) (get : Settings → β)
    (hset : ∀ s value, override s v value = .ok (put s (read value)))
    (hself : ∀ s, put s (get s) = s) (s : Settings) (rest : List String) :
    overrideAll env s (v :: rest)
      = overrideAll env (put s (((env.lookup v).map read).getD (get s))) rest := by
  rw [overrideAll]
  cases env.lookup v with
  | none => simp only [Option.map_none, Option.getD_none, hself]
  | some value => simp only [hset, Option.map_some, Option.getD_some]

/-- Every variable but that of the mode always sets its field. -/
theorem overrideAll_tail (env : Environment) (b : Settings) :
    overrideAll env b variableNames.tail = .ok
      { b with
        runnerImage := (env.lookup "SQLSANDBOX_RUNNER_IMAGE").getD b.runnerImage
        hostDataRoot := (env.lookup "SQLSANDBOX_HOST_DATA_ROOT").getD b.hostDataRoot
        container :=
          { b.container with
            command := (env.lookup "SQLSANDBOX_DOCKER").getD b.container.command }
        cluster :=
          { b.cluster with
            command := (env.lookup "SQLSANDBOX_KUBECTL").getD b.cluster.command
            space := (env.lookup "SQLSANDBOX_NAMESPACE").getD b.cluster.space }
        scriptEnabled :=
          ((env.lookup "SQLSANDBOX_SCRIPT_ENABLED").map isYes).getD b.scriptEnabled } := by
  rw [variableNames, List.tail_cons,
    overrideAll_field id (fun s v => { s with runnerImage := v }) runnerImage
      (fun _ _ => rfl) fun _ => rfl,
    overrideAll_field id (fun s v => { s with hostDataRoot := v }) hostDataRoot
      (fun _ _ => rfl) fun _ => rfl,
    overrideAll_field id (fun s v => { s with container := { s.container with command := v } })
      (fun s => s.container.command) (fun _ _ => rfl) fun _ => rfl,
    overrideAll_field id (fun s v => { s with cluster := { s.cluster with command := v } })
      (fun s => s.cluster.command) (fun _ _ => rfl) fun _ => rfl,
    overrideAll_field id (fun s v => { s with cluster := { s.cluster with space := v } })
      (fun s => s.cluster.space) (fun _ _ => rfl) fun _ => rfl,
    overrideAll_field isYes (fun s v => { s with scriptEnabled := v }) scriptEnabled
      (fun _ _ => rfl) fun _ => rfl]
  simp only [Option.map_id, id, overrideAll]

/-- The first variable sets the mode, where it names one. -/
theorem overrideAll_mode : overrideAll env b variableNames = .ok s ↔
    ∃ m, (env.lookup "SQLSANDBOX_MODE").elim (some b.mode) Mode.ofText? = some m ∧
      overrideAll env { b with mode := m } variableNames.tail = .ok s := by
  rw [variableNames, overrideAll, List.tail_cons]
  cases env.lookup "SQLSANDBOX_MODE" with
  | none => simp only [Option.elim_none, Option.some.injEq, exists_eq_left']
  | some text =>
    rw [Option.elim_some]
    cases hmode : Mode.ofText? text with
    | none => simp [override, hmode]
    | some m => simp [override, hmode]

/-- The variables of an environment set their own fields, and the mode has to be one. -/
theorem overrideAll_eq_ok : overrideAll env b variableNames = .ok s ↔ Overridden env b s := by
  simp only [overrideAll_mode, overrideAll_tail, Except.ok.injEq]
  constructor
  · rintro ⟨m, hmode, rfl⟩
    exact ⟨hmode, rfl, rfl, rfl, rfl, rfl, rfl, rfl, rfl, rfl, rfl, rfl⟩
  · rintro ⟨hmode, himage, hhost, hroot, hlimits, hcontainer, hcluster, hretry, hbudget, hplan,
      hscript, hpolicy⟩
    refine ⟨s.mode, hmode, ?_⟩
    rw [← himage, ← hhost, ← hroot, ← hlimits, ← hcontainer, ← hcluster, ← hretry, ← hbudget,
      ← hplan, ← hscript, ← hpolicy]

/-- Settings of an environment are those it starts from with its variables taken over, and they
pass the check. -/
theorem ofEnvironment_eq_ok : ofEnvironment t env = .ok s ↔
    ∃ b, StartsFrom t env b ∧ Overridden env b s ∧ s.check = .ok () := by
  simp only [ofEnvironment, bind_eq_ok, pure_eq_ok, ← base_eq_ok, ← overrideAll_eq_ok]
  constructor
  · rintro ⟨b, hb, s, hs, ⟨⟩, hcheck, rfl⟩
    exact ⟨b, hb, hs, hcheck⟩
  · rintro ⟨b, hb, hs, hcheck⟩
    exact ⟨b, hb, s, hs, (), hcheck, rfl⟩

end Settings

/-- **Settings come in layers that do not disturb each other.** A file with what is left of the
document of usable settings is loaded as those settings with the defaults where something is
missing, and what is loaded is usable again. The settings of an environment are those of its file,
or the defaults, with the fields that it sets replaced and all others kept, and they pass the
check. -/
theorem settings_layered :
    (∀ (s : Settings) (o : Omission), s.Carried → s.check = .ok () →
      (∃ doc, AbridgesDeep Settings.sections o.top o.within s.toJson doc) ∧
      ∀ doc, AbridgesDeep Settings.sections o.top o.within s.toJson doc →
        ∀ (t : Path.Tree) (path text : String), Holds doc text → t.read path = .ok text →
          ∃ s', Settings.load t path = .ok s' ∧ s'.Same (s.without o)) ∧
    ∀ (t : Path.Tree) (env : Environment) (s : Settings), Settings.ofEnvironment t env = .ok s ↔
      ∃ b, Settings.StartsFrom t env b ∧ Settings.Overridden env b s ∧ s.check = .ok () := by
  constructor
  · intro s o hs hcheck
    refine ⟨s.exists_left o, ?_⟩
    intro doc hdoc t path text htext hread
    exact Settings.load_abridged hs hcheck hdoc htext hread
  · intro t env s
    exact Settings.ofEnvironment_eq_ok

/-- Settings none of which is a default. -/
def clusterDeployment : Settings where
  mode := .clusterJob
  runnerImage := "registry/runner:1.2"
  hostDataRoot := "/srv/tables"
  sandboxDataRoot := "/tables"
  limits := ⟨2048, 0.5, 32, 30, 4⟩
  container := ⟨"podman", "1000:1000", 16⟩
  cluster := ⟨"oc", "analytics", "tables", 1000, 1000, 250, 60⟩
  retry := ⟨5, 100, 1000⟩
  budget := ⟨60, 500, 4096⟩
  maxPlanLimit := 100
  scriptEnabled := true
  importPolicy := .both ["pandas", "numpy"] ["os"]

/-- Most of it is left out: whole members, and members of two sections. -/
def fewMembers : Omission where
  top k := ["runner_image", "limits", "cluster", "import_policy"].contains k == false
  within k k' := (k == "limits" && k' != "cpus") || (k == "cluster" && k' != "namespace")

/-- The members that are left. -/
def fewMembersKept : Json.Fields :=
  [("runner_image", .str "registry/runner:1.2"), ("limits", .obj [("cpus", .float 0.5)]),
    ("cluster", .obj [("namespace", .str "analytics")]),
    ("import_policy", (ImportPolicy.both ["pandas", "numpy"] ["os"]).toJson)]

/-- A tree with a file that lists them from the last one to the first. -/
def fewMembersTree : Path.Tree :=
  ⟨[(["sandbox.json"], .file (Value.obj fewMembersKept.reverse).pretty)]⟩

theorem settings_layered_fewMembers :
    (∃ s, Settings.load fewMembersTree "/sandbox.json" = .ok s ∧
      s.Same { Settings.default with
        runnerImage := "registry/runner:1.2"
        limits := { Limits.default with cpus := 0.5 }
        cluster := { ClusterSettings.default with space := "analytics" }
        importPolicy := .both ["pandas", "numpy"] ["os"] }) ∧
    Settings.ofEnvironment .empty
        [("SQLSANDBOX_NAMESPACE", "reports"), ("SQLSANDBOX_MODE", " K8s ")]
      = .ok { Settings.default with
        mode := .clusterJob
        cluster := { ClusterSettings.default with space := "reports" } } := by
  constructor
  · have hlimits : clusterDeployment.limits.Carried :=
      ⟨by decide, by decide +kernel, by decide +kernel, by decide, by decide, by decide⟩
    have hcarried : clusterDeployment.Carried :=
      ⟨hlimits, by decide, ⟨by decide, by decide, by decide⟩, by decide,
        ⟨by decide, by decide, by decide⟩, ⟨by decide, by decide, by decide⟩, by decide⟩
    have hcpus : Limits.floatJson 0.5 = .float 0.5 := hlimits.floatJson
    have hleft : AbridgesDeep Settings.sections fewMembers.top fewMembers.within
        clusterDeployment.toJson (.obj fewMembersKept.reverse) := by
      refine .of_perm (Settings.obj_of_section rfl) (fewMembersKept.reverse_perm.trans (.of_eq ?_))
      simp [Json.abridgeSections, Json.abridge, fewMembersKept, fewMembers, Settings.sections,
        clusterDeployment, Limits.toJson, ClusterSettings.toJson, hcpus]
    obtain ⟨-, hloads⟩ := settings_layered.1 clusterDeployment fewMembers hcarried rfl
    exact hloads _ hleft fewMembersTree "/sandbox.json" _ .pretty rfl
  · refine (settings_layered.2 _ _ _).mpr ⟨_, .defaults ?_, ?_, rfl⟩
    · intro path hset
      cases hset
    · exact ⟨by decide, rfl, rfl, rfl, rfl, rfl, rfl, rfl, rfl, rfl, rfl, rfl⟩

end Enclave
