import Enclave.Proofs.Backend.Course
import Enclave.Proofs.Settings.Runner

/-!
# What a backend hands over

Both backends start a runner by a description: the container backend by a command line, the cluster
backend by the manifest of a job. Here both are read as the program reads them that is started with
them. A command line is read as a row of options in front of an image, so a value that looks like an
option stays a value. What is read is what the backend meant: the mounts of the directory of the
dataset, and the variables of the runner. From these a runner reads the settings of the sandbox
(`settings_handedOver`).
-/

namespace Enclave

open Json (Value)

/-! ## The command line of a container -/

namespace Container

/-- The options of the container runtime that take no value. -/
def bareOptions : List String := ["--rm", "-i", "--read-only"]

/-- Whether an argument is an option. -/
def isOption (argument : String) : Bool := argument.toList.head? == some '-'

/-- The options with their values, up to the first argument that is no option. -/
def valuedOptions : List String → List (String × String)
  | o :: v :: rest =>
    if bareOptions.contains o then valuedOptions (v :: rest)
    else if isOption o then (o, v) :: valuedOptions rest
    else []
  | _ => []

/-- The values of an option in the call that starts a container, behind its verb. -/
def valuesOf (option : String) (args : List String) : List String :=
  ((valuedOptions (args.drop 1)).filter fun o => o.1 == option).map Prod.snd

/-- A text cut at its first equals sign. -/
def assignment (text : String) : String × String :=
  (String.ofList (text.toList.takeWhile (· != '=')),
    String.ofList ((text.toList.dropWhile (· != '=')).drop 1))

/-- The variables that a command line gives to the container. -/
def variablesOf (args : List String) : Environment := (valuesOf "-e" args).map assignment

theorem valuedOptions_bare {o : String} (h : bareOptions.contains o = true) (v : String)
    (rest : List String) : valuedOptions (o :: v :: rest) = valuedOptions (v :: rest) := by
  rw [valuedOptions, if_pos h]

theorem valuedOptions_valued {o : String} (h : bareOptions.contains o = false)
    (ho : isOption o = true) (v : String) (rest : List String) :
    valuedOptions (o :: v :: rest) = (o, v) :: valuedOptions rest := by
  rw [valuedOptions, h, if_neg (by decide), if_pos ho]

theorem assignment_append {name : String} (h : '=' ∉ name.toList) (value : String) :
    assignment (name ++ "=" ++ value) = (name, value) := by
  have hname : ∀ c ∈ name.toList, (c != '=') = true := by
    intro c hc
    rw [bne_iff_ne]
    rintro rfl
    exact h hc
  have htext : (name ++ "=" ++ value).toList = name.toList ++ '=' :: value.toList := by simp
  rw [assignment, htext, List.takeWhile_append_of_pos hname, List.dropWhile_append_of_pos hname]
  simp

/-- The options that isolate a container, apart from those that take no value. -/
def isolating (s : Settings) : List (String × String) :=
  let megabytes (n : Nat) : String := Decimal.natText n ++ "m"
  [("--network", "none"), ("--user", s.container.user), ("--cap-drop", "ALL"),
   ("--security-opt", "no-new-privileges"), ("--pids-limit", Decimal.natText s.limits.processes),
   ("--memory", megabytes s.limits.memoryMb), ("--memory-swap", megabytes s.limits.memoryMb),
   ("--cpus", Decimal.plain.render s.limits.cpus),
   ("--tmpfs", "/tmp:rw,noexec,nosuid,size=" ++ megabytes s.container.tmpfsMb)]

variable {s : Settings} {name : String} {r : Request} {args : List String}

theorem valuedOptions_isolation (s : Settings) (rest : List String) :
    valuedOptions (isolation s ++ rest) = isolating s ++ valuedOptions rest := by
  simp [isolation, isolating, valuedOptions, bareOptions, isOption]

theorem valuedOptions_environmentOptions (env : Environment) (image : String) :
    valuedOptions (environmentOptions env ++ [image])
      = env.map fun kv => ("-e", kv.1 ++ "=" ++ kv.2) := by
  induction env with
  | nil => rfl
  | cons kv env ih =>
    have hcons : environmentOptions (kv :: env) ++ [image]
        = "-e" :: (kv.1 ++ "=" ++ kv.2) :: (environmentOptions env ++ [image]) := rfl
    rw [hcons, valuedOptions_valued (by decide) (by decide), ih, List.map_cons]

/-- A request whose dataset has a plain name has a command line. -/
theorem exists_arguments (s : Settings) (name : String) {r : Request}
    (h : Naming.isDatasetId r.datasetId = true) : ∃ args, arguments s name r = .ok args := by
  rw [arguments, Naming.checkDatasetId_eq_ok.mpr h]
  exact ⟨_, rfl⟩

/-- **What the command line of a container says**: its name, what isolates it, the mount of its
dataset, and the variables of the runner. -/
theorem valuedOptions_arguments (h : arguments s name r = .ok args) :
    valuedOptions (args.drop 1) = ("--name", name) :: isolating s ++ ("-v", mount s r) ::
      s.runnerEnvironment.map fun kv => ("-e", kv.1 ++ "=" ++ kv.2) := by
  obtain ⟨_, -, hargs⟩ := bind_eq_ok.mp h
  rw [← pure_eq_ok.mp hargs]
  have hdrop : (["run", "--rm", "-i", "--name", name] ++ isolation s ++ ["-v", mount s r] ++
      environmentOptions s.runnerEnvironment ++ [s.runnerImage]).drop 1
      = "--rm" :: "-i" :: "--name" :: name :: (isolation s ++
        "-v" :: mount s r :: (environmentOptions s.runnerEnvironment ++ [s.runnerImage])) := by
    simp
  -- From here on the arguments are read one option after the other.
  rw [hdrop, valuedOptions_bare (by decide), valuedOptions_bare (by decide),
    valuedOptions_valued (by decide) (by decide), valuedOptions_isolation,
    valuedOptions_valued (by decide) (by decide), valuedOptions_environmentOptions]
  rfl

/-- One directory is mounted. -/
theorem valuesOf_mount (h : arguments s name r = .ok args) : valuesOf "-v" args = [mount s r] := by
  rw [valuesOf, valuedOptions_arguments h]
  simp [isolating, List.filter_map, Function.comp_def]

/-- The variables are those of the runner. -/
theorem variablesOf_arguments (h : arguments s name r = .ok args) :
    variablesOf args = s.runnerEnvironment := by
  have hvalues : valuesOf "-e" args = s.runnerEnvironment.map fun kv => kv.1 ++ "=" ++ kv.2 := by
    rw [valuesOf, valuedOptions_arguments h]
    simp [isolating, List.filter_map, Function.comp_def]
  -- No name has an equals sign, so each assignment is cut where it was put together.
  rw [variablesOf, hvalues, List.map_map]
  refine (List.map_congr_left fun kv hkv => ?_).trans (List.map_id _)
  exact assignment_append (RunnerSettings.equals_notMem_name hkv) kv.2

end Container

/-! ## The manifest of a job -/

namespace Cluster

/-- The containers of the pod of a job. -/
def containersOf (manifest : Value) : List Value :=
  elements (member.along manifest ["spec", "template", "spec", "containers"])

/-- The name and the value of a variable of a container. -/
def variableOf? (entry : Value) : Option (String × String) :=
  match (member entry "name").asString?, (member entry "value").asString? with
  | some name, some value => some (name, value)
  | _, _ => none

/-- The variables that a job gives to its containers. -/
def variablesOf (manifest : Value) : Environment :=
  (containersOf manifest).flatMap fun c => (elements (member c "env")).filterMap variableOf?

/-- The mounts of the containers of a job. -/
def mountsOf (manifest : Value) : List Value :=
  (containersOf manifest).flatMap fun c => elements (member c "volumeMounts")

variable {s : Settings} {name : String} {r : Request} {manifest : Value}

theorem containersOf_job (h : job s name r = .ok manifest) :
    containersOf manifest = [container s r] := by
  obtain ⟨_, -, hmanifest⟩ := bind_eq_ok.mp h
  rw [← pure_eq_ok.mp hmanifest]
  rfl

/-- The mounts are the directory of the dataset, for reading only, and a place for temporary
files. -/
theorem mountsOf_job (h : job s name r = .ok manifest) :
    mountsOf manifest =
      [.obj [("name", .str "datasets"), ("mountPath", .str (s.runnerDirectory r)),
          ("subPath", .str r.datasetId), ("readOnly", .bool true)],
        .obj [("name", .str "tmp"), ("mountPath", .str "/tmp")]] := by
  rw [mountsOf, containersOf_job h]
  rfl

/-- The variables are the request and those of the runner. -/
theorem variablesOf_job (h : job s name r = .ok manifest) :
    variablesOf manifest = (requestVariable, r.text) :: s.runnerEnvironment := by
  have henv : variablesOf manifest = (environment s r).filterMap variableOf? := by
    rw [variablesOf, containersOf_job h, List.flatMap_cons, List.flatMap_nil, List.append_nil]
    rfl
  have hentry (kv : String × String) : variableOf? (variableEntry kv.1 kv.2) = some kv := rfl
  rw [henv, environment, List.filterMap_cons_some (hentry (requestVariable, r.text)),
    List.filterMap_map]
  simp only [Function.comp_def, hentry, List.filterMap_some]

end Cluster

/-! ## The settings of the runner -/

/-- An environment from which a runner reads some settings. -/
def Environment.Carries (env : Environment) (r : RunnerSettings) : Prop :=
  ∃ r', RunnerSettings.ofEnvironment env = .ok r' ∧ r'.Same r

theorem RunnerSettings.Carried.carries {r : RunnerSettings} (h : r.Carried) :
    r.toEnvironment.Carries r :=
  ⟨r.ordered, ofEnvironment_toEnvironment h, r.ordered_same⟩

/-- A variable in front that is none of the settings changes nothing. -/
theorem RunnerSettings.ofEnvironment_request (text : String) (env : Environment) :
    ofEnvironment ((Cluster.requestVariable, text) :: env) = ofEnvironment env := by
  have hlookup {name : String} (h : name ≠ Cluster.requestVariable) :
      List.lookup name ((Cluster.requestVariable, text) :: env) = env.lookup name := by
    rw [List.lookup_cons, beq_eq_false_iff_ne.mpr h]
  simp only [ofEnvironment, variableJson,
    hlookup (show "SQLSANDBOX_IMPORT_POLICY" ≠ Cluster.requestVariable by decide),
    hlookup (show "SQLSANDBOX_LIMITS" ≠ Cluster.requestVariable by decide),
    hlookup (show "SQLSANDBOX_DATA_ROOT" ≠ Cluster.requestVariable by decide),
    hlookup (show "SQLSANDBOX_PYTHON" ≠ Cluster.requestVariable by decide),
    hlookup (show "SQLSANDBOX_SCRIPT_ENABLED" ≠ Cluster.requestVariable by decide)]

/-- The settings of a runner in a sandbox name no interpreter, so their limits decide. -/
theorem RunnerSettings.carried_ofSettings {s : Settings} (h : s.limits.Carried) :
    (ofSettings s).Carried :=
  ⟨h, fun _ hp => by cases hp⟩

/-- **A runner reads the settings that were meant for it**, whether they come in the options of a
container or in the variables of a job behind the request, and in general from the variables of any
settings that variables carry. -/
theorem settings_handedOver :
    (∀ (s : Settings) (name : String) (r : Request), s.limits.Carried →
      Naming.isDatasetId r.datasetId = true →
      (∃ args, Container.arguments s name r = .ok args ∧
        (Container.variablesOf args).Carries (.ofSettings s)) ∧
      ∃ (manifest : Value) (env : Environment), Cluster.job s name r = .ok manifest ∧
        Cluster.variablesOf manifest = (Cluster.requestVariable, r.text) :: env ∧
        env.Carries (.ofSettings s)) ∧
    ∀ r : RunnerSettings, r.Carried → r.toEnvironment.Carries r := by
  refine ⟨fun s name r hlimits hid => ?_, fun r h => h.carries⟩
  have hcarries : s.runnerEnvironment.Carries (.ofSettings s) :=
    (RunnerSettings.carried_ofSettings hlimits).carries
  constructor
  · obtain ⟨args, hargs⟩ := Container.exists_arguments s name hid
    exact ⟨args, hargs, (Container.variablesOf_arguments hargs).symm ▸ hcarries⟩
  · obtain ⟨manifest, hmanifest⟩ := Cluster.exists_job s name hid
    exact ⟨manifest, s.runnerEnvironment, hmanifest, Cluster.variablesOf_job hmanifest, hcarries⟩

/-- Settings whose texts hold what separates variables, arguments and JSON strings. -/
def separatorSettings : Settings :=
  { Settings.default with
    sandboxDataRoot := "/data=a b/\"c\""
    scriptEnabled := true
    importPolicy := .both ["numpy", "-e X=1", "a\\\"\n"] ["os", "a=b"] }

/-- Limits whose share of processors is a whole number. -/
theorem Limits.carried_default : Limits.default.Carried :=
  ⟨by decide, by decide +kernel, by decide +kernel, by decide, by decide, by decide⟩

theorem settings_handedOver_separators :
    (∃ args, Container.arguments separatorSettings "sqlsandbox-0" ⟨"tickets", [], .sql "", 1, 1, 1⟩
        = .ok args ∧ (Container.variablesOf args).Carries (.ofSettings separatorSettings)) ∧
      let r : RunnerSettings := ⟨"", some "/opt/python 3=x", false, .deny [], .default⟩
      r.toEnvironment.Carries r :=
  ⟨(settings_handedOver.1 separatorSettings "sqlsandbox-0" ⟨"tickets", [], .sql "", 1, 1, 1⟩
      Limits.carried_default (by decide)).1,
    settings_handedOver.2 _ ⟨Limits.carried_default, by decide⟩⟩

end Enclave
