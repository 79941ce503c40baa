import Enclave.CommandLine
import Enclave.Proofs.Backend.Handover
import Enclave.Proofs.Backend.Session
import Enclave.Proofs.Run.Request

/-!
# How a request reaches a runner

A container is started with the request as its input; a job is applied with the request in the
environment of its container. Here the calls of both backends are read up to the start of the
runner (`Container.startOf`, `Cluster.startsOf`): its arguments, its variables and its standard
input. Either way the runner is told where to look, finds the text of the request there, and loads
the request from it (`CommandLine.Start.Brings`).

The manifest of a job is read from the text that was applied, in which the text of the request is a
string in the JSON of the manifest. What a cluster makes of the values of variables besides handing
them over is not known here.
-/

namespace Enclave

open Json (Value)

/-! ## Runners that find a request -/

/-- What a runner in a sandbox loads, if it finds a request: the settings are those of the sandbox,
or they cannot be read. -/
def Settings.loaded (s : Settings) (r : Request) : Except String (RunnerSettings × Request) :=
  match RunnerSettings.ofEnvironment s.runnerEnvironment with
  | .error e => .error e.message
  | .ok settings => .ok (settings, r)

theorem Settings.loaded_of_carried {s : Settings} (h : s.limits.Carried) (r : Request) :
    s.loaded r = .ok ((RunnerSettings.ofSettings s).ordered, r) := by
  rw [loaded, runnerEnvironment,
    RunnerSettings.ofEnvironment_toEnvironment (RunnerSettings.carried_ofSettings h)]

namespace CommandLine

/-- A runner that is started so finds the text of a request where it is told to look, and loads the
request. -/
def Start.Brings (start : Start) (s : Settings) (r : Request) : Prop :=
  ∃ args, start.args.mapM id = some args ∧
    requestText start (RunnerArguments.ofList args) = .ok r.text ∧ load start args = s.loaded r

theorem brings_of_text {start : Start} {s : Settings} {r : Request} (args : List String)
    (hwords : r.InWords) (hargs : start.args.mapM id = some args)
    (henv : RunnerSettings.ofEnvironment start.environment
      = RunnerSettings.ofEnvironment s.runnerEnvironment)
    (hsettings : ∀ settings, (RunnerArguments.ofList args).override settings = settings)
    (htext : requestText start (RunnerArguments.ofList args) = .ok r.text) :
    start.Brings s r := by
  refine ⟨args, hargs, htext, ?_⟩
  rw [load, henv, Settings.loaded]
  cases RunnerSettings.ofEnvironment s.runnerEnvironment with
  | error e => rfl
  | ok settings => simp only [htext, Request.trim_text, hwords.decodeText_text, hsettings]

end CommandLine

/-! ## In a container -/

namespace Container

/-- What stands behind the options of a command line: the image, and what the program in it is
started with. -/
def behindOptions : List String → List String
  | o :: v :: rest =>
    if bareOptions.contains o then behindOptions (v :: rest)
    else if isOption o then behindOptions rest
    else o :: v :: rest
  | rest => rest

/-- The start of the program in a container that is started by a call. -/
def startOf (call : Call) : CommandLine.Start where
  args := ((behindOptions (call.args.drop 1)).drop 1).map some
  environment := variablesOf call.args
  textless := []
  input := .ok (call.input.getD "")

variable {s : Settings} {name : String} {r : Request} {args : List String}

theorem behindOptions_bare {o : String} (h : bareOptions.contains o = true) (v : String)
    (rest : List String) : behindOptions (o :: v :: rest) = behindOptions (v :: rest) := by
  rw [behindOptions, if_pos h]

theorem behindOptions_valued {o : String} (h : bareOptions.contains o = false)
    (ho : isOption o = true) (v : String) (rest : List String) :
    behindOptions (o :: v :: rest) = behindOptions rest := by
  rw [behindOptions, h, if_neg (by decide), if_pos ho]

theorem behindOptions_isolation (s : Settings) (rest : List String) :
    behindOptions (isolation s ++ rest) = behindOptions rest := by
  simp [isolation, behindOptions, bareOptions, isOption]

theorem behindOptions_environmentOptions (env : Environment) (image : String) :
    behindOptions (environmentOptions env ++ [image]) = [image] := by
  induction env with
  | nil => rfl
  | cons kv env ih =>
    have hcons : environmentOptions (kv :: env) ++ [image]
        = "-e" :: (kv.1 ++ "=" ++ kv.2) :: (environmentOptions env ++ [image]) := rfl
    rw [hcons, behindOptions_valued (by decide) (by decide), ih]

/-- The program in the container is started without arguments. -/
theorem behindOptions_arguments (h : arguments s name r = .ok args) :
    behindOptions (args.drop 1) = [s.runnerImage] := by
  obtain ⟨_, -, hargs⟩ := bind_eq_ok.mp h
  have hdrop : args.drop 1 = "--rm" :: "-i" :: "--name" :: name :: (isolation s ++
      "-v" :: mount s r :: (environmentOptions s.runnerEnvironment ++ [s.runnerImage])) := by
    rw [← pure_eq_ok.mp hargs]
    simp
  rw [hdrop, behindOptions_bare (by decide), behindOptions_bare (by decide),
    behindOptions_valued (by decide) (by decide), behindOptions_isolation,
    behindOptions_valued (by decide) (by decide), behindOptions_environmentOptions]

/-- The call that starts a container brings the request. -/
theorem brings_startOf (hwords : r.InWords) (h : arguments s name r = .ok args) :
    (startOf ⟨args, some r.text⟩).Brings s r := by
  have hargs : (startOf ⟨args, some r.text⟩).args = [] := by
    rw [startOf, behindOptions_arguments h]
    rfl
  refine CommandLine.brings_of_text [] hwords (congrArg (List.mapM id) hargs) ?_ (fun _ => rfl) rfl
  rw [startOf, variablesOf_arguments h]

/-- **What a dispatch in a container calls**: first what starts the container, with the request as
its input, and then nothing that has an input. -/
theorem dispatch_calls (command : Command) (c : Connection) (h : arguments s name r = .ok args) :
    ∃ x later, (dispatch s command name r c).2 = c.grown (x :: later) ∧
      x.call = ⟨args, some r.text⟩ ∧ ∀ y ∈ later, y.call.input = none := by
  let x : Exchange := ⟨⟨args, some r.text⟩, command c.log ⟨args, some r.text⟩⟩
  let kill : Exchange := ⟨⟨["kill", name], none⟩, command (c.log ++ [x]) ⟨["kill", name], none⟩⟩
  have hcalls : (dispatch s command name r c).2 = c.grown [x] ∨
      (dispatch s command name r c).2 = c.grown [x, kill] := by
    rw [dispatch, h]
    simp only [Command.ask]
    split
    · exact .inl rfl
    split
    · exact .inl rfl
    · have hlog : c.log ++ [x, kill] = c.log ++ [x] ++ [kill] := List.append_cons _ _ _
      rw [Connection.grown, Connection.grown, hlog]
      exact .inr rfl
  obtain hgrown | hgrown := hcalls
  · exact ⟨x, [], hgrown, rfl, by simp⟩
  · exact ⟨x, [kill], hgrown, rfl, by simp [kill]⟩

end Container

/-! ## In a job -/

/-- Settings of the cluster whose numbers in a manifest are words. -/
structure ClusterSettings.InWords (c : ClusterSettings) : Prop where
  user : c.user < 2 ^ 32
  group : c.group < 2 ^ 32
  keepSeconds : c.keepSeconds < 2 ^ 32

namespace Cluster

/-- The start of the program in a container of a job. Nothing is connected to its standard input. -/
def startOf (c : Value) : CommandLine.Start where
  args := (elements (member c "args")).map Value.asString?
  environment := (elements (member c "env")).filterMap variableOf?
  textless := []
  input := .ok ""

/-- The starts of programs by a job. -/
def startsOf (manifest : Value) : List CommandLine.Start := (containersOf manifest).map startOf

/-- The start of a runner whose request is in its environment. -/
def jobStart (s : Settings) (r : Request) : CommandLine.Start where
  args := [some "--request-env", some requestVariable]
  environment := (requestVariable, r.text) :: s.runnerEnvironment
  textless := []
  input := .ok ""

variable {s : Settings} {name : String} {r : Request} {manifest : Value}

theorem brings_jobStart (s : Settings) (hwords : r.InWords) : (jobStart s r).Brings s r :=
  CommandLine.brings_of_text ["--request-env", requestVariable] hwords rfl
    (RunnerSettings.ofEnvironment_request _ _) (fun _ => rfl) rfl

/-! ### The manifest as it is read -/

/-- A path that leads through objects in which no name stands twice. -/
def LeadsOn : Value → List String → Prop
  | _, [] => True
  | v, k :: ks => (∃ fields, v = .obj fields ∧ (fields.map Prod.fst).Nodup) ∧
      LeadsOn (member v k) ks

/-- What a path leads to in a value in order is what it leads to in the value, in order. -/
theorem along_canonical {v : Value} {ks : List String} (h : LeadsOn v ks) :
    member.along v.canonical ks = (member.along v ks).canonical := by
  induction ks generalizing v with
  | nil => rfl
  | cons k ks ih =>
    obtain ⟨⟨fields, rfl, hnodup⟩, hks⟩ := h
    have hmember : member (Value.obj fields).canonical k
        = (member (.obj fields) k).canonical := by
      rw [member, Value.get?_canonical hnodup, member]
      cases (Value.obj fields).get? k <;> rfl
    rw [member.along, List.foldl_cons, hmember]
    exact ih hks

theorem member_canonical {v : Value} {k : String} (h : LeadsOn v [k]) :
    member v.canonical k = (member v k).canonical :=
  along_canonical h

theorem elements_canonical (v : Value) :
    elements v.canonical = (elements v).map Value.canonical := by
  cases v with
  | arr items => simp [elements, Value.asArray?, Value.canonical, Value.canonicalItems_eq]
  | _ => rfl

theorem containersOf_canonical (h : job s name r = .ok manifest) :
    containersOf manifest.canonical = [(container s r).canonical] := by
  have hpath : LeadsOn manifest ["spec", "template", "spec", "containers"] := by
    obtain ⟨_, -, hmanifest⟩ := bind_eq_ok.mp h
    rw [← pure_eq_ok.mp hmanifest]
    exact ⟨⟨_, rfl, by simp⟩, ⟨_, rfl, by simp⟩, ⟨_, rfl, by simp⟩, ⟨_, rfl, by simp⟩, trivial⟩
  rw [containersOf, along_canonical hpath, elements_canonical, ← containersOf, containersOf_job h]
  rfl

/-- The variables of a runner are read alike from entries in either order. -/
theorem filterMap_environment (s : Settings) (r : Request) {f : Value → Value}
    (hf : ∀ kv : String × String, variableOf? (f (variableEntry kv.1 kv.2)) = some kv) :
    ((environment s r).map f).filterMap variableOf?
      = (requestVariable, r.text) :: s.runnerEnvironment := by
  rw [environment, List.map_cons, List.filterMap_cons_some (hf (requestVariable, r.text)),
    List.map_map, List.filterMap_map]
  simp only [Function.comp_def, hf, List.filterMap_some]

theorem startOf_container (s : Settings) (r : Request) :
    startOf (container s r) = jobStart s r := by
  have henv : elements (member (container s r) "env") = (environment s r).map id :=
    (List.map_id _).symm
  rw [startOf, henv, filterMap_environment s r fun _ => rfl]
  rfl

theorem startOf_canonical (s : Settings) (r : Request) :
    startOf (container s r).canonical = jobStart s r := by
  have hmember (k : String) : member (container s r).canonical k
      = (member (container s r) k).canonical :=
    member_canonical ⟨⟨_, rfl, by simp⟩, trivial⟩
  have hentry (kv : String × String) :
      variableOf? (variableEntry kv.1 kv.2).canonical = some kv := by
    have hpath (k : String) : LeadsOn (variableEntry kv.1 kv.2) [k] :=
      ⟨⟨_, rfl, by simp⟩, trivial⟩
    rw [variableOf?, member_canonical (hpath "name"), member_canonical (hpath "value")]
    rfl
  have henv : elements (member (container s r).canonical "env")
      = (environment s r).map Value.canonical := by
    rw [hmember, elements_canonical]
    rfl
  have hargs : elements (member (container s r).canonical "args")
      = [.str "--request-env", .str requestVariable] := by
    rw [hmember, elements_canonical]
    rfl
  rw [startOf, henv, hargs, filterMap_environment s r hentry]
  rfl

/-- The job of a request starts one runner, whether its manifest is taken as it was made or as it is
read. -/
theorem startsOf_job (h : job s name r = .ok manifest) :
    startsOf manifest = [jobStart s r] ∧ startsOf manifest.canonical = [jobStart s r] := by
  constructor
  · rw [startsOf, containersOf_job h, List.map_singleton, startOf_container]
  · rw [startsOf, containersOf_canonical h, List.map_singleton, startOf_canonical]

/-! ### The text that is applied -/

theorem numbers_job (h : job s name r = .ok manifest) :
    manifest.numbers = [.int 0, .int r.seconds, .int s.cluster.keepSeconds, .int s.cluster.user,
      .int s.cluster.group] := by
  have henv : Json.itemNumbers (environment s r) = [] := by
    rw [Json.itemNumbers_eq, List.flatMap_eq_nil_iff, environment, List.forall_mem_cons,
      List.forall_mem_map]
    exact ⟨rfl, fun _ _ => rfl⟩
  obtain ⟨_, -, hmanifest⟩ := bind_eq_ok.mp h
  rw [← pure_eq_ok.mp hmanifest]
  simp [labels, runnerLabel, pod, container, resources, mebibytes, volumes, Value.nat,
    Value.strings, Value.numbers, Json.fieldNumbers, Json.itemNumbers, henv]

theorem nesting_job (h : job s name r = .ok manifest) : manifest.nesting ≤ 9 := by
  have henv : Value.itemNesting (environment s r) ≤ 1 := by
    rw [Value.itemNesting_le_iff, environment, List.forall_mem_cons, List.forall_mem_map]
    exact ⟨Nat.le_refl _, fun _ _ => Nat.le_refl _⟩
  obtain ⟨_, -, hmanifest⟩ := bind_eq_ok.mp h
  rw [← pure_eq_ok.mp hmanifest]
  simp [labels, runnerLabel, pod, container, resources, mebibytes, volumes, Value.nat,
    Value.strings, Value.nesting, Value.fieldNesting, Value.itemNesting]
  omega

/-- A manifest that was applied is read as the manifest in order. -/
theorem parse_manifestText (hwords : r.InWords) (hcluster : s.cluster.InWords)
    (h : job s name r = .ok manifest) :
    Value.parse (manifestText manifest) = .ok manifest.canonical := by
  have hnumbers : ∀ n ∈ manifest.canonical.numbers, n.Carried := by
    intro n hn
    have hn := Json.mem_numbers_canonical hn
    have hseconds := hwords.seconds
    obtain ⟨huser, hgroup, hkeep⟩ := hcluster
    rw [numbers_job h] at hn
    simp only [List.mem_cons, List.not_mem_nil, or_false] at hn
    rcases hn with rfl | rfl | rfl | rfl | rfl <;> constructor <;> omega
  have hnesting : manifest.canonical.nesting ≤ Json.maxDepth :=
    (Json.nesting_canonical_le manifest).trans ((nesting_job h).trans (by decide))
  rw [manifestText, Value.parse_compact hnumbers hnesting, Value.canonical_canonical]

theorem variablesOf_eq (manifest : Value) :
    variablesOf manifest = (startsOf manifest).flatMap CommandLine.Start.environment := by
  rw [startsOf, List.flatMap_map]
  rfl

/-- A manifest with the text of a request in its variable, which starts one runner that finds the
request. -/
def CarriesRequest (manifest : Value) (s : Settings) (r : Request) : Prop :=
  (variablesOf manifest).lookup requestVariable = some r.text ∧
    ∃ start, startsOf manifest = [start] ∧ start.Brings s r

theorem carriesRequest_of_startsOf (hwords : r.InWords) (h : startsOf manifest = [jobStart s r]) :
    CarriesRequest manifest s r := by
  refine ⟨?_, jobStart s r, h, brings_jobStart s hwords⟩
  rw [variablesOf_eq, h, List.flatMap_singleton, jobStart, List.lookup_cons_self]

end Cluster

/-! ## Both transports -/

/-- What a dispatch gives to the command of its backend brings the request to a runner. -/
structure Dispatched.Transports (s : Settings) (d : Dispatched) : Prop where
  /-- Only a container that is started is given anything: the request. -/
  container : s.mode = .container → ∀ x ∈ d.exchanges, ∀ text, x.call.input = some text →
    text = d.request.text ∧ (Container.startOf x.call).Brings s d.request
  /-- A container is started for every request of a dataset with a plain name, unless the clock
  cannot show the end of its time. -/
  started : s.mode = .container → Naming.isDatasetId d.request.datasetId = true → d.Shown →
    ∃ x ∈ d.exchanges, x.call.input = some d.request.text
  /-- Apart from the network policy, only a job that carries the request is applied. -/
  cluster : s.mode = .clusterJob → ∀ x ∈ d.exchanges, ∀ text, x.call.input = some text →
    text = Cluster.manifestText (Cluster.networkPolicy s) ∨
      ∃ manifest, Value.parse text = .ok manifest ∧ Cluster.CarriesRequest manifest s d.request

namespace Settings

variable {s : Settings} {r : Request}

/-- The exchanges of a dispatch in a container: the call that starts it and what follows, or nothing
where the dataset has no plain name or the clock cannot show the end of the time. -/
theorem account_container (hmode : s.mode = .container) (command : Command) (name : String)
    (startMs : Nat) (c : Connection) :
    ((s.account command name startMs r c).exchanges = [] ∧
        (Naming.isDatasetId r.datasetId = true → ¬ (s.account command name startMs r c).Shown)) ∨
      ∃ args, Container.arguments s name r = .ok args ∧
        ∃ x later, (s.account command name startMs r c).exchanges = x :: later ∧
          x.call = ⟨args, some r.text⟩ ∧ ∀ y ∈ later, y.call.input = none := by
  cases hclock : beyondClock startMs r with
  | true =>
    have hlate := (beyondClock_iff.mp hclock).2
    have hexchanges : (s.account command name startMs r c).exchanges = [] := by
      rw [account, dispatchAt_of_beyondClock hclock]
      exact List.drop_length
    exact .inl ⟨hexchanges, fun _ => Nat.not_lt.mpr hlate⟩
  | false =>
    have hconnection : (s.dispatchAt command name startMs r c).2
        = (Container.dispatch s command name r c).2 := by
      rw [dispatchAt, hclock, if_neg (by decide), dispatch, hmode]
    cases hargs : Container.arguments s name r with
    | error e =>
      have hexchanges : (s.account command name startMs r c).exchanges = [] := by
        rw [account, hconnection, Container.dispatch, hargs]
        exact List.drop_length
      refine .inl ⟨hexchanges, fun hid => ?_⟩
      obtain ⟨args, hok⟩ := Container.exists_arguments s name hid
      rw [hok] at hargs
      cases hargs
    | ok args =>
      obtain ⟨x, later, hgrown, hx, hlater⟩ := Container.dispatch_calls command c hargs
      have hexchanges : (s.account command name startMs r c).exchanges = x :: later := by
        rw [account, hconnection, hgrown]
        exact List.drop_left
      exact .inr ⟨args, rfl, x, later, hexchanges, hx, hlater⟩

/-- What a dispatch on a cluster applies: the network policy, and the manifest of the job. -/
theorem account_applied {command : Command} {name text : String} {startMs : Nat} {c : Connection}
    {x : Exchange} (hmode : s.mode = .clusterJob)
    (hx : x ∈ (s.account command name startMs r c).exchanges) (htext : x.call.input = some text) :
    text = Cluster.manifestText (Cluster.networkPolicy s) ∨
      ∃ manifest, Cluster.job s name r = .ok manifest ∧ text = Cluster.manifestText manifest := by
  have hasked := (account_continues hmode name startMs r c).sound.asked x hx
  rcases hasked with hcall | ⟨manifest, hmanifest, hcall⟩ | hcall | hcall | hcall | ⟨force, hcall⟩
  · rw [hcall] at htext
    exact .inl (Option.some.inj htext).symm
  · rw [hcall] at htext
    exact .inr ⟨manifest, hmanifest, (Option.some.inj htext).symm⟩
  all_goals
    rw [hcall] at htext
    cases htext

/-- Where the network policy is applied, or was before, a dispatch applies the job of its
request. -/
theorem account_applies {command : Command} {manifest : Value} {name : String} {startMs : Nat}
    {c : Connection} (hmode : s.mode = .clusterJob)
    (hshown : (s.account command name startMs r c).Shown)
    (hguard : (Cluster.Job.guardNetwork ⟨s, command, name, r⟩ ⟨c, 0⟩).1 = .ok ())
    (hmanifest : Cluster.job s name r = .ok manifest) :
    ∃ x ∈ (s.account command name startMs r c).exchanges,
      x.call.input = some (Cluster.manifestText manifest) := by
  have hclock : beyondClock startMs r = false := by
    rw [← Bool.not_eq_true, beyondClock_iff]
    exact fun hlate => Nat.not_le.mpr hshown hlate.2
  let j : Cluster.Job := ⟨s, command, name, r⟩
  obtain ⟨k, -, hjob, hrun⟩ := j.run_of_guardNetwork manifest true none (q := ⟨c, 0⟩)
    (Prod.ext hguard rfl) (by simp) (fun _ => rfl) (.inl rfl)
  obtain ⟨x, hx⟩ := Option.isSome_iff_exists.mp hjob
  have hgrown : ∃ before, (j.guardNetwork ⟨c, 0⟩).2.connection.log = c.log ++ before := by
    cases hguarded : c.guarded with
    | true =>
      rw [Cluster.Job.guardNetwork_of_guarded (p := ⟨c, 0⟩) hguarded]
      exact ⟨[], (List.append_nil _).symm⟩
    | false =>
      obtain ⟨g, -, -, hconnection⟩ := j.guardNetwork_spec hguarded
      exact ⟨[g], congrArg Connection.log hconnection⟩
  obtain ⟨before, hbefore⟩ := hgrown
  refine ⟨x, ?_, congrArg Call.input (k.job_call x hx)⟩
  rw [account, dispatchAt_of_not_beyondClock command hmode name c hclock, Cluster.dispatch,
    hmanifest]
  simp [Cluster.Job.delete, Command.ask, hrun, Connection.grown, hbefore, j,
    Cluster.Job.Course.later, hx]

theorem account_transports (hwords : r.InWords) (hcluster : s.cluster.InWords) (command : Command)
    (name : String) (startMs : Nat) (c : Connection) :
    (s.account command name startMs r c).Transports s where
  container hmode x hx text htext := by
    obtain ⟨hnone, -⟩ | ⟨args, hargs, y, later, hexchanges, hy, hlater⟩ :=
      account_container hmode command name startMs c
    · rw [hnone] at hx
      cases hx
    rw [hexchanges] at hx
    obtain rfl | hx := List.mem_cons.mp hx
    · rw [hy] at htext ⊢
      exact ⟨(Option.some.inj htext).symm, Container.brings_startOf hwords hargs⟩
    · rw [hlater x hx] at htext
      cases htext
  started hmode hid hshown := by
    obtain ⟨-, hlate⟩ | ⟨args, -, x, later, hexchanges, hx, -⟩ :=
      account_container hmode command name startMs c
    · exact absurd hshown (hlate hid)
    · exact ⟨x, by rw [hexchanges]; exact List.mem_cons_self, congrArg Call.input hx⟩
  cluster hmode x hx text htext := by
    obtain hpolicy | ⟨manifest, hmanifest, rfl⟩ := account_applied hmode hx htext
    · exact .inl hpolicy
    · exact .inr ⟨manifest.canonical, Cluster.parse_manifestText hwords hcluster hmanifest,
        Cluster.carriesRequest_of_startsOf hwords (Cluster.startsOf_job hmanifest).2⟩

end Settings

/-- **A request reaches the runner as it is**, on either transport. Its text decodes to the request,
by the kind of task that its tag names. A container is given that text as its input and a job holds
it in a variable, so a runner that is started by either loads the request, with the settings of the
sandbox if those can travel. -/
theorem request_transported {r : Request} (hwords : r.InWords) :
    Json.decodeText Request.decoder (Text.trim r.text) = .ok r ∧
    (∃ v, Value.parse r.text = .ok v ∧ v.get? "query_type" = some (.str r.task.kind.wire)) ∧
    ∀ (s : Settings) (command : Command) (name : String) (startMs : Nat) (c : Connection),
      s.cluster.InWords →
        (s.account command name startMs r c).Transports s ∧
        (∀ manifest, Cluster.job s name r = .ok manifest → Cluster.CarriesRequest manifest s r) ∧
        (Naming.isDatasetId r.datasetId = true → ∃ manifest, Cluster.job s name r = .ok manifest) ∧
        (s.limits.Carried → ∃ settings, s.loaded r = .ok (settings, r)) := by
  refine ⟨?_, hwords.tag_text, fun s command name startMs c hcluster => ⟨?_, ?_, ?_, ?_⟩⟩
  · rw [Request.trim_text]
    exact hwords.decodeText_text
  · exact Settings.account_transports hwords hcluster command name startMs c
  · exact fun manifest hmanifest =>
      Cluster.carriesRequest_of_startsOf hwords (Cluster.startsOf_job hmanifest).1
  · exact Cluster.exists_job s name
  · exact fun hlimits => ⟨_, Settings.loaded_of_carried hlimits r⟩

/-- A request whose strings hold quotes, control characters and what looks like other members. -/
def hostileRequest : Request where
  datasetId := "tickets"
  files := [⟨"a.csv\",\"query_type\":\"script", "/data/\x00\\\n"⟩, ⟨"\x7d", "\x7b'"⟩]
  task := .sql " \",\"code\":\"\",\"query_type\":\"script\"\x7d \t\r\x1f$(HOME) é "
  seconds := 30
  maxRows := 2 ^ 64 - 1
  maxOutputBytes := 0

/-- Its first dispatch, by a command that does everything and says nothing. -/
def hostileIn (s : Settings) : Dispatched :=
  s.account Settings.silentCommand "sqlsandbox-0" 0 hostileRequest .fresh

theorem request_transported_hostile :
    Json.decodeText Request.decoder (Text.trim hostileRequest.text) = .ok hostileRequest ∧
    (hostileIn .default).Transports .default ∧
    (∃ x ∈ (hostileIn .default).exchanges, x.call.input = some hostileRequest.text) ∧
    (hostileIn Settings.clusterSettings).Transports Settings.clusterSettings ∧
    (hostileIn Settings.clusterSettings).exchanges.filterMap (fun x => x.call.verb) =
      ["apply", "apply", "get", "delete"] ∧
    ∃ settings, Settings.default.loaded hostileRequest = .ok (settings, hostileRequest) := by
  have hwords : hostileRequest.InWords := ⟨by decide, by decide, by decide⟩
  obtain ⟨hdecode, -, hsettings⟩ := request_transported hwords
  have hcontainer := hsettings .default Settings.silentCommand "sqlsandbox-0" 0 .fresh
    ⟨by decide, by decide, by decide⟩
  have hcluster := hsettings Settings.clusterSettings Settings.silentCommand "sqlsandbox-0" 0 .fresh
    ⟨by decide, by decide, by decide⟩
  have hshown : (hostileIn .default).Shown := by
    have hlate : 30 * 1000 < clockEndMs := by decide
    exact hlate
  exact ⟨hdecode, hcontainer.1, hcontainer.1.started rfl (by decide) hshown, hcluster.1,
    by decide +kernel, hcontainer.2.2.2 Limits.carried_default⟩

end Enclave
