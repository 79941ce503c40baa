import Enclave.Proofs.Backend.Handover
import Enclave.Proofs.Runner.Confinement
import Enclave.Proofs.Sandbox.Dispatch

/-!
# The directory of a dataset

The directory of a dataset has a name for the sandbox, which writes it into the paths of a request,
for the container or the job, where the files are mounted, and for the runner, which checks the
paths against it. `Placed` says that these are one directory, and that the sandbox and the runner
give the files the same table names. What a runner of a prepared request still can refuse is decided
by the files that it finds there (`ReadBy.served`), never by the texts of the request.
-/

namespace Enclave

/-! ## What a runner finds -/

/-- A path leads to a regular file at or below the place of a root. -/
def Path.LeadsUnder (t : Path.Tree) (root path : String) : Prop :=
  ∃ base place, t.resolve root = .ok base ∧ t.resolve path = .ok place ∧ base <+: place ∧
    t.isFileAt place = true

namespace Runner

variable {t : Path.Tree} {root : String} {files : List FileRef} {tables : List TableFile}

theorem names_of_forall₂ (h : List.Forall₂ (FileCleared t root) files tables) :
    tables.map TableFile.name = files.map fun f => Naming.identifierOf f.name := by
  induction h with
  | nil => rfl
  | cons hfile _ ih => rw [List.map_cons, List.map_cons, hfile.named, ih]

/-- Files that pass the lexical check become tables if each of them is found. -/
theorem exists_forall₂_iff (hlexical : ∀ f ∈ files, Path.checkLexical root f.path = .ok f.path) :
    (∃ tables, List.Forall₂ (FileCleared t root) files tables) ↔
      ∀ f ∈ files, Path.LeadsUnder t root f.path := by
  constructor
  · rintro ⟨tables, h⟩
    induction h with
    | nil => exact fun f hf => (List.not_mem_nil hf).elim
    | cons hfile _ ih =>
      obtain ⟨base, place, hbase, hplace, hprefix, hregular, -⟩ := hfile.resolved
      exact List.forall_mem_cons.mpr ⟨⟨base, place, hbase, hplace, hprefix, hregular⟩,
        ih (List.forall_mem_cons.mp hlexical).2⟩
  · intro h
    induction files with
    | nil => exact ⟨[], .nil⟩
    | cons f files ih =>
      obtain ⟨hfile, hfiles⟩ := List.forall_mem_cons.mp hlexical
      obtain ⟨⟨base, place, hbase, hplace, hprefix, hregular⟩, h⟩ := List.forall_mem_cons.mp h
      obtain ⟨tables, htables⟩ := ih hfiles h
      have hcleared := fileCleared_iff.mpr ⟨rfl, resolveUnder_eq_ok.mpr
        ⟨hfile, base, place, hbase, hplace, hprefix, hregular, rfl⟩⟩
      exact ⟨_, .cons hcleared htables⟩

end Runner

/-! ## What a runner is told -/

/-- The environments that the backends hand to the runner of a request: the variables in the command
line of a container, and the variables of a job. -/
inductive HandedOver (s : Settings) (r : Request) : Environment → Prop where
  | container {name : String} {args : List String} (h : Container.arguments s name r = .ok args) :
      HandedOver s r (Container.variablesOf args)
  | job {name : String} {manifest : Json.Value} (h : Cluster.job s name r = .ok manifest) :
      HandedOver s r (Cluster.variablesOf manifest)

theorem RunnerSettings.dataRoot_of_ofEnvironment {env : Environment} {rs : RunnerSettings}
    (h : ofEnvironment env = .ok rs) :
    rs.dataRoot = (env.lookup "SQLSANDBOX_DATA_ROOT").getD "/data" := by
  obtain ⟨_, -, h⟩ := bind_eq_ok.mp h
  obtain ⟨_, -, h⟩ := bind_eq_ok.mp h
  rw [← pure_eq_ok.mp h]

namespace HandedOver

variable {s : Settings} {r : Request} {env : Environment}

/-- Either backend hands over the settings of the sandbox. -/
theorem ofEnvironment_eq (h : HandedOver s r env) :
    RunnerSettings.ofEnvironment env = RunnerSettings.ofEnvironment s.runnerEnvironment := by
  cases h with
  | container h => rw [Container.variablesOf_arguments h]
  | job h => rw [Cluster.variablesOf_job h, RunnerSettings.ofEnvironment_request]

theorem dataRoot {rs : RunnerSettings} (h : HandedOver s r env)
    (hrs : RunnerSettings.ofEnvironment env = .ok rs) : rs.dataRoot = s.sandboxDataRoot := by
  rw [h.ofEnvironment_eq] at hrs
  rw [RunnerSettings.dataRoot_of_ofEnvironment hrs, Settings.runnerEnvironment,
    (RunnerSettings.ofSettings s).lookup_toEnvironment.1]
  rfl

end HandedOver

/-! ## One directory -/

namespace Sandbox

/-- A runner that finds the files of a submission where its request says. The directory is the one
that the paths of the request were made for, the table names are those that the sandbox derived, and
the table of a plan is one of them. The request has its tables wherever its files are found. -/
structure ReadBy (rs : RunnerSettings) (directory : String) (sub : Submission)
    (request : Request) : Prop where
  place : Path.join rs.dataRoot request.datasetId = directory
  plainId : Naming.checkDatasetId request.datasetId = .ok ()
  lexical : ∀ f ∈ request.files, Path.checkLexical directory f.path = .ok f.path
  names : ∃ names, Naming.tableNames (sub.dataset.tables.map Table.file) = .ok names ∧
    Naming.tableNames (request.files.map FileRef.name) = .ok names ∧
    (∀ p, sub.plan = some p → names.count p.table = 1) ∧
    ∀ t tables, Runner.tables t rs.dataRoot request = .ok tables →
      tables.map TableFile.name = names
  served : ∀ t, (∃ tables, Runner.tables t rs.dataRoot request = .ok tables) ↔
    ∀ f ∈ request.files, Path.LeadsUnder t directory f.path

/-- A request whose dataset is in one place for everybody: in the container and in the job it is
mounted at the directory of the sandbox, and every runner that is configured from what it is handed
reads it there. -/
structure Placed (s : Settings) (sub : Submission) (request : Request) : Prop where
  dataset : request.datasetId = sub.dataset.id
  container : ∀ name, ∃ args, Container.arguments s name request = .ok args ∧
    Container.valuesOf "-v" args = [Path.join s.hostDataRoot sub.dataset.id ++ ":" ++
      Path.join s.sandboxDataRoot sub.dataset.id ++ ":ro"]
  job : ∀ name, ∃ manifest, Cluster.job s name request = .ok manifest ∧
    Cluster.mountsOf manifest =
      [.obj [("name", .str "datasets"),
          ("mountPath", .str (Path.join s.sandboxDataRoot sub.dataset.id)),
          ("subPath", .str sub.dataset.id), ("readOnly", .bool true)],
        .obj [("name", .str "tmp"), ("mountPath", .str "/tmp")]]
  configured : s.limits.Carried → ∀ env, HandedOver s request env →
    ∃ rs, RunnerSettings.ofEnvironment env = .ok rs
  read : ∀ env rs, HandedOver s request env → RunnerSettings.ofEnvironment env = .ok rs →
    ReadBy rs (Path.join s.sandboxDataRoot sub.dataset.id) sub request

variable {s : Settings} {sb : Sandbox} {backend : String} {inspector : Option Inspector}
  {sub : Submission} {request : Request} {asked : RequestRecord}

/-- The table of a plan that fits a dataset is a table of the dataset. -/
theorem table_mem_of_check {p : Plan} {d : Dataset} {maxLimit : Nat}
    (h : p.check d maxLimit = .ok ()) : p.table ∈ d.tables.map Table.name := by
  cases htable : d.table? p.table with
  | none =>
    rw [Plan.check, htable] at h
    cases h
  | some t =>
    rw [Dataset.table?] at htable
    have hname := List.find?_some htable
    exact List.mem_map.mpr ⟨t, List.mem_of_find?_eq_some htable, eq_of_beq hname⟩

/-- The task of a plan submission comes from a plan that fits the dataset. -/
theorem ClearedTask.fits {task : Task} (h : ClearedTask s inspector sub task) {p : Plan}
    (hp : sub.plan = some p) : p.check sub.dataset s.maxPlanLimit = .ok () := by
  cases h with
  | plan p' statement hplan hraw hfits =>
    cases hplan.symm.trans hp
    exact hfits
  | sql text hplan => cases hplan.symm.trans hp
  | script code i hplan => cases hplan.symm.trans hp

/-- A runner whose root is that of the sandbox reads what was prepared. -/
theorem readBy_of_prepare (hsb : ofSettings s backend inspector = .ok sb)
    (h : sb.prepare sub = .ok (request, asked)) {rs : RunnerSettings}
    (hroot : rs.dataRoot = s.sandboxDataRoot) :
    ReadBy rs (Path.join s.sandboxDataRoot sub.dataset.id) sub request := by
  obtain ⟨hcleared, -⟩ := prepare_cleared hsb h
  obtain ⟨-, -, hsandboxRoot, -, -, -⟩ := ofSettings_eq_ok hsb
  -- The paths and the names were made from the tables of the dataset when the files were cleared.
  obtain ⟨hfileNames, hlexical, hnodup⟩ := files_eq_ok (files_of_prepare h)
  rw [hsandboxRoot] at hlexical
  have hdirectory : Path.join rs.dataRoot request.datasetId
      = Path.join s.sandboxDataRoot sub.dataset.id := by rw [hroot, hcleared.dataset]
  have hid := Naming.checkDatasetId_eq_ok.mp hcleared.plainId
  rw [← Naming.map_identifierOf_name] at hnodup
  have hnames := Naming.tableNames_of_nodup hnodup
  refine ⟨hdirectory, hcleared.plainId, hlexical,
    ⟨_, hfileNames ▸ hnames, hnames, fun p hp => ?_, fun t tables htables => ?_⟩, fun t => ?_⟩
  · rw [hnodup.count, if_pos]
    rw [hfileNames, Naming.map_identifierOf_file]
    exact table_mem_of_check (hcleared.task.fits hp)
  · rw [Runner.names_of_forall₂ (Runner.tables_eq_ok.mp htables).files,
      Naming.map_identifierOf_name]
  · rw [← Runner.exists_forall₂_iff hlexical, ← hdirectory]
    constructor
    · rintro ⟨tables, htables⟩
      exact ⟨tables, (Runner.tables_eq_ok.mp htables).files⟩
    · rintro ⟨tables, htables⟩
      have hdistinct := Naming.map_identifierOf_name _ ▸ hnodup
      exact ⟨tables, Runner.tables_eq_ok.mpr ⟨hid, hdistinct, htables⟩⟩

/-- **A dataset is in one place for everybody.** Whatever the roots, the id and the file names are,
the request of a submission that was prepared is mounted, handed over and read at one directory and
under one list of table names. -/
theorem placed_of_prepare (hsb : ofSettings s backend inspector = .ok sb)
    (hprepared : (sb.prepare sub).map Prod.fst = .ok request) : Placed s sub request := by
  obtain ⟨⟨_, asked⟩, h, rfl⟩ := map_eq_ok.mp hprepared
  obtain ⟨hcleared, -⟩ := prepare_cleared hsb h
  have hid := Naming.checkDatasetId_eq_ok.mp hcleared.plainId
  refine ⟨hcleared.dataset, fun name => ?_, fun name => ?_, fun hlimits env henv => ?_,
    fun env rs henv hrs => readBy_of_prepare hsb h (henv.dataRoot hrs)⟩
  · obtain ⟨args, hargs⟩ := Container.exists_arguments s name hid
    refine ⟨args, hargs, ?_⟩
    rw [Container.valuesOf_mount hargs, Container.mount, Settings.hostDirectory,
      Settings.runnerDirectory, hcleared.dataset]
  · obtain ⟨manifest, hmanifest⟩ := Cluster.exists_job s name hid
    refine ⟨manifest, hmanifest, ?_⟩
    rw [Cluster.mountsOf_job hmanifest, Settings.runnerDirectory, hcleared.dataset]
  · rw [henv.ofEnvironment_eq]
    exact ⟨_, RunnerSettings.ofEnvironment_toEnvironment
      (RunnerSettings.carried_ofSettings hlimits)⟩

theorem placed_of_prepare_tickets :
    (ticketSandbox.prepare ticketSubmission).map Prod.fst = .ok ticketRequest ∧
      Placed .default ticketSubmission ticketRequest := by
  have hsandbox : ofSettings Settings.default "container" none = .ok ticketSandbox := rfl
  have hprepared : (ticketSandbox.prepare ticketSubmission).map Prod.fst = .ok ticketRequest := by
    decide +kernel
  exact ⟨hprepared, placed_of_prepare hsandbox hprepared⟩

end Sandbox

end Enclave
