import Enclave.Runner
import Enclave.Proofs.Naming
import Enclave.Proofs.Path.Lexical
import Mathlib.Data.List.Forall2

/-!
# What a runner touches

A runner reads the files of its request and hands them to an engine or to an interpreter. Which
files those can be is said by `FilesCleared`, and `tables_eq_ok` says that the runner makes tables
of exactly the files that are cleared. `run_confined` draws the conclusion for whole requests, also
for such as no sandbox would ever make.
-/

namespace Enclave

namespace Runner

/-! ## Files -/

/-- A file of a request as the table that it becomes: its path passes the lexical check against the
root and leads to a regular file below the place of the root, and the table has the name of the file
and the canonical path. -/
structure FileCleared (t : Path.Tree) (root : String) (f : FileRef) (table : TableFile) : Prop where
  lexical : Path.checkLexical root f.path = .ok f.path
  resolved : ∃ base place, t.resolve root = .ok base ∧ t.resolve f.path = .ok place ∧
    base <+: place ∧ t.isFileAt place = true ∧ table.path = Path.Tree.pathOf place
  named : table.name = Naming.identifierOf f.name

/-- The files of a request as the tables that they become, one for each in order. -/
structure FilesCleared (t : Path.Tree) (dataRoot : String) (r : Request)
    (tables : List TableFile) : Prop where
  id : Naming.isDatasetId r.datasetId = true
  names : (r.files.map fun f => Naming.identifierOf f.name).Nodup
  files : List.Forall₂ (FileCleared t (Path.join dataRoot r.datasetId)) r.files tables

theorem resolveUnder_eq_ok {t : Path.Tree} {root path found : String} :
    Path.resolveUnder t root path = .ok found ↔ Path.checkLexical root path = .ok path ∧
      ∃ base place, t.resolve root = .ok base ∧ t.resolve path = .ok place ∧ base <+: place ∧
        t.isFileAt place = true ∧ found = Path.Tree.pathOf place := by
  rw [Path.resolveUnder, map_eq_ok]
  constructor
  · rintro ⟨place, h, rfl⟩
    obtain ⟨accepted, hlexical, hplace⟩ := bind_eq_ok.mp h
    obtain ⟨rfl, -⟩ := Path.strictlyBelow_of_checkLexical hlexical
    split at hplace
    · cases hplace
    rename_i base hbase
    split at hplace
    · cases hplace
    rename_i found hfound
    split at hplace
    · cases hplace
    rename_i hprefix
    split at hplace
    · cases hplace
    rename_i hfile
    cases hplace
    exact ⟨hlexical, base, place, hbase, hfound, by simpa using hprefix, by simpa using hfile, rfl⟩
  · rintro ⟨hlexical, base, place, hbase, hfound, hprefix, hfile, rfl⟩
    refine ⟨place, ?_, rfl⟩
    have hinside : base.isPrefixOf place = true := List.isPrefixOf_iff_prefix.mpr hprefix
    rw [Path.placeUnder, hlexical]
    simp only [bind, Except.bind, hbase, hfound, hinside, hfile]
    rfl

theorem fileCleared_iff {t : Path.Tree} {root : String} {f : FileRef} {name path : String} :
    FileCleared t root f ⟨name, path⟩ ↔
      name = Naming.identifierOf f.name ∧ Path.resolveUnder t root f.path = .ok path := by
  rw [resolveUnder_eq_ok]
  constructor
  · rintro ⟨hlexical, hresolved, hnamed⟩
    exact ⟨hnamed, hlexical, hresolved⟩
  · rintro ⟨hnamed, hlexical, hresolved⟩
    exact ⟨hlexical, hresolved, hnamed⟩

theorem confine_eq_ok {t : Path.Tree} {root : String} {files : List FileRef}
    {tables : List TableFile} :
    confine t root files (files.map fun f => Naming.identifierOf f.name) = .ok tables ↔
      List.Forall₂ (FileCleared t root) files tables := by
  induction files generalizing tables with
  | nil =>
    rw [List.forall₂_nil_left_iff]
    simp [confine, eq_comm]
  | cons f files ih =>
    rw [List.map_cons, confine, bind_eq_ok]
    constructor
    · rintro ⟨path, hpath, h⟩
      obtain ⟨rest, hrest, h⟩ := bind_eq_ok.mp h
      obtain rfl := pure_eq_ok.mp h
      exact .cons (fileCleared_iff.mpr ⟨rfl, hpath⟩) (ih.mp hrest)
    · intro h
      cases h with
      | cons hfile hrest =>
        rename_i table rest
        obtain ⟨name, path⟩ := table
        obtain ⟨hname, hpath⟩ := fileCleared_iff.mp hfile
        rw [hname]
        exact ⟨path, hpath, bind_eq_ok.mpr ⟨rest, ih.mpr hrest, pure_eq_ok.mpr rfl⟩⟩

/-- The tables of a request are its files, if they are cleared; there are none otherwise. -/
theorem tables_eq_ok {t : Path.Tree} {dataRoot : String} {r : Request}
    {tables : List TableFile} :
    Runner.tables t dataRoot r = .ok tables ↔ FilesCleared t dataRoot r tables := by
  constructor
  · intro h
    obtain ⟨_, hid, h⟩ := bind_eq_ok.mp h
    obtain ⟨names, hnamed, h⟩ := bind_eq_ok.mp h
    obtain ⟨rfl, hnodup⟩ := Naming.tableNames_eq_ok hnamed
    rw [Naming.map_identifierOf_name] at hnodup h
    exact ⟨Naming.checkDatasetId_eq_ok.mp hid, hnodup, confine_eq_ok.mp h⟩
  · rintro ⟨hid, hnodup, hfiles⟩
    rw [← Naming.map_identifierOf_name] at hnodup
    rw [Runner.tables, Naming.checkDatasetId_eq_ok.mpr hid, Naming.tableNames_of_nodup hnodup,
      Naming.map_identifierOf_name]
    exact confine_eq_ok.mpr hfiles

/-! ## The course of a request -/

/-- What has to hold for the task of a request to be run over some tables: its files are cleared,
and a statement passes the policy, or scripts are enabled. -/
structure TaskCleared (s : RunnerSettings) (t : Path.Tree) (r : Request)
    (tables : List TableFile) : Prop where
  files : FilesCleared t s.dataRoot r tables
  statement : ∀ statement, r.task = .sql statement → Sql.check statement = .ok ()
  script : ∀ code, r.task = .script code → s.scriptEnabled = true

/-- A script that no interpreter can be started for: there is none, or its deadline lies beyond the
clock. -/
structure Unstartable (tools : RunnerTools) (r : Request) (time : RunTime) : Prop where
  script : ∃ code, r.task = .script code
  hindered : tools.interpreter = none ∨ clockEndMs ≤ time.startMs + innerDeadlineMs r.seconds

/-- Everything that can become of a request. -/
inductive Course (s : RunnerSettings) (tools : RunnerTools) (r : Request) (time : RunTime) :
    Ran → Prop where
  /-- It is refused, which a cleared task is only for want of an interpreter. -/
  | refused (message : String)
      (hcause : ∀ tables, TaskCleared s tools.files r tables → Unstartable tools r time) :
      Course s tools r time (.unaided (.failed message time.tookMs))
  /-- Its statement is handed to the engine. -/
  | queried (tables : List TableFile) (statement : String) (htask : r.task = .sql statement)
      (hcleared : TaskCleared s tools.files r tables) :
      Course s tools r time
        ⟨.ok (resultOf r time.tookMs (tools.engine tables statement (fetchRows r.maxRows))),
          [.engine tables statement (fetchRows r.maxRows)]⟩
  /-- The deadline of its script lies beyond the clock. -/
  | crashed (tables : List TableFile) (code : String) (htask : r.task = .script code)
      (hcleared : TaskCleared s tools.files r tables)
      (hlate : clockEndMs ≤ time.startMs + innerDeadlineMs r.seconds) :
      Course s tools r time ⟨.error .deadlineBeyondClock, []⟩
  /-- Its script is handed to the interpreter. -/
  | scripted (tables : List TableFile) (code : String) (i : Interpreter)
      (htask : r.task = .script code) (hcleared : TaskCleared s tools.files r tables) :
      Course s tools r time
        ⟨.ok (Script.read (scriptBudget r) time.tookMs
            (i (Script.call s.importPolicy s.limits tables code (scriptBudget r)))),
          [.interpreter (Script.call s.importPolicy s.limits tables code (scriptBudget r))]⟩

section Run

variable {s : RunnerSettings} {tools : RunnerTools} {r : Request} {tables : List TableFile}

theorem course_statement (hfiles : FilesCleared tools.files s.dataRoot r tables)
    {statement : String} (htask : r.task = .sql statement) (time : RunTime) :
    Course s tools r time (runStatement tools.engine tables statement r time.tookMs) := by
  unfold runStatement
  split
  · rename_i e hcheck
    refine .refused _ fun tables' hcleared => ?_
    have hok := hcleared.statement statement htask
    rw [hcheck] at hok
    cases hok
  · rename_i hcheck
    refine .queried tables statement htask ⟨hfiles, fun statement' htask' => ?_,
      fun code hcode => ?_⟩
    · cases htask.symm.trans htask'
      exact hcheck
    · cases htask.symm.trans hcode

theorem course_script (hfiles : FilesCleared tools.files s.dataRoot r tables)
    {code : String} (htask : r.task = .script code) (time : RunTime) :
    Course s tools r time (runScript s tools.interpreter tables code r time) := by
  unfold runScript
  split
  · rename_i hdisabled
    refine .refused _ fun tables' hcleared => ?_
    rw [hcleared.script code htask] at hdisabled
    cases hdisabled
  rename_i henabled
  have hcleared : TaskCleared s tools.files r tables := by
    refine ⟨hfiles, fun statement htask' => ?_, fun _ _ => by simpa using henabled⟩
    cases htask.symm.trans htask'
  split
  · rename_i hnone
    exact .refused _ fun _ _ => ⟨⟨code, htask⟩, .inl hnone⟩
  rename_i i _
  by_cases hlate : clockEndMs ≤ time.startMs + (scriptBudget r).deadlineMs
  · rw [Script.run, if_pos hlate]
    exact .crashed tables code htask hcleared hlate
  · rw [Script.run, if_neg hlate]
    exact .scripted tables code i htask hcleared

theorem run_course (s : RunnerSettings) (tools : RunnerTools) (r : Request) (time : RunTime) :
    Course s tools r time (run s tools r time) := by
  unfold run
  split
  · rename_i e hfailed
    refine .refused _ fun tables hcleared => ?_
    have hok := tables_eq_ok.mpr hcleared.files
    rw [hfailed] at hok
    cases hok
  · rename_i tables hok
    have hfiles := tables_eq_ok.mp hok
    split
    · rename_i statement htask
      exact course_statement hfiles htask time
    · rename_i code htask
      exact course_script hfiles htask time

end Run

/-! ## Confinement -/

/-- How far a run is confined. A tool is used once at most, for the task of the request and over the
tables of its cleared files. A cleared task reaches its tool, if there is an interpreter to start and
a deadline to start it with. What is not cleared uses no tool and is answered with an error, as is
whatever else uses none, unless the deadline of a cleared script made the runner crash. -/
structure Confined (s : RunnerSettings) (tools : RunnerTools) (r : Request) (time : RunTime)
    (ran : Ran) : Prop where
  once : ran.uses.length ≤ 1
  engine : ∀ tables statement rows, .engine tables statement rows ∈ ran.uses →
    r.task = .sql statement ∧ TaskCleared s tools.files r tables ∧ rows = fetchRows r.maxRows
  interpreter : ∀ call, .interpreter call ∈ ran.uses → ∃ tables code,
    r.task = .script code ∧ TaskCleared s tools.files r tables ∧
      call = Script.call s.importPolicy s.limits tables code (scriptBudget r)
  reached : ∀ tables, TaskCleared s tools.files r tables → ¬ Unstartable tools r time →
    ran.uses = match r.task with
      | .sql statement => [.engine tables statement (fetchRows r.maxRows)]
      | .script code =>
        [.interpreter (Script.call s.importPolicy s.limits tables code (scriptBudget r))]
  refused : (∀ tables, ¬ TaskCleared s tools.files r tables) →
    ran.uses = [] ∧ ∃ result, ran.result = .ok result ∧ result.status = .error
  idle : ran.uses = [] → (∃ result, ran.result = .ok result ∧ result.status = .error) ∨
    ran.result = .error .deadlineBeyondClock ∧ ∃ tables, TaskCleared s tools.files r tables

section Confined

variable {s : RunnerSettings} {tools : RunnerTools} {r : Request} {time : RunTime}
  {result : Except Crash RunResult} {tables : List TableFile}

/-- The files of a request are cleared as one list of tables only. -/
theorem TaskCleared.tables_unique {tables' : List TableFile}
    (h : TaskCleared s tools.files r tables) (h' : TaskCleared s tools.files r tables') :
    tables' = tables := by
  have hok := tables_eq_ok.mpr h.files
  rw [tables_eq_ok.mpr h'.files] at hok
  cases hok
  rfl

end Confined

end Runner

end Enclave
