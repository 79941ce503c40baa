import Enclave.Proofs.Naming.Collision
import Enclave.Proofs.Plan.Misfit
import Enclave.Proofs.Plan.Writable
import Enclave.Proofs.Record.Store
import Enclave.Proofs.Sandbox.Dispatch

/-!
# Failures that tell when they happened

A caller looks at a failure to learn whether a run was attempted (`Failure.beforeDispatch`). Each
check of a submission fails with what speaks of the submission (`FailsEarly`), and each call of a
store with what does not (`StoreOps.FailsLate`); both are stated for one check and one call, and go
through everything that is built of them. In between stands the inspector of scripts, which is a
program of its own. A script of which it says nothing is refused too, before anything is run, and
this refusal does not show (`Sandbox.Uninspected`): `refusals_told_apart` is true up to it.
-/

namespace Enclave

open Json (Value)

variable {σ α β : Type}

/-! ## Checks of a submission -/

/-- An outcome that fails only with what speaks of the submission. -/
def FailsEarly (x : Outcome α) : Prop := ∀ e, x = .error e → e.beforeDispatch = true

theorem failsEarly_ok (a : α) : FailsEarly (.ok a) := by
  intro e h
  cases h

theorem failsEarly_error {e : Failure} (he : e.beforeDispatch = true) :
    FailsEarly (.error e : Outcome α) := by
  intro e' h
  cases h
  exact he

theorem FailsEarly.bind {x : Outcome α} {f : α → Outcome β} (hx : FailsEarly x)
    (hf : ∀ a, FailsEarly (f a)) : FailsEarly (x >>= f) := by
  cases x with
  | error e => exact failsEarly_error (hx e rfl)
  | ok a => exact hf a

theorem BudgetCeiling.grant_failsEarly (c : BudgetCeiling) (asked : Budget) :
    FailsEarly (c.grant asked) := by
  unfold grant
  split
  · exact failsEarly_error rfl
  split
  · exact failsEarly_error rfl
  split
  · exact failsEarly_error rfl
  · exact failsEarly_ok _

theorem Naming.checkDatasetId_failsEarly (id : String) : FailsEarly (checkDatasetId id) := by
  unfold checkDatasetId
  split
  · exact failsEarly_ok ()
  · exact failsEarly_error rfl

theorem Naming.tableNames_failsEarly (names : List String) : FailsEarly (tableNames names) := by
  intro e h
  have hderives := tableNames_derives names
  by_cases hnodup : (names.map identifierOf).Nodup
  · obtain ⟨tables, htables⟩ := hderives.succeeds.mpr hnodup
    rw [h] at htables
    cases htables
  · obtain ⟨before, earlier, name, -, hcollides⟩ := hderives.collides hnodup
    rw [h] at hcollides
    cases hcollides
    rfl

theorem Path.checkLexical_failsEarly (root path : String) :
    FailsEarly (checkLexical root path) := by
  unfold checkLexical reject
  repeat' split
  case isFalse.isFalse.isFalse.isFalse.isFalse => exact failsEarly_ok path
  all_goals exact failsEarly_error rfl

theorem Sql.check_failsEarly (text : String) : FailsEarly (check text) := by
  unfold check
  split
  · exact failsEarly_ok ()
  · exact failsEarly_error rfl

/-- What does not fit a dataset is named by its place in the plan. -/
theorem Plan.check_failsEarly (p : Plan) (d : Dataset) (maxLimit : Nat) :
    FailsEarly (p.check d maxLimit) := by
  intro e h
  obtain ⟨-, place, reason, rfl, -⟩ := (p.check_judges d maxLimit).of_error h
  rfl

theorem Plan.statement_failsEarly (p : Plan) : FailsEarly p.statement := by
  intro e h
  obtain ⟨-, why, -, rfl⟩ := p.statement_judges.of_error (written_eq_error.mpr h)
  rfl

/-- Every verdict of an inspector that is read as one speaks of the script. -/
theorem Inspection.decide_failsEarly (v : Value) : FailsEarly (decide v) := by
  unfold decide
  split
  · exact failsEarly_ok ()
  split
  · exact failsEarly_error rfl
  · exact failsEarly_error rfl

namespace Sandbox

theorem filesBelow_failsEarly (root : String) (tables : List Table) :
    FailsEarly (filesBelow root tables) := by
  induction tables with
  | nil => exact failsEarly_ok []
  | cons t tables ih =>
    unfold filesBelow
    split
    · rename_i e he
      exact failsEarly_error (Path.checkLexical_failsEarly _ _ e he)
    split
    · rename_i e he
      exact failsEarly_error (ih e he)
    · exact failsEarly_ok _

theorem files_failsEarly (s : Sandbox) (d : Dataset) : FailsEarly (s.files d) :=
  (Naming.tableNames_failsEarly _).bind fun _ => filesBelow_failsEarly _ _

theorem planTask_failsEarly (s : Sandbox) (d : Dataset) (p : Plan) : FailsEarly (s.planTask d p) :=
  (p.check_failsEarly d _).bind fun _ => p.statement_failsEarly.bind fun statement =>
    (Sql.check_failsEarly statement).bind fun _ => failsEarly_ok _

/-! ## Scripts without a verdict -/

/-- A script that the inspector of a sandbox is asked about. -/
structure Inspects (sb : Sandbox) (sub : Submission) (policy : ImportPolicy) (inspector : Inspector)
    (code : String) : Prop where
  query : sub.plan = none ∧ sub.raw = some ⟨.script, code⟩
  scripts : sb.scripts = some (policy, inspector)
  shown : Text.isBlankText code = false
  size : code.utf8ByteSize ≤ maxScriptBytes
  budget : ∃ granted, sb.budget.grant sub.budget = .ok granted
  dataset : Naming.checkDatasetId sub.dataset.id = .ok ()

/-- The failures over a script of which the inspector says nothing: it did not start, or what it
printed is no verdict. -/
inductive Uninspected (sb : Sandbox) (sub : Submission) : Failure → Prop
  | unstarted {policy : ImportPolicy} {inspector : Inspector} {code : String} {e : Failure}
      (hinspects : Inspects sb sub policy inspector code)
      (h : inspector (.ofPolicy policy) code = .error e) : Uninspected sb sub e
  | silent {policy : ImportPolicy} {inspector : Inspector} {code : String} {i : Inspection}
      (hinspects : Inspects sb sub policy inspector code)
      (h : inspector (.ofPolicy policy) code = .ok i)
      (hsilent : ∀ v, Value.parse (Text.trim i.stdout) ≠ .ok v) :
      Uninspected sb sub (.internal ("script analyzer produced no verdict: " ++ i.stderr))

variable {sb : Sandbox} {sub : Submission} {e : Failure}

/-- A check of a script fails over the script, or the inspector gave no verdict on it. -/
theorem checkScript_failure {policy : ImportPolicy} {inspector : Inspector} {code : String}
    (h : Enclave.checkScript inspector policy code = .error e) : e.beforeDispatch = true ∨
      (Text.isBlankText code = false ∧ code.utf8ByteSize ≤ maxScriptBytes) ∧
        (inspector (.ofPolicy policy) code = .error e ∨
          ∃ i, inspector (.ofPolicy policy) code = .ok i ∧
            (∀ v, Value.parse (Text.trim i.stdout) ≠ .ok v) ∧
            e = .internal ("script analyzer produced no verdict: " ++ i.stderr)) := by
  unfold Enclave.checkScript at h
  split at h
  · cases h
    exact .inl rfl
  rename_i hshown
  split at h
  · cases h
    exact .inl rfl
  rename_i hsize
  have hlooked := And.intro (Bool.eq_false_iff.mpr hshown) (Nat.not_lt.mp hsize)
  split at h
  · rename_i e' hinspector
    cases h
    exact .inr ⟨hlooked, .inl hinspector⟩
  · rename_i i hinspector
    unfold Inspection.outcome at h
    split at h
    · exact .inl (Inspection.decide_failsEarly _ e h)
    · rename_i hparse
      cases h
      exact .inr ⟨hlooked, .inr ⟨i, hinspector, by simp [hparse], rfl⟩⟩

/-- **A submission is refused over what it says**, or over a script without a verdict. -/
theorem prepare_failure (h : sb.prepare sub = .error e) :
    e.beforeDispatch = true ∨ Uninspected sb sub e := by
  obtain hgrant | ⟨granted, hgrant, h⟩ := bind_eq_error.mp h
  · exact .inl (BudgetCeiling.grant_failsEarly _ _ e hgrant)
  obtain hid | ⟨⟨⟩, hid, h⟩ := bind_eq_error.mp h
  · exact .inl (Naming.checkDatasetId_failsEarly _ e hid)
  obtain htask | ⟨task, htask, h⟩ := bind_eq_error.mp h
  · unfold Sandbox.task at htask
    split at htask
    · exact .inl (planTask_failsEarly _ _ _ e htask)
    · rename_i q hplan hraw
      obtain ⟨kind, text⟩ := q
      cases kind with
      | sql => exact .inl (Sql.check_failsEarly text e (map_eq_error.mp htask))
      | script =>
        have hcheck := map_eq_error.mp htask
        unfold Sandbox.checkScript at hcheck
        split at hcheck
        · cases hcheck
          exact .inl rfl
        rename_i policy inspector hscripts
        obtain hearly | ⟨⟨hshown, hsize⟩, hfailed⟩ := checkScript_failure hcheck
        · exact .inl hearly
        have hinspects : Inspects sb sub policy inspector text :=
          ⟨⟨hplan, hraw⟩, hscripts, hshown, hsize, ⟨granted, hgrant⟩, hid⟩
        obtain hfailed | ⟨i, hinspector, hsilent, rfl⟩ := hfailed
        · exact .inr (.unstarted hinspects hfailed)
        · exact .inr (.silent hinspects hinspector hsilent)
    · cases htask
      exact .inl rfl
  · obtain hfiles | ⟨files, -, h⟩ := bind_eq_error.mp h
    · exact .inl (files_failsEarly _ _ e hfiles)
    · cases h

/-- A script without a verdict is refused. -/
theorem Uninspected.prepare (h : Uninspected sb sub e) : sb.prepare sub = .error e := by
  have hprepare {policy inspector code} (hinspects : Inspects sb sub policy inspector code)
      (hcheck : Enclave.checkScript inspector policy code = .error e) :
      sb.prepare sub = .error e := by
    obtain ⟨⟨hplan, hraw⟩, hscripts, -, -, ⟨granted, hgrant⟩, hid⟩ := hinspects
    simp only [Sandbox.prepare, hgrant, hid, Sandbox.task, hplan, hraw, rawTask,
      Sandbox.checkScript, hscripts, hcheck, bind, Except.bind, Except.map]
  cases h with
  | unstarted hinspects h =>
    refine hprepare hinspects ?_
    rw [Enclave.checkScript, if_neg (by simp [hinspects.shown]),
      if_neg (Nat.not_lt.mpr hinspects.size), h]
  | silent hinspects h hsilent =>
    refine hprepare hinspects ?_
    rw [Enclave.checkScript, if_neg (by simp [hinspects.shown]),
      if_neg (Nat.not_lt.mpr hinspects.size), h]
    simp only [Inspection.outcome]
    split
    · rename_i v hv
      exact absurd hv (hsilent v)
    · rfl

end Sandbox

/-! ## Calls of a store -/

/-- A store that is asked in states with some property, keeps it, and fails only with what does not
speak of a submission. -/
structure StoreOps.FailsLate (ops : StoreOps σ) (P : σ → Prop) : Prop where
  create : ∀ {c : Capsule} {s s' : σ} {r : Outcome Capsule}, P s → ops.create c s = (r, s') →
    P s' ∧ ∀ e, r = .error e → e.beforeDispatch = false
  finalize : ∀ {runId : String} {v : Verdict} {now : Instant} {s s' : σ} {r : Outcome Capsule},
    P s → ops.finalize runId v now s = (r, s') → P s' ∧ ∀ e, r = .error e → e.beforeDispatch = false

theorem Capsule.finish_failure {c : Capsule} {runId : String} {v : Verdict} {now : Instant}
    {e : Failure} (h : c.finish runId v now = .error e) : e.beforeDispatch = false := by
  unfold Capsule.finish Verdict.apply at h
  split at h
  · cases h
    rfl
  split at h
  · cases h
    rfl
  · cases h

theorem MemoryStore.failsLate : MemoryStore.ops.FailsLate fun _ => True where
  create := by
    rintro c s s' r - h
    refine ⟨trivial, ?_⟩
    rintro e rfl
    have h := committed_eq_error h
    unfold MemoryStore.create at h
    split at h <;> cases h
    rfl
  finalize := by
    rintro runId v now s s' r - h
    refine ⟨trivial, ?_⟩
    rintro e rfl
    have h := committed_eq_error h
    unfold MemoryStore.finalize at h
    split at h
    · cases h
      rfl
    · exact Capsule.finish_failure (map_eq_error.mp h)

theorem DirectoryStore.fileName_failure {runId : String} {e : Failure}
    (h : fileName runId = .error e) : e.beforeDispatch = false := by
  unfold fileName at h
  split at h <;> cases h
  rfl

theorem DirectoryStore.read_failure {s : DirectoryStore} {name runId : String} {e : Failure}
    (h : s.read name runId = .error e) : e.beforeDispatch = false := by
  unfold DirectoryStore.read at h
  split at h
  · cases h
    rfl
  · cases h
    rfl
  split at h <;> cases h
  rfl

theorem DirectoryStore.failsLate : DirectoryStore.ops.FailsLate fun _ => True where
  create := by
    rintro c s s' r - h
    refine ⟨trivial, ?_⟩
    rintro e rfl
    obtain hname | ⟨name, -, h⟩ := bind_eq_error.mp (committed_eq_error h)
    · exact fileName_failure hname
    · split at h <;> cases h
      rfl
  finalize := by
    rintro runId v now s s' r - h
    refine ⟨trivial, ?_⟩
    rintro e rfl
    obtain hname | ⟨name, -, h⟩ := bind_eq_error.mp (committed_eq_error h)
    · exact fileName_failure hname
    obtain hread | ⟨c, -, h⟩ := bind_eq_error.mp h
    · exact read_failure hread
    obtain hfinish | ⟨d, -, h⟩ := bind_eq_error.mp h
    · exact Capsule.finish_failure hfinish
    · cases h

theorem Store.failsLate : Store.ops.FailsLate fun _ => True where
  create := by
    rintro c s s' r - h
    refine ⟨trivial, ?_⟩
    cases s with
    | memory s =>
      cases h
      exact (MemoryStore.failsLate.create trivial rfl).2
    | directory s =>
      cases h
      exact (DirectoryStore.failsLate.create trivial rfl).2
  finalize := by
    rintro runId v now s s' r - h
    refine ⟨trivial, ?_⟩
    cases s with
    | memory s =>
      cases h
      exact (MemoryStore.failsLate.finalize trivial rfl).2
    | directory s =>
      cases h
      exact (DirectoryStore.failsLate.finalize trivial rfl).2

/-- Faults in front of a store that do not speak of a submission either. -/
structure StoreFaults.Late (faults : StoreFaults) : Prop where
  create : ∀ e, some e ∈ faults.create → e.beforeDispatch = false
  finalize : ∀ e, some e ∈ faults.finalize → e.beforeDispatch = false

theorem mem_of_nextFault {fs rest : List (Option Failure)} {fault : Option Failure}
    (h : nextFault fs = (fault, rest)) :
    (∀ e, fault = some e → some e ∈ fs) ∧ ∀ f ∈ rest, f ∈ fs := by
  cases fs with
  | nil =>
    cases h
    simp
  | cons f fs =>
    cases h
    exact ⟨fun e he => he ▸ List.mem_cons_self, fun g hg => List.mem_cons_of_mem _ hg⟩

theorem StoreOps.FailsLate.faulty {ops : StoreOps σ} (hops : ops.FailsLate fun _ => True) :
    ops.faulty.FailsLate fun x => x.2.Late where
  create := by
    rintro c ⟨s, faults⟩ s' r hlate h
    rcases hnext : nextFault faults.create with ⟨fault, rest⟩
    obtain ⟨hfault, hrest⟩ := mem_of_nextFault hnext
    have hkept : StoreFaults.Late { faults with create := rest } :=
      ⟨fun e he => hlate.create e (hrest _ he), hlate.finalize⟩
    cases fault with
    | some e =>
      simp only [StoreOps.faulty, hnext] at h
      cases h
      refine ⟨hkept, ?_⟩
      rintro e' ⟨⟩
      exact hlate.create e (hfault e rfl)
    | none =>
      simp only [StoreOps.faulty, hnext] at h
      cases h
      exact ⟨hkept, (hops.create trivial rfl).2⟩
  finalize := by
    rintro runId v now ⟨s, faults⟩ s' r hlate h
    rcases hnext : nextFault faults.finalize with ⟨fault, rest⟩
    obtain ⟨hfault, hrest⟩ := mem_of_nextFault hnext
    have hkept : StoreFaults.Late { faults with finalize := rest } :=
      ⟨hlate.create, fun e he => hlate.finalize e (hrest _ he)⟩
    cases fault with
    | some e =>
      simp only [StoreOps.faulty, hnext] at h
      cases h
      refine ⟨hkept, ?_⟩
      rintro e' ⟨⟩
      exact hlate.finalize e (hfault e rfl)
    | none =>
      simp only [StoreOps.faulty, hnext] at h
      cases h
      exact ⟨hkept, (hops.finalize trivial rfl).2⟩

namespace Sandbox

variable {sb : Sandbox} {ops : StoreOps σ} {clock : RunClock} {replies : Nat → Outcome RunResult}
  {sub : Submission} {store : σ} {P : σ → Prop} {e : Failure}

theorem record_failure (hops : ops.FailsLate P) (hstore : P store) {runId : String} {v : Verdict}
    {now : Instant} {after : σ} (h : record ops runId v now store = (.error e, after)) :
    e.beforeDispatch = false := by
  obtain ⟨answer, last, hfirst, hrecord, -⟩ | ⟨e', between, answer, last, hfirst, hsecond, hrecord,
    -⟩ := record_cases ops runId v now store []
  · rw [hrecord] at h
    cases h
    exact (hops.finalize hstore hfirst).2 e rfl
  · rw [hrecord] at h
    cases h
    exact (hops.finalize (hops.finalize hstore hfirst).1 hsecond).2 e rfl

/-- A submission that was prepared fails with what does not speak of it. -/
theorem submit_failure (hops : ops.FailsLate P) (hstore : P store)
    (h : (sb.submit ops clock replies sub store).outcome = .error e) :
    sb.prepare sub = .error e ∨ e.beforeDispatch = false := by
  cases hprepare : sb.prepare sub with
  | error e' =>
    simp only [submit, hprepare] at h
    cases h
    exact .inl rfl
  | ok prepared =>
    refine .inr ?_
    obtain ⟨request, asked⟩ := prepared
    rcases hcreate : ops.create (.pending clock.runId sb.backend asked clock.start) store
      with ⟨answer, after⟩
    obtain ⟨hafter, hlate⟩ := hops.create hstore hcreate
    cases answer with
    | error e' =>
      simp only [submit, hprepare, hcreate] at h
      cases h
      exact hlate e rfl
    | ok c =>
      simp only [submit, hprepare, hcreate] at h
      exact record_failure hops hafter (Prod.ext h rfl)

theorem submit_of_prepare_failure (h : sb.prepare sub = .error e) :
    sb.submit ops clock replies sub store = ⟨.error e, [], store⟩ := by
  simp only [submit, h]

/-- **Failures tell when they happened**, but for scripts without a verdict. What is refused while a
submission is prepared leaves no request and the store as it was, and it speaks of the submission
unless the inspector of scripts said nothing of a script. After a dispatch nothing speaks of the
submission, whatever store of the two it is and whichever of its calls fail. So a failure that does
speak of it was found before anything was touched. -/
theorem refusals_told_apart (sb : Sandbox) (clock : RunClock) (replies : Nat → Outcome RunResult)
    (sub : Submission) (store : Store) (faults : StoreFaults) (hfaults : faults.Late) :
    let run := sb.submit Store.ops.faulty clock replies sub (store, faults)
    (∀ e, sb.prepare sub = .error e → run = ⟨.error e, [], (store, faults)⟩ ∧
      (e.beforeDispatch = true ∨ Uninspected sb sub e)) ∧
    (∀ e, Uninspected sb sub e → sb.prepare sub = .error e) ∧
    (∀ e, run.outcome = .error e → run.requests ≠ [] → e.beforeDispatch = false) ∧
    ∀ e, run.outcome = .error e → e.beforeDispatch = true → sb.prepare sub = .error e := by
  intro run
  have hfailure {e : Failure} (h : run.outcome = .error e) :
      sb.prepare sub = .error e ∨ e.beforeDispatch = false :=
    submit_failure Store.failsLate.faulty hfaults h
  refine ⟨?_, ?_, ?_, ?_⟩
  · intro e h
    exact ⟨submit_of_prepare_failure h, prepare_failure h⟩
  · intro e h
    exact h.prepare
  · intro e h hrequests
    obtain hprepare | hlate := hfailure h
    · have hrun : run = ⟨.error e, [], (store, faults)⟩ := submit_of_prepare_failure hprepare
      rw [hrun] at hrequests
      exact absurd rfl hrequests
    · exact hlate
  · intro e h hearly
    obtain hprepare | hlate := hfailure h
    · exact hprepare
    · rw [hearly] at hlate
      cases hlate

/-- A script that sets a variable. -/
def scriptSubmission : Submission := ticketQuery ⟨.script, "x = 1"⟩

/-- A disk that is full when a capsule is to be finished, both times. -/
def fullDisk : StoreFaults := ⟨[], [some (.io "disk full"), some (.io "disk full")], []⟩

/-- A statement that is dispatched while the disk is full. -/
def unfinishedRun : Submitted (Store × StoreFaults) :=
  ticketSandbox.submit Store.ops.faulty ticketClock (fun _ => .error .ambiguous)
    (ticketQuery ⟨.sql, "SELECT 1"⟩) (.memory .empty, fullDisk)

theorem refusals_told_apart_fullDisk :
    (∃ e, unfinishedRun.outcome = .error e ∧ e.beforeDispatch = false) ∧
    ∃ e, ticketSandbox.prepare scriptSubmission = .error e ∧
      (e.beforeDispatch = true ∨ Uninspected ticketSandbox scriptSubmission e) := by
  have hlate : fullDisk.Late :=
    ⟨by simp [fullDisk], by simp [fullDisk, Failure.beforeDispatch]⟩
  have hrequests : unfinishedRun.requests ≠ [] := by
    have hlength : unfinishedRun.requests.length = 1 := by decide +kernel
    intro hnone
    rw [hnone] at hlength
    cases hlength
  have hfails : unfinishedRun.outcome.isOk = false := by decide +kernel
  constructor
  · obtain ⟨-, -, hdispatched, -⟩ := refusals_told_apart ticketSandbox _ _ _ _ fullDisk hlate
    cases houtcome : unfinishedRun.outcome with
    | ok c =>
      rw [houtcome] at hfails
      cases hfails
    | error e => exact ⟨e, rfl, hdispatched e houtcome hrequests⟩
  · have hdisabled : ticketSandbox.prepare scriptSubmission
        = .error (.refused "script submissions are disabled") := rfl
    obtain ⟨hprepared, -⟩ := refusals_told_apart ticketSandbox ticketClock
      (fun _ => .error .ambiguous) scriptSubmission (.memory .empty) fullDisk hlate
    exact ⟨_, hdisabled, (hprepared _ hdisabled).2⟩

/-- A sandbox whose inspector dies of every script. -/
def brittleSandbox : Sandbox :=
  { ticketSandbox with
    scripts := some (.analysis, fun _ _ =>
      .ok ⟨"", "RecursionError: maximum recursion depth exceeded"⟩) }

/-- A script that the inspector dies of is refused before anything is touched, with a failure that
does not say so. -/
theorem inspectorDied_hidden : ∃ e,
    brittleSandbox.prepare scriptSubmission = .error e ∧ e.beforeDispatch = false := by
  refine ⟨_, Uninspected.prepare (.silent ⟨⟨rfl, rfl⟩, rfl, ?_, ?_, ⟨_, rfl⟩, rfl⟩ rfl ?_), rfl⟩
  · decide
  · decide
  · intro v hv
    cases hv

end Sandbox

end Enclave
