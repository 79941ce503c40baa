import Enclave.Sandbox
import Enclave.Proofs.Naming
import Enclave.Proofs.Path.Lexical
import Enclave.Proofs.Record.Trace
import Enclave.Proofs.Run.Execution

/-!
# What has been checked when a request is dispatched

A submission passes nine checks before anything runs. `Cleared` lists what they establish about the
request, and `prepare_cleared` collects it from one lemma for each check. A request reaches the
backend only through `submit_cases`, the case analysis of a submission over any store: nothing was
prepared, nothing was created, or the one prepared request was dispatched after a pending capsule
with its record had been created.
-/

namespace Enclave.Sandbox

variable {σ : Type} {s : Settings} {sb : Sandbox} {backend : String} {inspector : Option Inspector}
  {sub : Submission} {request : Request} {asked : RequestRecord}

/-! ## What the checks establish -/

/-- A task that went through the checks of a submission: the statement of a plan that fits its
dataset, or the text of the caller as it was handed in, accepted by the policy for its kind. -/
inductive ClearedTask (s : Settings) (inspector : Option Inspector) (sub : Submission) : Task → Prop
  | plan (p : Plan) (statement : String) (hplan : sub.plan = some p) (hraw : sub.raw = none)
      (hfits : p.check sub.dataset s.maxPlanLimit = .ok ())
      (hstatement : p.statement = .ok statement) (hpolicy : Sql.check statement = .ok ()) :
      ClearedTask s inspector sub (.sql statement)
  | sql (text : String) (hplan : sub.plan = none) (hraw : sub.raw = some ⟨.sql, text⟩)
      (hpolicy : Sql.check text = .ok ()) : ClearedTask s inspector sub (.sql text)
  | script (code : String) (i : Inspector) (hplan : sub.plan = none)
      (hraw : sub.raw = some ⟨.script, code⟩) (henabled : s.scriptEnabled = true)
      (hinspector : inspector = some i)
      (hpolicy : Enclave.checkScript i s.importPolicy code = .ok ()) :
      ClearedTask s inspector sub (.script code)

/-- Everything that holds of a request when it is handed to the backend. -/
structure Cleared (s : Settings) (inspector : Option Inspector) (sub : Submission)
    (request : Request) : Prop where
  oneQuery : (sub.plan.isSome ∧ sub.raw = none) ∨ (sub.plan = none ∧ sub.raw.isSome)
  task : ClearedTask s inspector sub request.task
  dataset : request.datasetId = sub.dataset.id
  plainId : Naming.checkDatasetId request.datasetId = .ok ()
  files : request.files.map FileRef.name = sub.dataset.tables.map Table.file
  below : ∀ f ∈ request.files,
    Path.StrictlyBelow (Path.join s.sandboxDataRoot request.datasetId) f.path
  distinct : (request.files.map fun f => Naming.identifierOf f.name).Nodup
  seconds : request.seconds ≤ sub.budget.seconds ∧ request.seconds ≤ s.budget.seconds
  rows : request.maxRows ≤ sub.budget.rows ∧ request.maxRows ≤ s.budget.rows
  output : request.maxOutputBytes ≤ sub.budget.outputBytes ∧
    request.maxOutputBytes ≤ s.budget.outputBytes

/-- A record that says of a request what is true of it. -/
structure Records (sub : Submission) (request : Request) (asked : RequestRecord) : Prop where
  text : asked.compiled = request.task.text
  kind : asked.kind = request.task.kind
  dataset : asked.datasetId = request.datasetId
  plan : asked.plan = sub.plan
  rawText : asked.rawText = sub.raw.map RawQuery.text
  budget : asked.budget = ⟨request.seconds, request.maxRows, request.maxOutputBytes⟩

/-! ## One lemma for each check -/

/-- A sandbox has the rules of its settings, and an inspector only where scripts are enabled. -/
theorem ofSettings_eq_ok (h : ofSettings s backend inspector = .ok sb) :
    sb.backend = backend ∧ sb.budget = s.budget ∧ sb.dataRoot = s.sandboxDataRoot ∧
      sb.maxPlanLimit = s.maxPlanLimit ∧ sb.retry = s.retry ∧
      ∀ policy i, sb.scripts = some (policy, i) →
        s.scriptEnabled = true ∧ policy = s.importPolicy ∧ inspector = some i := by
  unfold ofSettings at h
  by_cases hs : s.scriptEnabled = true
  · rw [if_pos hs] at h
    cases inspector with
    | none => cases h
    | some i =>
      cases h
      exact ⟨rfl, rfl, rfl, rfl, rfl, by rintro policy j ⟨⟩; exact ⟨hs, rfl, rfl⟩⟩
  · rw [if_neg hs] at h
    cases h
    exact ⟨rfl, rfl, rfl, rfl, rfl, by rintro policy j ⟨⟩⟩

/-- A cleared task leaves one query in the submission: its plan or its raw text. -/
theorem ClearedTask.oneQuery {task : Task} (h : ClearedTask s inspector sub task) :
    (sub.plan.isSome ∧ sub.raw = none) ∨ (sub.plan = none ∧ sub.raw.isSome) := by
  cases h with
  | plan p statement hplan hraw => exact .inl ⟨by rw [hplan]; rfl, hraw⟩
  | sql text hplan hraw => exact .inr ⟨hplan, by rw [hraw]; rfl⟩
  | script code i hplan hraw => exact .inr ⟨hplan, by rw [hraw]; rfl⟩

theorem planTask_eq_ok {d : Dataset} {p : Plan} {task : Task} (h : sb.planTask d p = .ok task) :
    ∃ statement, task = .sql statement ∧ p.check d sb.maxPlanLimit = .ok () ∧
      p.statement = .ok statement ∧ Sql.check statement = .ok () := by
  obtain ⟨_, hfits, h⟩ := bind_eq_ok.mp h
  obtain ⟨statement, hstatement, h⟩ := bind_eq_ok.mp h
  obtain ⟨_, hpolicy, h⟩ := bind_eq_ok.mp h
  exact ⟨statement, (pure_eq_ok.mp h).symm, hfits, hstatement, hpolicy⟩

/-- The task of a submission went through the checks of its kind. -/
theorem task_cleared (hsb : ofSettings s backend inspector = .ok sb) {task : Task}
    (h : sb.task sub = .ok task) : ClearedTask s inspector sub task := by
  obtain ⟨-, -, -, hlimit, -, hscripts⟩ := ofSettings_eq_ok hsb
  unfold Sandbox.task at h
  split at h
  · rename_i p hplan hraw
    obtain ⟨statement, rfl, hfits, hstatement, hpolicy⟩ := planTask_eq_ok h
    exact .plan p statement hplan hraw (hlimit ▸ hfits) hstatement hpolicy
  · rename_i q hplan hraw
    obtain ⟨kind, text⟩ := q
    cases kind with
    | sql =>
      obtain ⟨_, hpolicy, rfl⟩ := map_eq_ok.mp h
      exact .sql text hplan hraw hpolicy
    | script =>
      obtain ⟨_, hcheck, rfl⟩ := map_eq_ok.mp h
      unfold Sandbox.checkScript at hcheck
      split at hcheck
      · cases hcheck
      · rename_i policy i hsome
        obtain ⟨henabled, rfl, hi⟩ := hscripts policy i hsome
        exact .script text i hplan hraw henabled hi hcheck
  · cases h

/-- A budget is granted where nothing that was asked for is zero: number by number what was asked
for, or the ceiling. -/
theorem grant_eq_ok_iff {ceiling : BudgetCeiling} {wanted granted : Budget} :
    ceiling.grant wanted = .ok granted ↔
      (0 < wanted.seconds ∧ 0 < wanted.rows ∧ 0 < wanted.outputBytes) ∧
        granted = ⟨min wanted.seconds ceiling.seconds, min wanted.rows ceiling.rows,
          min wanted.outputBytes ceiling.outputBytes⟩ := by
  simp only [Nat.pos_iff_ne_zero]
  unfold BudgetCeiling.grant
  constructor
  · intro h
    split at h
    · cases h
    rename_i hseconds
    split at h
    · cases h
    rename_i hrows
    split at h
    · cases h
    rename_i houtput
    exact ⟨⟨hseconds, hrows, houtput⟩, (Except.ok.inj h).symm⟩
  · rintro ⟨⟨hseconds, hrows, houtput⟩, rfl⟩
    rw [if_neg hseconds, if_neg hrows, if_neg houtput]

/-- The granted budget exceeds neither what was asked for nor the ceiling. -/
theorem grant_eq_ok {ceiling : BudgetCeiling} {wanted granted : Budget}
    (h : ceiling.grant wanted = .ok granted) :
    (granted.seconds ≤ wanted.seconds ∧ granted.seconds ≤ ceiling.seconds) ∧
      (granted.rows ≤ wanted.rows ∧ granted.rows ≤ ceiling.rows) ∧
      (granted.outputBytes ≤ wanted.outputBytes ∧ granted.outputBytes ≤ ceiling.outputBytes) := by
  obtain ⟨-, rfl⟩ := grant_eq_ok_iff.mp h
  exact ⟨⟨Nat.min_le_left _ _, Nat.min_le_right _ _⟩, ⟨Nat.min_le_left _ _, Nat.min_le_right _ _⟩,
    Nat.min_le_left _ _, Nat.min_le_right _ _⟩

/-- One file for each table, in order, each accepted by the lexical check of the directory. -/
theorem filesBelow_eq_ok {root : String} {tables : List Table} {files : List FileRef}
    (h : filesBelow root tables = .ok files) :
    files.map FileRef.name = tables.map Table.file ∧
      ∀ f ∈ files, Path.checkLexical root f.path = .ok f.path := by
  induction tables generalizing files with
  | nil =>
    cases h
    simp
  | cons t tables ih =>
    simp only [filesBelow] at h
    split at h
    · cases h
    rename_i path hpath
    split at h
    · cases h
    rename_i rest hrest
    cases h
    obtain ⟨hnames, hlexical⟩ := ih hrest
    obtain ⟨rfl, -⟩ := Path.strictlyBelow_of_checkLexical hpath
    refine ⟨by rw [List.map_cons, List.map_cons, hnames], ?_⟩
    intro f hf
    rcases List.mem_cons.mp hf with rfl | hf
    · exact hpath
    · exact hlexical f hf

/-- The files of a dataset are named apart, and each lies below the directory of the dataset. -/
theorem files_eq_ok {d : Dataset} {files : List FileRef} (h : sb.files d = .ok files) :
    files.map FileRef.name = d.tables.map Table.file ∧
      (∀ f ∈ files, Path.checkLexical (Path.join sb.dataRoot d.id) f.path = .ok f.path) ∧
      (files.map fun f => Naming.identifierOf f.name).Nodup := by
  obtain ⟨tables, htables, h⟩ := bind_eq_ok.mp h
  obtain ⟨htables, hnodup⟩ := Naming.tableNames_eq_ok htables
  obtain ⟨hnames, hlexical⟩ := filesBelow_eq_ok h
  refine ⟨hnames, hlexical, ?_⟩
  rw [← Naming.map_identifierOf_name, hnames, ← htables]
  exact hnodup

/-- The files of a request that was prepared are those of its dataset. -/
theorem files_of_prepare (h : sb.prepare sub = .ok (request, asked)) :
    sb.files sub.dataset = .ok request.files := by
  obtain ⟨_, -, h⟩ := bind_eq_ok.mp h
  obtain ⟨_, -, h⟩ := bind_eq_ok.mp h
  obtain ⟨_, -, h⟩ := bind_eq_ok.mp h
  obtain ⟨files, hfiles, h⟩ := bind_eq_ok.mp h
  cases pure_eq_ok.mp h
  exact hfiles

/-- The budget of a request that was prepared is the one that was granted. -/
theorem budget_of_prepare (h : sb.prepare sub = .ok (request, asked)) :
    sb.budget.grant sub.budget
      = .ok ⟨request.seconds, request.maxRows, request.maxOutputBytes⟩ := by
  obtain ⟨budget, hgrant, h⟩ := bind_eq_ok.mp h
  obtain ⟨_, -, h⟩ := bind_eq_ok.mp h
  obtain ⟨_, -, h⟩ := bind_eq_ok.mp h
  obtain ⟨_, -, h⟩ := bind_eq_ok.mp h
  cases pure_eq_ok.mp h
  exact hgrant

/-- A request that was prepared is cleared, and its record is true. -/
theorem prepare_cleared (hsb : ofSettings s backend inspector = .ok sb)
    (h : sb.prepare sub = .ok (request, asked)) :
    Cleared s inspector sub request ∧ Records sub request asked := by
  obtain ⟨-, hbudget, hroot, -, -, -⟩ := ofSettings_eq_ok hsb
  obtain ⟨budget, hgrant, h⟩ := bind_eq_ok.mp h
  obtain ⟨_, hid, h⟩ := bind_eq_ok.mp h
  obtain ⟨task, htask, h⟩ := bind_eq_ok.mp h
  obtain ⟨files, hfiles, h⟩ := bind_eq_ok.mp h
  cases pure_eq_ok.mp h
  obtain ⟨hseconds, hrows, houtput⟩ := grant_eq_ok hgrant
  obtain ⟨hnames, hlexical, hnodup⟩ := files_eq_ok hfiles
  rw [hbudget] at hseconds hrows houtput
  rw [hroot] at hlexical
  have hcleared := task_cleared hsb htask
  have hbelow f hf := (Path.strictlyBelow_of_checkLexical (hlexical f hf)).2
  exact ⟨⟨hcleared.oneQuery, hcleared, rfl, hid, hnames, hbelow, hnodup, hseconds, hrows,
    houtput⟩, ⟨rfl, rfl, rfl, rfl, rfl, rfl⟩⟩

/-! ## The calls of a submission -/

/-- A capsule is finished by one call, or by a second one after the first has failed. -/
theorem record_cases (ops : StoreOps σ) (runId : String) (v : Verdict) (now : Instant) (store : σ)
    (es : List StoreEvent) :
    (∃ answer after, ops.finalize runId v now store = (answer, after) ∧
      record ops runId v now store = (answer, after) ∧
      record ops.traced runId v now (store, es)
        = (answer, after, es ++ [.finalize runId v answer])) ∨
    (∃ e between answer after, ops.finalize runId v now store = (.error e, between) ∧
      ops.finalize runId v now between = (answer, after) ∧
      record ops runId v now store = (answer, after) ∧
      record ops.traced runId v now (store, es)
        = (answer, after, es ++ [.finalize runId v (.error e), .finalize runId v answer])) := by
  rcases hfirst : ops.finalize runId v now store with ⟨answer, after⟩
  cases answer with
  | ok c =>
    refine .inl ⟨.ok c, after, rfl, ?_, ?_⟩
    · simp only [record, hfirst]
    · simp only [record, StoreOps.traced_finalize, hfirst]
  | error e =>
    by_cases hfinal : ∃ id, e = .alreadyFinal id
    · obtain ⟨id, rfl⟩ := hfinal
      refine .inl ⟨_, after, rfl, ?_, ?_⟩
      · simp only [record, hfirst]
      · simp only [record, StoreOps.traced_finalize, hfirst]
    · rcases hsecond : ops.finalize runId v now after with ⟨answer, last⟩
      refine .inr ⟨e, after, answer, last, rfl, hsecond, ?_, ?_⟩
      · cases e <;> simp_all [record]
      · cases e <;> simp_all [record, StoreOps.traced_finalize]

/-- A submission over any store: it fails in front of the store, it fails with the store when the
pending capsule is created, or the capsule is created and the one prepared request is executed. -/
theorem submit_cases (sb : Sandbox) (ops : StoreOps σ) (clock : RunClock)
    (replies : Nat → Outcome RunResult) (sub : Submission) (store : σ) :
    (∃ e, sb.submit ops clock replies sub store = ⟨.error e, [], store⟩) ∨
    ∃ request asked, sb.prepare sub = .ok (request, asked) ∧
      ((∃ e after, ops.create (.pending clock.runId sb.backend asked clock.start) store
          = (.error e, after) ∧
        sb.submit ops clock replies sub store = ⟨.error e, [], after⟩) ∨
      ∃ c between, ops.create (.pending clock.runId sb.backend asked clock.start) store
          = (.ok c, between) ∧
        sb.submit ops clock replies sub store =
          let run := execute sb.retry replies
          let last := record ops c.runId (verdict request.seconds run.outcome) clock.finish between
          ⟨last.1, List.replicate run.dispatches request, last.2⟩) := by
  cases hprepare : sb.prepare sub with
  | error e => exact .inl ⟨e, by simp only [submit, hprepare]⟩
  | ok prepared =>
    obtain ⟨request, asked⟩ := prepared
    refine .inr ⟨request, asked, rfl, ?_⟩
    rcases hcreate : ops.create (.pending clock.runId sb.backend asked clock.start) store
      with ⟨answer, after⟩
    cases answer with
    | error e => exact .inl ⟨e, after, rfl, by simp only [submit, hprepare, hcreate]⟩
    | ok c => exact .inr ⟨c, after, rfl, by simp only [submit, hprepare, hcreate]⟩

/-- A request that is dispatched is the one that was prepared. -/
theorem prepare_of_mem_requests {ops : StoreOps σ} {clock : RunClock}
    {replies : Nat → Outcome RunResult} {store : σ}
    (h : request ∈ (sb.submit ops clock replies sub store).requests) :
    ∃ asked, sb.prepare sub = .ok (request, asked) := by
  obtain ⟨e, hrun⟩ | ⟨prepared, asked, hprepare, ⟨e, after, -, hrun⟩ | ⟨c, between, -, hrun⟩⟩ :=
    submit_cases sb ops clock replies sub store
  · rw [hrun] at h
    cases h
  · rw [hrun] at h
    cases h
  · rw [hrun] at h
    obtain rfl := List.eq_of_mem_replicate h
    exact ⟨asked, hprepare⟩

/-- A traced submission is the same submission. -/
theorem submit_traced (sb : Sandbox) (ops : StoreOps σ) (clock : RunClock)
    (replies : Nat → Outcome RunResult) (sub : Submission) (store : σ) (es : List StoreEvent) :
    (sb.submit ops.traced clock replies sub (store, es)).outcome
        = (sb.submit ops clock replies sub store).outcome ∧
      (sb.submit ops.traced clock replies sub (store, es)).requests
        = (sb.submit ops clock replies sub store).requests ∧
      (sb.submit ops.traced clock replies sub (store, es)).store.1
        = (sb.submit ops clock replies sub store).store := by
  cases hprepare : sb.prepare sub with
  | error e => simp only [submit, hprepare, and_self]
  | ok prepared =>
    obtain ⟨request, asked⟩ := prepared
    rcases hcreate : ops.create (.pending clock.runId sb.backend asked clock.start) store
      with ⟨answer, after⟩
    cases answer with
    | error e =>
      simp only [submit, hprepare, StoreOps.traced_create, hcreate, and_self]
    | ok c =>
      simp only [submit, hprepare, StoreOps.traced_create, hcreate, true_and]
      obtain ⟨_, _, -, hrec, htr⟩ | ⟨_, _, _, _, -, -, hrec, htr⟩ := record_cases ops c.runId
        (verdict request.seconds (execute sb.retry replies).outcome) clock.finish after
        (es ++ [.create (.pending clock.runId sb.backend asked clock.start) (.ok c)])
      · rw [hrec, htr]
        exact ⟨rfl, rfl⟩
      · rw [hrec, htr]
        exact ⟨rfl, rfl⟩

/-- The calls that finish a capsule ask for no creation. -/
theorem asked_record (ops : StoreOps σ) (runId : String) (v : Verdict) (now : Instant) (store : σ)
    (es : List StoreEvent) :
    StoreEvent.asked (record ops.traced runId v now (store, es)).2.2 = StoreEvent.asked es := by
  obtain ⟨_, _, -, -, htr⟩ | ⟨_, _, _, _, -, -, -, htr⟩ := record_cases ops runId v now store es
  · rw [htr, StoreEvent.asked_append]
    exact List.append_nil _
  · rw [htr, StoreEvent.asked_append]
    exact List.append_nil _

/-- **What reaches the backend is cleared.** Whatever the store and the backend answer, a request is
dispatched only after every check of the submission, and the one capsule that the store was asked to
create before is pending and has a true record of the request. -/
theorem dispatched_cleared (ops : StoreOps σ) (clock : RunClock)
    (replies : Nat → Outcome RunResult) (store : σ)
    (hsb : ofSettings s backend inspector = .ok sb)
    (hrequest : request ∈ (sb.submit ops clock replies sub store).requests) :
    Cleared s inspector sub request ∧
      ∃ asked, Records sub request asked ∧
        StoreEvent.asked (sb.submit ops.traced clock replies sub (store, [])).store.2
          = [.pending clock.runId backend asked clock.start] := by
  obtain ⟨hbackend, -⟩ := ofSettings_eq_ok hsb
  obtain ⟨-, hsame, -⟩ := submit_traced sb ops clock replies sub store []
  rw [← hsame] at hrequest
  obtain ⟨e, hrun⟩ | ⟨prepared, asked, hprepare, hcreate⟩ :=
    submit_cases sb ops.traced clock replies sub (store, [])
  · rw [hrun] at hrequest
    cases hrequest
  obtain ⟨e, after, -, hrun⟩ | ⟨c, between, hcreate, hrun⟩ := hcreate
  · rw [hrun] at hrequest
    cases hrequest
  rw [hrun] at hrequest
  obtain rfl := List.eq_of_mem_replicate hrequest
  obtain ⟨hcleared, hrecords⟩ := prepare_cleared hsb hprepare
  refine ⟨hcleared, asked, hrecords, ?_⟩
  rw [StoreOps.traced_create] at hcreate
  obtain ⟨-, rfl⟩ := Prod.mk.inj hcreate
  rw [hrun, asked_record, hbackend]
  rfl

/-! ### A dispatched request -/

/-- A plan over a dataset of two files, one of which has a name that has to be made plain. -/
def ticketSubmission : Submission where
  dataset := ⟨"support", [⟨"tickets.csv", [⟨"id", .integer⟩]⟩, ⟨"2024/Old Tickets.csv", []⟩]⟩
  plan := some ⟨"tickets", [.column "id" none], some (.isNotNull "id"), [], [⟨"id", true⟩], some 5⟩
  raw := none
  budget := ⟨600, 50, 4096⟩

/-- A query over the dataset of `ticketSubmission`. -/
def ticketQuery (query : RawQuery) : Submission :=
  { ticketSubmission with plan := none, raw := some query }

/-- The request of `ticketSubmission` under the settings that hold by default. -/
def ticketRequest : Request where
  datasetId := "support"
  files := [⟨"tickets.csv", "/data/support/tickets.csv"⟩,
    ⟨"2024/Old Tickets.csv", "/data/support/2024/Old Tickets.csv"⟩]
  task := .sql
    "SELECT \"id\" FROM \"tickets\" WHERE \"id\" IS NOT NULL ORDER BY \"id\" DESC LIMIT 5"
  seconds := 120
  maxRows := 50
  maxOutputBytes := 4096

/-- The run of `ticketSubmission`. -/
def ticketClock : RunClock where
  runId := "7c0e1c58-5f1c-4d3e-9a55-0f4c6a1c9b11"
  start := ⟨2024, 1, 1, 0, 0, 0, 0⟩
  finish := ⟨2024, 1, 1, 0, 0, 2, 0⟩

/-- The sandbox of the settings that hold by default. -/
def ticketSandbox : Sandbox :=
  ⟨"container", Settings.default.budget, "/data", Settings.default.maxPlanLimit,
    Settings.default.retry, none⟩

theorem dispatched_cleared_tickets :
    ticketRequest ∈ (ticketSandbox.submit MemoryStore.ops ticketClock
        (fun _ => .error .noInterpreter) ticketSubmission .empty).requests ∧
      Cleared .default none ticketSubmission ticketRequest := by
  have hrequest : ticketRequest ∈ (ticketSandbox.submit MemoryStore.ops ticketClock
      (fun _ => .error .noInterpreter) ticketSubmission .empty).requests := by
    decide +kernel
  have hsandbox : ofSettings Settings.default "container" none = .ok ticketSandbox := rfl
  exact ⟨hrequest, (dispatched_cleared MemoryStore.ops ticketClock _ .empty hsandbox hrequest).1⟩

end Enclave.Sandbox
