import Enclave.Proofs.Backend.Course
import Enclave.Proofs.Run.Execution

/-!
# A session with the cluster

A backend takes requests one after the other (`Errand`), each with its retries.
`Settings.dispatched` lists the dispatches that this makes, with what each exchanged and how it
ended. `Orderly` says what such a list looks like: no job is applied before the network policy was,
the policy is applied once, a log is read once and of a job that is done, and every job is deleted.

A dispatch is followed through its `Course`. What it has to do with the dispatches before it is one
bit of the connection, and `Dispatched.Continues` is the step of the invariant.
-/

namespace Enclave

open Cluster (Job JobPhase Reports)

/-! ## Dispatches -/

/-- A dispatch that was made: its name and its request, the moment at which it began, what it
exchanged, and how it ended. -/
structure Dispatched where
  name : String
  request : Request
  startMs : Nat
  exchanges : List Exchange
  answer : Except Crash (Outcome RunResult)

/-- A request for a backend, with the names of its dispatches and the moments at which they begin. -/
structure Errand where
  request : Request
  names : Nat → String
  starts : Nat → Nat

namespace Settings

variable (s : Settings) (command : Command)

/-- The backend after some requests. -/
def serve (errands : List Errand) : Connection :=
  errands.foldl (fun c e => (s.executeAt command e.names e.starts e.request c).2) .fresh

/-- The account of a dispatch: what it exchanged is what it added to the log. -/
def account (name : String) (startMs : Nat) (r : Request) (c : Connection) : Dispatched where
  name
  request := r
  startMs
  exchanges := (s.dispatchAt command name startMs r c).2.log.drop c.log.length
  answer := (s.dispatchAt command name startMs r c).1

/-- Dispatches a request and keeps account of it. -/
def dispatchNoting (e : Errand) (n : Nat) (state : Connection × List Dispatched) :
    Except Crash (Outcome RunResult) × Connection × List Dispatched :=
  let (answer, c) := s.dispatchAt command (e.names n) (e.starts n) e.request state.1
  (answer, c, state.2 ++ [s.account command (e.names n) (e.starts n) e.request state.1])

/-- The backend after some requests, and the dispatches that were made. -/
def serveNoting (errands : List Errand) : Connection × List Dispatched :=
  errands.foldl (fun state e => (executeCrashingOn s.retry (s.dispatchNoting command e) state).2)
    (.fresh, [])

/-- The dispatches that some requests make. -/
def dispatched (errands : List Errand) : List Dispatched := (s.serveNoting command errands).2

/-- The account changes nothing. -/
theorem serveNoting_fst (errands : List Errand) :
    (s.serveNoting command errands).1 = s.serve command errands := by
  have hstep : ∀ (e : Errand) (state : Connection × List Dispatched),
      (executeCrashingOn s.retry (s.dispatchNoting command e) state).2.1
        = (s.executeAt command e.names e.starts e.request state.1).2 := fun e state =>
    congrArg Prod.snd (executeCrashingOnFrom_map s.retry Prod.fst
      (fun n c => s.dispatchAt command (e.names n) (e.starts n) e.request c) (fun _ _ => rfl) _ 0
      state)
  have hall : ∀ state : Connection × List Dispatched,
      (errands.foldl (fun state e =>
        (executeCrashingOn s.retry (s.dispatchNoting command e) state).2) state).1
      = errands.foldl (fun c e => (s.executeAt command e.names e.starts e.request c).2) state.1 := by
    induction errands with
    | nil => exact fun _ => rfl
    | cons e errands ih =>
      intro state
      rw [List.foldl_cons, List.foldl_cons, ih, hstep]
  exact hall (.fresh, [])

end Settings

/-! ## What is promised -/

namespace Dispatched

variable (s : Settings) (command : Command) (d : Dispatched)

/-- The job of a dispatch. -/
def job : Job := ⟨s, command, d.name, d.request⟩

/-- An exchange of the dispatch that applies the network policy, with success. The policy is the
first that a dispatch asks for, so the time of the call is the time of the run. -/
def Guards (x : Exchange) : Prop :=
  x.call = (d.job s command).policyCall ∧
    x.reply.succeededWithin (d.job s command).deadline = true

instance (x : Exchange) : Decidable (d.Guards s command x) := inferInstanceAs (Decidable (_ ∧ _))

/-- An exchange of the dispatch that applies its job. -/
def AppliesJob (x : Exchange) : Prop :=
  ∃ manifest, Cluster.job s d.name d.request = .ok manifest ∧
    x.call = (d.job s command).applyCall manifest

/-- The exchanges of the dispatch that apply the network policy, with success. -/
def guards : List Exchange := d.exchanges.filter fun x => d.Guards s command x

/-- The moment at which the time of the dispatch is over is one that the clock can show. -/
def Shown : Prop := d.startMs + d.request.seconds * 1000 < clockEndMs

/-- What holds of every dispatch. -/
structure Sound : Prop where
  /-- Nothing else is asked of the cluster. -/
  asked : ∀ x ∈ d.exchanges, x.call = (d.job s command).policyCall ∨ d.AppliesJob s command x ∨
    x.call = (d.job s command).pollCall ∨ x.call = (d.job s command).podsCall ∨
    x.call = (d.job s command).logCall ∨ ∃ force, x.call = (d.job s command).deleteCall force
  policyFirst : ∀ xs x ys, d.exchanges = xs ++ x :: ys →
    x.call = (d.job s command).policyCall → xs = []
  logOnce : (d.exchanges.filter fun x => x.call = (d.job s command).logCall).length ≤ 1
  /-- The log is read of a job that was seen to be done. -/
  logDone : ∀ xs x ys, d.exchanges = xs ++ x :: ys → x.call = (d.job s command).logCall →
    ∃ y ∈ xs, y.call = (d.job s command).pollCall ∧
      ∃ phase, phase ≠ JobPhase.active ∧ Reports y phase
  /-- The job is deleted last, by force exactly after a timeout. -/
  deleted : Naming.isDatasetId d.request.datasetId = true → d.Shown →
    ∃ outcome before x, d.answer = .ok outcome ∧ d.exchanges = before ++ [x] ∧
      x.call = (d.job s command).deleteCall (Job.isTimeout outcome) ∧
      ∀ y ∈ before, ∀ force, y.call ≠ (d.job s command).deleteCall force
  /-- Where the clock cannot show the end of the time, the backend breaks off. -/
  crashed : Naming.isDatasetId d.request.datasetId = true → ¬ d.Shown →
    d.answer = .error .deadlineBeyondClock ∧ d.exchanges = []
  refused : Naming.isDatasetId d.request.datasetId = false →
    (∃ e, d.answer = .ok (.error e)) ∧ d.exchanges = []

end Dispatched

/-- What holds of the dispatches of one backend, in their order. -/
structure Orderly (s : Settings) (command : Command) (ds : List Dispatched) : Prop where
  sound : ∀ d ∈ ds, d.Sound s command
  /-- A job is applied only when the network policy has been applied. -/
  guarded : ∀ before d after, ds = before ++ d :: after → ∀ xs x ys, d.exchanges = xs ++ x :: ys →
    d.AppliesJob s command x →
    (∃ e ∈ before, ∃ y ∈ e.exchanges, e.Guards s command y) ∨ ∃ y ∈ xs, d.Guards s command y
  guardedOnce : (ds.flatMap fun d => d.guards s command).length ≤ 1

/-! ## One dispatch -/

/-- Where an element is not in the front part of a list, it is in the back part. -/
theorem eq_append_of_notMem {α : Type} {front back xs ys : List α} {x : α}
    (h : front ++ back = xs ++ x :: ys) (hx : x ∉ front) :
    ∃ us, xs = front ++ us ∧ back = us ++ x :: ys := by
  rcases List.append_eq_append_iff.mp h with ⟨us, hxs, hback⟩ | ⟨us, hfront, hys⟩
  · exact ⟨us, hxs, hback⟩
  · cases us with
    | nil => exact ⟨[], by simpa using hfront.symm, by simpa using hys.symm⟩
    | cons u us =>
      obtain ⟨rfl, -⟩ := List.cons.inj hys
      exact absurd (by simp [hfront]) hx

namespace Dispatched

variable {s : Settings} {command : Command} {d : Dispatched} {guarded : Bool}

/-- A dispatch that came to its end: it took a course, and its job was deleted. -/
structure Completed (s : Settings) (command : Command) (d : Dispatched) (guarded : Bool) where
  manifest : Json.Value
  course : Job.Course (d.job s command) manifest guarded
  deletion : Exchange
  outcome : Outcome RunResult
  job_eq : Cluster.job s d.name d.request = .ok manifest
  deletion_call : deletion.call = (d.job s command).deleteCall (Job.isTimeout outcome)
  exchanges_eq : d.exchanges = course.exchanges ++ [deletion]
  answer_eq : d.answer = .ok outcome

namespace Completed

/-- Behind the policy there is only what is no policy. -/
theorem call_ne_policyCall (k : Completed s command d guarded) :
    ∀ x ∈ k.course.later ++ [k.deletion], x.call ≠ (d.job s command).policyCall := by
  intro x hx
  rcases List.mem_append.mp hx with hx | hx
  · rcases k.course.call_of_mem_later hx with h | h | h | h <;> rw [h]
    · exact ((d.job s command).policyCall_ne_applyCall k.job_eq).symm
    all_goals exact Call.ne_of_verb (by simp)
  · rw [List.mem_singleton.mp hx, k.deletion_call]
    exact Call.ne_of_verb (by simp)

theorem deletion_ne_logCall (k : Completed s command d guarded) :
    k.deletion.call ≠ (d.job s command).logCall := by
  rw [k.deletion_call]
  exact Call.ne_of_verb (by simp)

theorem exchanges_later (k : Completed s command d guarded) :
    d.exchanges = k.course.policy.toList ++ (k.course.later ++ [k.deletion]) := by
  rw [k.exchanges_eq, Job.Course.exchanges, List.append_assoc]

theorem exchanges_log (k : Completed s command d guarded) :
    d.exchanges = k.course.beforeLog ++ (k.course.log.toList ++ [k.deletion]) := by
  rw [k.exchanges_eq, k.course.exchanges_eq, List.append_assoc]

theorem guards_eq (k : Completed s command d guarded) :
    d.guards s command = k.course.policy.toList.filter fun x =>
      x.reply.succeededWithin (d.job s command).deadline := by
  -- The policy is asked for at the head alone, so nothing behind it is counted.
  have hlater : (k.course.later ++ [k.deletion]).filter (fun x => d.Guards s command x) = [] := by
    rw [List.filter_eq_nil_iff]
    intro x hx
    simp [Guards, k.call_ne_policyCall x hx]
  rw [guards, k.exchanges_later, List.filter_append, hlater, List.append_nil]
  refine List.filter_congr fun x hx => ?_
  simp [Guards, k.course.policy_call x (Option.mem_toList.mp hx)]

theorem policyFirst (k : Completed s command d guarded) {xs ys : List Exchange} {x : Exchange}
    (hsplit : d.exchanges = xs ++ x :: ys) (hx : x.call = (d.job s command).policyCall) :
    xs = [] := by
  rw [k.exchanges_later] at hsplit
  cases xs with
  | nil => rfl
  | cons u us =>
    -- Whatever is behind the head is behind the policy.
    have hmem : x ∈ k.course.later ++ [k.deletion] := by
      cases hpolicy : k.course.policy with
      | none =>
        have hlater : k.course.later ++ [k.deletion] = u :: us ++ x :: ys := by
          simpa [hpolicy] using hsplit
        rw [hlater]
        simp
      | some g =>
        have hlater : k.course.later ++ [k.deletion] = us ++ x :: ys := by
          simp only [hpolicy, Option.toList_some, List.cons_append, List.cons.injEq] at hsplit
          exact hsplit.2
        rw [hlater]
        simp
    exact absurd hx (k.call_ne_policyCall x hmem)

theorem logOnce (k : Completed s command d guarded) :
    (d.exchanges.filter fun x => x.call = (d.job s command).logCall).length ≤ 1 := by
  have hbefore : k.course.beforeLog.filter (fun x => x.call = (d.job s command).logCall) = [] := by
    rw [List.filter_eq_nil_iff]
    intro x hx
    simpa using k.course.call_ne_logCall hx
  have hlast : [k.deletion].filter (fun x => x.call = (d.job s command).logCall) = [] := by
    simp [k.deletion_ne_logCall]
  rw [k.exchanges_log, List.filter_append, List.filter_append, hbefore, hlast, List.nil_append,
    List.append_nil]
  exact Nat.le_trans (List.length_filter_le _ _) (by cases k.course.log <;> simp)

theorem logDone (k : Completed s command d guarded) {xs ys : List Exchange} {x : Exchange}
    (hsplit : d.exchanges = xs ++ x :: ys) (hx : x.call = (d.job s command).logCall) :
    ∃ y ∈ xs, y.call = (d.job s command).pollCall ∧
      ∃ phase, phase ≠ JobPhase.active ∧ Reports y phase := by
  rw [k.exchanges_log] at hsplit
  have hnot : x ∉ k.course.beforeLog := fun hmem => k.course.call_ne_logCall hmem hx
  obtain ⟨us, rfl, hback⟩ := eq_append_of_notMem hsplit hnot
  have hmem : x ∈ k.course.log.toList ++ [k.deletion] := by
    rw [hback]
    simp
  rcases List.mem_append.mp hmem with hlog | hlast
  · obtain ⟨y, hy, hreport⟩ := k.course.log_done x (Option.mem_toList.mp hlog)
    refine ⟨y, List.mem_append_left _ ?_, k.course.polls_call y hy, hreport⟩
    simp [Job.Course.beforeLog, hy]
  · rw [List.mem_singleton.mp hlast] at hx
    exact absurd hx k.deletion_ne_logCall

/-- The job is applied behind the policy, or the policy was applied before. -/
theorem guarded_of_appliesJob (k : Completed s command d guarded) {xs ys : List Exchange}
    {x : Exchange} (hsplit : d.exchanges = xs ++ x :: ys) (hx : d.AppliesJob s command x) :
    guarded = true ∨ ∃ y ∈ xs, d.Guards s command y := by
  obtain ⟨manifest, hmanifest, hcall⟩ := hx
  obtain rfl : k.manifest = manifest := Except.ok.inj (k.job_eq.symm.trans hmanifest)
  have hnot : x ∉ k.course.policy.toList := fun hmem =>
    (d.job s command).policyCall_ne_applyCall k.job_eq
      ((k.course.policy_call x (Option.mem_toList.mp hmem)).symm.trans hcall)
  rw [k.exchanges_later] at hsplit
  obtain ⟨us, rfl, hback⟩ := eq_append_of_notMem hsplit hnot
  have hmem : x ∈ k.course.later ++ [k.deletion] := by
    rw [hback]
    simp
  have hasked : x ∈ k.course.job := by
    simp only [Job.Course.later, List.mem_append, Option.mem_toList, List.mem_singleton] at hmem
    rcases hmem with (h | h | h | h) | rfl
    · exact h
    · exact absurd (hcall.symm.trans (k.course.polls_call x h)) (Call.ne_of_verb (by simp))
    · exact absurd (hcall.symm.trans (k.course.pods_call x h)) (Call.ne_of_verb (by simp))
    · exact absurd (hcall.symm.trans (k.course.log_call x h)) (Call.ne_of_verb (by simp))
    · exact absurd (hcall.symm.trans k.deletion_call) (Call.ne_of_verb (by simp))
  refine (k.course.job_guarded x hasked).imp_right ?_
  rintro ⟨y, hy, hdone⟩
  exact ⟨y, List.mem_append_left us (Option.mem_toList.mpr hy), k.course.policy_call y hy, hdone⟩

theorem sound (k : Completed s command d guarded)
    (hid : Naming.isDatasetId d.request.datasetId = true) (hshown : d.Shown) :
    d.Sound s command where
  asked x hx := by
    rw [k.exchanges_eq] at hx
    rcases List.mem_append.mp hx with hx | hx
    · rcases k.course.call_of_mem hx with h | h | h | h | h
      · exact .inl h
      · exact .inr (.inl ⟨k.manifest, k.job_eq, h⟩)
      · exact .inr (.inr (.inl h))
      · exact .inr (.inr (.inr (.inl h)))
      · exact .inr (.inr (.inr (.inr (.inl h))))
    · rw [List.mem_singleton.mp hx]
      exact .inr (.inr (.inr (.inr (.inr ⟨_, k.deletion_call⟩))))
  policyFirst _ _ _ hsplit hx := k.policyFirst hsplit hx
  logOnce := k.logOnce
  logDone _ _ _ hsplit hx := k.logDone hsplit hx
  deleted _ _ := ⟨k.outcome, k.course.exchanges, k.deletion, k.answer_eq, k.exchanges_eq,
    k.deletion_call, fun _ hx => k.course.call_ne_deleteCall hx⟩
  crashed _ hlate := absurd hshown hlate
  refused hno := by rw [hid] at hno; cases hno

end Completed

/-! ## The invariant -/

/-- A dispatch that leads from one state of a backend to another one. -/
structure Continues (s : Settings) (command : Command) (d : Dispatched) (c c' : Connection) :
    Prop where
  sound : d.Sound s command
  log : c'.log = c.log ++ d.exchanges
  guarded : ∀ xs x ys, d.exchanges = xs ++ x :: ys → d.AppliesJob s command x →
    c.guarded = true ∨ ∃ y ∈ xs, d.Guards s command y
  guardsOnce : (d.guards s command).length ≤ 1
  guardsNone : c.guarded = true → d.guards s command = []
  guardedAfter : c'.guarded = true ↔ c.guarded = true ∨ d.guards s command ≠ []

theorem Completed.continues {c c' : Connection} (k : Completed s command d c.guarded)
    (hid : Naming.isDatasetId d.request.datasetId = true) (hshown : d.Shown)
    (hc' : c' = { c.grown d.exchanges with guarded := k.course.guardedAfter }) :
    d.Continues s command c c' where
  sound := k.sound hid hshown
  log := by rw [hc']; rfl
  guarded _ _ _ hsplit hx := k.guarded_of_appliesJob hsplit hx
  guardsOnce := by
    rw [k.guards_eq]
    exact Nat.le_trans (List.length_filter_le _ _) (by cases k.course.policy <;> simp)
  guardsNone hguarded := by rw [k.guards_eq, k.course.policy_once hguarded]; rfl
  guardedAfter := by
    rw [hc', k.guards_eq]
    simp only [Job.Course.guardedAfter]
    cases k.course.policy <;> simp

/-- A dispatch that exchanged nothing. -/
theorem continues_of_silent {c : Connection} (hnil : d.exchanges = [])
    (hanswer : (Naming.isDatasetId d.request.datasetId = true ∧ ¬ d.Shown ∧
        d.answer = .error .deadlineBeyondClock) ∨
      (Naming.isDatasetId d.request.datasetId = false ∧ ∃ e, d.answer = .ok (.error e))) :
    d.Continues s command c c := by
  have hguards : d.guards s command = [] := by rw [guards, hnil, List.filter_nil]
  have hempty : ∀ (xs : List Exchange) x ys, d.exchanges ≠ xs ++ x :: ys := by simp [hnil]
  refine ⟨⟨?_, ?_, ?_, ?_, ?_, ?_, ?_⟩, by simp [hnil], ?_, by simp [hguards], fun _ => hguards,
    by simp [hguards]⟩
  · simp [hnil]
  · exact fun xs x ys h _ => absurd h (hempty xs x ys)
  · simp [hnil]
  · exact fun xs x ys h _ => absurd h (hempty xs x ys)
  · rintro hid hshown
    rcases hanswer with ⟨_, hlate, _⟩ | ⟨hno, _⟩
    · exact absurd hshown hlate
    · rw [hid] at hno
      cases hno
  · rintro hid _
    rcases hanswer with ⟨_, _, hcrash⟩ | ⟨hno, _⟩
    · exact ⟨hcrash, hnil⟩
    · rw [hid] at hno
      cases hno
  · intro hno
    rcases hanswer with ⟨hid, _⟩ | ⟨_, hrefused⟩
    · rw [hno] at hid
      cases hid
    · exact ⟨hrefused, hnil⟩
  · exact fun xs x ys h _ => absurd h (hempty xs x ys)

end Dispatched

namespace Settings

variable {s : Settings} {command : Command}

theorem beyondClock_iff {startMs : Nat} {r : Request} :
    beyondClock startMs r = true ↔
      Naming.isDatasetId r.datasetId = true ∧ clockEndMs ≤ startMs + r.seconds * 1000 := by
  unfold beyondClock Naming.checkDatasetId
  cases Naming.isDatasetId r.datasetId <;> simp [Except.isOk, Except.toBool]

theorem dispatchAt_of_beyondClock {name : String} {startMs : Nat} {r : Request} {c : Connection}
    (h : beyondClock startMs r = true) :
    s.dispatchAt command name startMs r c = (.error .deadlineBeyondClock, c) := by
  rw [dispatchAt, if_pos h]

theorem dispatchAt_of_not_beyondClock (command : Command) (hmode : s.mode = .clusterJob)
    (name : String) {startMs : Nat} {r : Request} (c : Connection)
    (h : beyondClock startMs r = false) :
    s.dispatchAt command name startMs r c
      = (.ok (Cluster.dispatch s command name r c).1, (Cluster.dispatch s command name r c).2) := by
  rw [dispatchAt, h, if_neg (by decide), dispatch, hmode]

/-- **One dispatch.** -/
theorem account_continues (hmode : s.mode = .clusterJob) (name : String) (startMs : Nat)
    (r : Request) (c : Connection) :
    (s.account command name startMs r c).Continues s command c
      (s.dispatchAt command name startMs r c).2 := by
  -- A dispatch is refused, or it breaks off at the clock, or it takes its course.
  cases hid : Naming.isDatasetId r.datasetId with
  | false =>
    obtain ⟨e, hdispatch⟩ := Cluster.dispatch_of_invalid s command name c hid
    have hclock : beyondClock startMs r = false := by
      rw [← Bool.not_eq_true, beyondClock_iff, hid]
      simp
    have hanswer : s.dispatchAt command name startMs r c = (.ok (.error e), c) := by
      rw [dispatchAt_of_not_beyondClock command hmode name c hclock, hdispatch]
    rw [account, hanswer]
    refine Dispatched.continues_of_silent ?_ (.inr ⟨hid, e, rfl⟩)
    exact List.drop_length
  | true =>
    cases hclock : beyondClock startMs r with
    | true =>
      have hlate := (beyondClock_iff.mp hclock).2
      rw [account, dispatchAt_of_beyondClock hclock]
      refine Dispatched.continues_of_silent ?_ (.inl ⟨hid, Nat.not_lt.mpr hlate, rfl⟩)
      exact List.drop_length
    | false =>
      have hshown : startMs + r.seconds * 1000 < clockEndMs := by
        refine Nat.lt_of_not_le fun hlate => ?_
        rw [beyondClock_iff.mpr ⟨hid, hlate⟩] at hclock
        cases hclock
      obtain ⟨manifest, hmanifest, course, x, hx, hdispatch⟩ :=
        Cluster.dispatch_course s command name c hid
      have hanswer := dispatchAt_of_not_beyondClock command hmode name c hclock
      have hexchanges : (s.account command name startMs r c).exchanges
          = course.exchanges ++ [x] := by
        simp [account, hanswer, hdispatch, Connection.grown]
      let k : (s.account command name startMs r c).Completed s command c.guarded :=
        { manifest, course, deletion := x, outcome := (Cluster.dispatch s command name r c).1
          job_eq := hmanifest
          deletion_call := hx
          exchanges_eq := hexchanges
          answer_eq := congrArg Prod.fst hanswer }
      refine k.continues hid hshown ?_
      rw [hanswer, hexchanges]
      exact hdispatch

/-! ## A session -/

/-- What holds of a backend and of the account of its dispatches, as long as it lasts. -/
structure Kept (s : Settings) (command : Command) (state : Connection × List Dispatched) : Prop where
  orderly : Orderly s command state.2
  log : state.1.log = state.2.flatMap Dispatched.exchanges
  guarded : state.1.guarded = true ↔ (state.2.flatMap fun d => d.guards s command) ≠ []

namespace Kept

theorem fresh : Kept s command (.fresh, []) :=
  ⟨⟨by simp, by simp, by simp⟩, rfl, by simp [Connection.fresh]⟩

theorem step {c c' : Connection} {ds : List Dispatched} (h : Kept s command (c, ds)) {d : Dispatched}
    (hd : d.Continues s command c c') : Kept s command (c', ds ++ [d]) where
  orderly := by
    refine ⟨?_, ?_, ?_⟩
    · simpa [or_imp, forall_and] using And.intro h.orderly.sound hd.sound
    · intro before e after hsplit xs x ys hx hjob
      -- The dispatch is the new one, or one of those before it.
      rcases List.eq_nil_or_concat after with rfl | ⟨rest, last, rfl⟩
      · obtain ⟨rfl, he⟩ := List.append_inj' hsplit rfl
        obtain rfl : d = e := by simpa using he
        refine (hd.guarded xs x ys hx hjob).imp_left fun hguarded => ?_
        obtain ⟨y, hy⟩ := List.exists_mem_of_ne_nil _ (h.guarded.mp hguarded)
        obtain ⟨e, he, hy⟩ := List.mem_flatMap.mp hy
        rw [Dispatched.guards, List.mem_filter] at hy
        exact ⟨e, he, y, hy.1, by simpa using hy.2⟩
      · have hlast : ds ++ [d] = (before ++ e :: rest) ++ [last] := by simpa using hsplit
        obtain ⟨hds, -⟩ := List.append_inj' hlast rfl
        exact h.orderly.guarded before e rest hds xs x ys hx hjob
    · have hguards : ((ds ++ [d]).flatMap fun d => d.guards s command)
          = (ds.flatMap fun d => d.guards s command) ++ d.guards s command := by simp
      rw [hguards]
      -- Either the policy had been applied, and this dispatch leaves it, or it is the first to.
      cases hguarded : c.guarded with
      | true => simpa [hd.guardsNone hguarded] using h.orderly.guardedOnce
      | false =>
        have hnone : (ds.flatMap fun d => d.guards s command) = [] := by
          have hnot := mt h.guarded.mpr (by simp [hguarded])
          simpa using hnot
        simpa [hnone] using hd.guardsOnce
  log := by
    have hlog : c.log = ds.flatMap Dispatched.exchanges := h.log
    rw [hd.log, hlog]
    simp
  guarded := by
    have hguarded : c.guarded = true ↔ (ds.flatMap fun d => d.guards s command) ≠ [] := h.guarded
    rw [hd.guardedAfter, hguarded]
    have hguards : ((ds ++ [d]).flatMap fun d => d.guards s command)
        = (ds.flatMap fun d => d.guards s command) ++ d.guards s command := by simp
    rw [hguards, ne_eq, ne_eq, ne_eq, List.append_eq_nil_iff, not_and_or]

end Kept

theorem kept_serveNoting (hmode : s.mode = .clusterJob) (errands : List Errand) :
    Kept s command (s.serveNoting command errands) := by
  have hone : ∀ (e : Errand) (state : Connection × List Dispatched), Kept s command state →
      Kept s command (executeCrashingOn s.retry (s.dispatchNoting command e) state).2 :=
    fun e state => executeCrashingOnFrom_preserves s.retry
      (fun n state h => h.step (account_continues hmode _ _ _ _)) _ 0 state
  have hall : ∀ state, Kept s command state → Kept s command (errands.foldl (fun state e =>
      (executeCrashingOn s.retry (s.dispatchNoting command e) state).2) state) := by
    induction errands with
    | nil => exact fun _ h => h
    | cons e errands ih => exact fun state h => ih _ (hone e state h)
  exact hall _ .fresh

/-- **The calls of a cluster backend are in order**, whatever the requests are, whatever the command
answers, and whenever the time of a run is over. -/
theorem serve_orderly (hmode : s.mode = .clusterJob) (command : Command) (errands : List Errand) :
    Orderly s command (s.dispatched command errands) ∧
      (s.serve command errands).log
        = (s.dispatched command errands).flatMap Dispatched.exchanges := by
  have hkept : Kept s command (s.serveNoting command errands) := kept_serveNoting hmode errands
  refine ⟨hkept.orderly, ?_⟩
  rw [← serveNoting_fst]
  exact hkept.log

/-- A command that does everything and says nothing. -/
def silentCommand : Command := fun _ _ => .ended (.code 0) [] [] 1

/-- The settings of a cluster. -/
def clusterSettings : Settings := { Settings.default with mode := .clusterJob }

/-- A request that may take so many seconds. -/
def errandOf (seconds : Nat) : Errand :=
  ⟨⟨"tickets", [], .sql "SELECT 1", seconds, 10, 1024⟩, fun _ => "sqlsandbox-0", fun n => 1000 * n⟩

/-- A job of which nothing is said is dispatched again, behind the same network policy. -/
theorem serve_orderly_retried :
    Orderly clusterSettings silentCommand
        (clusterSettings.dispatched silentCommand [errandOf 5, errandOf 0]) ∧
      ((clusterSettings.dispatched silentCommand [errandOf 5, errandOf 0]).map fun d =>
        d.exchanges.filterMap fun x => x.call.verb) =
          [["apply", "apply", "get", "delete"], ["apply", "get", "delete"],
            ["apply", "get", "delete"], ["apply", "delete"]] :=
  ⟨(serve_orderly rfl silentCommand [errandOf 5, errandOf 0]).1, by decide +kernel⟩

/-- A dispatch whose time ends beyond the clock has a plain dataset, and deletes no job. -/
theorem dispatched_beyondClock :
    ∃ d ∈ clusterSettings.dispatched silentCommand [errandOf (2 ^ 64 - 1)],
      Naming.isDatasetId d.request.datasetId = true ∧ d.exchanges = [] ∧
      d.answer = .error .deadlineBeyondClock := by
  refine ⟨_, List.mem_singleton_self _, ?_, ?_, ?_⟩
  all_goals rfl

end Settings

end Enclave
