import Enclave.Backend.Dispatch
import Enclave.Proofs.Json.Canonical
import Enclave.Proofs.Naming
import Enclave.Proofs.Outcome

/-!
# The course of a job

What one dispatch asks of the cluster is a list of calls in a fixed order: the network policy, the
job, polls, the pods, the log, and the deletion. `Course` is such a list, any part of which may be
missing, with what has to hold where a part is there. `Job.run_course` is the one theorem about the
code of a run, and `dispatch_cases` says what a dispatch does; nothing else is needed of either.
-/

namespace Enclave

open Json (Value)

/-- The word that says what a call of the cluster is for. -/
def Call.verb (c : Call) : Option String := c.args[2]?

theorem Call.ne_of_verb {a b : Call} (h : a.verb ≠ b.verb) : a ≠ b :=
  fun hab => h (congrArg Call.verb hab)

/-- Whether a program did what it was asked for, within so many milliseconds. -/
def Reply.succeededWithin (ms : Nat) : Reply → Bool
  | .absent _ => false
  | .ended exit _ _ took => exit.succeeded && took < ms

/-- A connection on which more has been exchanged. -/
def Connection.grown (c : Connection) (xs : List Exchange) : Connection :=
  { c with log := c.log ++ xs }

@[simp]
theorem Connection.grown_nil (c : Connection) : c.grown [] = c := by
  simp [Connection.grown]

@[simp]
theorem Connection.grown_grown (c : Connection) (xs ys : List Exchange) :
    (c.grown xs).grown ys = c.grown (xs ++ ys) := by
  simp [Connection.grown]

namespace Cluster

/-- An exchange that says that a job is in a phase. -/
def Reports (x : Exchange) (phase : JobPhase) : Prop :=
  ∃ stdout stderr ms v, x.reply = .ended (.code 0) stdout stderr ms ∧
    Value.parse (Text.ofBytes stdout) = .ok v ∧ phaseOf v = phase

namespace Job

variable (j : Job)

/-! ## Calls -/

/-- The call that applies a manifest. -/
def applyCall (manifest : Value) : Call :=
  j.call ["apply", "-f", "-"] (some (manifestText manifest))

/-- The call that applies the network policy. -/
def policyCall : Call := j.applyCall (networkPolicy j.settings)

/-- The call that asks for the phase of the job. -/
def pollCall : Call := j.call ["get", "job", j.name, "-o", "json"] none

/-- The call that asks for the pods of the job. -/
def podsCall : Call := j.call ["get", "pods", "-l", "job-name=" ++ j.name, "-o", "json"] none

/-- The call that reads the log of the job. -/
def logCall : Call := j.call ["logs", "job/" ++ j.name, "-c", containerName] none

/-- The call that deletes the job. -/
def deleteCall (force : Bool) : Call := j.call (j.deletion force) none

@[simp]
theorem verb_applyCall (manifest : Value) : (j.applyCall manifest).verb = some "apply" := rfl

@[simp]
theorem verb_policyCall : j.policyCall.verb = some "apply" := rfl

@[simp]
theorem verb_pollCall : j.pollCall.verb = some "get" := rfl

@[simp]
theorem verb_podsCall : j.podsCall.verb = some "get" := rfl

@[simp]
theorem verb_logCall : j.logCall.verb = some "logs" := rfl

@[simp]
theorem verb_deleteCall (force : Bool) : (j.deleteCall force).verb = some "delete" := by
  cases force <;> rfl

/-- The text of an object of the cluster begins with the version of its interface. -/
theorem manifestText_eq (version : String) (kind metadata spec : Value) :
    ∃ rest, (manifestText (.obj [("apiVersion", .str version), ("kind", kind),
        ("metadata", metadata), ("spec", spec)])).toList
      = '{' :: (Json.stringChars "apiVersion" ++ ':' :: (Json.stringChars version ++ rest)) := by
  rw [manifestText, Value.canonical, Value.canonicalFields_eq_ofList]
  simp only [List.map_cons, List.map_nil, Value.canonical, Json.Fields.ofList, Json.Fields.insert,
    List.foldl_cons, List.foldl_nil, String.reduceEq, String.reduceLT, ↓reduceIte]
  simp only [Value.compact, String.toList_ofList, Value.chars, Json.fieldChars, Json.joinChars,
    List.append_assoc, List.cons_append]
  exact ⟨_, rfl⟩

/-- The network policy is no job: their interfaces have other versions. -/
theorem policyCall_ne_applyCall {manifest : Value}
    (h : job j.settings j.name j.request = .ok manifest) :
    j.policyCall ≠ j.applyCall manifest := by
  intro heq
  obtain ⟨_, -, hmanifest⟩ := bind_eq_ok.mp h
  have htext : manifestText (networkPolicy j.settings) = manifestText manifest :=
    Option.some.inj (congrArg Call.input heq)
  rw [← pure_eq_ok.mp hmanifest] at htext
  obtain ⟨policyRest, hpolicy⟩ := manifestText_eq "networking.k8s.io/v1" _ _ _
  obtain ⟨jobRest, hjob⟩ := manifestText_eq "batch/v1" _ _ _
  -- The texts agree up to the version, so they would differ in its first letter.
  have hversions := hpolicy.symm.trans ((congrArg String.toList htext).trans hjob)
  simp only [List.cons.injEq, List.append_cancel_left_eq, true_and] at hversions
  have hletters := congrArg (List.take 2) hversions
  rw [List.take_append_of_le_length (by decide), List.take_append_of_le_length (by decide)]
    at hletters
  exact absurd hletters (by decide)

/-! ## One call -/

variable {j}
variable {p : Progress}

/-- A call is made, and its reply is read. -/
theorem kubectl_eq (j : Job) (verb : String) (args : List String) (input : Option String)
    (p : Progress) :
    ∃ x, x.call = j.call (verb :: args) input ∧
      j.kubectl verb args input p
        = (j.readReply verb (p.elapsed + took x.reply) x.reply,
          ⟨p.connection.grown [x], p.elapsed + took x.reply⟩) :=
  ⟨⟨j.call (verb :: args) input, j.command p.connection.log (j.call (verb :: args) input)⟩,
    rfl, rfl⟩

/-- What was printed is believed if the call succeeded in time. -/
theorem readReply_eq_ok {verb : String} {elapsed : Nat} {reply : Reply} {text : String}
    (h : j.readReply verb elapsed reply = .ok text) :
    ∃ stdout stderr ms, reply = .ended (.code 0) stdout stderr ms ∧ text = Text.ofBytes stdout ∧
      elapsed < j.deadline := by
  unfold readReply at h
  split at h
  · cases h
  rename_i exit stdout stderr ms
  split at h
  · cases h
  rename_i hearly
  split at h
  · rename_i hexit
    cases h
    obtain rfl : exit = .code 0 := by simpa [Exit.succeeded] using hexit
    exact ⟨stdout, stderr, ms, rfl, rfl, Nat.lt_of_not_le hearly⟩
  · cases h

/-- The first call of a run is believed if it succeeded within the time of the run. -/
theorem isOk_readReply (j : Job) (verb : String) (reply : Reply) :
    (j.readReply verb (took reply) reply).isOk = reply.succeededWithin j.deadline := by
  cases reply with
  | absent reason => rfl
  | ended exit stdout stderr ms =>
    change _ = (exit.succeeded && decide (ms < j.deadline))
    rw [took, readReply]
    by_cases hlate : j.deadline ≤ ms
    · rw [if_pos hlate, decide_eq_false (Nat.not_lt.mpr hlate), Bool.and_false]
      rfl
    · rw [if_neg hlate, decide_eq_true (Nat.lt_of_not_le hlate), Bool.and_true]
      cases exit.succeeded <;> rfl

/-! ## The parts of a run -/

theorem guardNetwork_of_guarded (h : p.connection.guarded = true) :
    j.guardNetwork p = (.ok (), p) := by
  rw [guardNetwork, if_pos h]

/-- As the first call of a run, the network policy is applied. -/
theorem guardNetwork_spec (j : Job) {c : Connection} (h : c.guarded = false) :
    ∃ x, x.call = j.policyCall ∧
      (j.guardNetwork ⟨c, 0⟩).1.isOk = x.reply.succeededWithin j.deadline ∧
      (j.guardNetwork ⟨c, 0⟩).2.connection
        = { c.grown [x] with guarded := x.reply.succeededWithin j.deadline } := by
  obtain ⟨x, hcall, hkubectl⟩ := j.kubectl_eq "apply" ["-f", "-"]
    (some (manifestText (networkPolicy j.settings))) ⟨c, 0⟩
  rw [Nat.zero_add] at hkubectl
  have hok := j.isOk_readReply "apply" x.reply
  refine ⟨x, hcall, ?_⟩
  rw [← hok, guardNetwork, h, if_neg (by decide), apply, hkubectl]
  cases j.readReply "apply" (took x.reply) x.reply with
  | error e => exact ⟨rfl, by simp [Except.map, Except.isOk, Except.toBool, Connection.grown, h]⟩
  | ok text => exact ⟨rfl, rfl⟩

theorem apply_spec (j : Job) (manifest : Value) (p : Progress) :
    ∃ x, x.call = j.applyCall manifest ∧
      (j.apply manifest p).2.connection = p.connection.grown [x] := by
  obtain ⟨x, hcall, hkubectl⟩ := j.kubectl_eq "apply" ["-f", "-"] (some (manifestText manifest)) p
  exact ⟨x, hcall, by rw [apply, hkubectl]⟩

theorem poll_spec (j : Job) (p : Progress) :
    ∃ x, x.call = j.pollCall ∧ (j.poll p).2.connection = p.connection.grown [x] ∧
      ∀ phase, (j.poll p).1 = .ok phase → Reports x phase := by
  obtain ⟨x, hcall, hkubectl⟩ := j.kubectl_eq "get" ["job", j.name, "-o", "json"] none p
  refine ⟨x, hcall, ?_⟩
  rw [poll, hkubectl]
  cases hread : j.readReply "get" (p.elapsed + took x.reply) x.reply with
  | error e => exact ⟨rfl, fun _ h => by cases h⟩
  | ok text =>
    obtain ⟨stdout, stderr, ms, hreply, rfl, -⟩ := readReply_eq_ok hread
    cases hparse : Value.parse (Text.ofBytes stdout) with
    | error f => exact ⟨by simp only [hparse], fun _ h => by simp only [hparse] at h; cases h⟩
    | ok v =>
      refine ⟨by simp only [hparse], fun phase h => ?_⟩
      simp only [hparse] at h
      cases h
      exact ⟨stdout, stderr, ms, v, hreply, hparse, rfl⟩

/-- A job is polled until it is in another phase than the active one, or the time is over. -/
theorem pollUntilDone_spec (j : Job) (polls : Nat) (p : Progress) :
    ∃ xs, (∀ x ∈ xs, x.call = j.pollCall) ∧
      (j.pollUntilDone polls p).2.connection = p.connection.grown xs ∧
      ∀ phase, (j.pollUntilDone polls p).1 = .ok phase →
        ∃ x ∈ xs, ∃ phase, phase ≠ .active ∧ Reports x phase := by
  -- The polls that are left bound the loop; what was asked before is in the connection.
  induction polls generalizing p with
  | zero => exact ⟨[], by simp, by simp [pollUntilDone], fun _ h => by cases h⟩
  | succ polls ih =>
    obtain ⟨x, hcall, hconnection, hreports⟩ := j.poll_spec p
    have hone : ∀ y ∈ [x], y.call = j.pollCall := by simpa using hcall
    rw [pollUntilDone]
    split
    · rename_i after hpoll
      rw [hpoll] at hconnection
      have hafter : after.connection = p.connection.grown [x] := hconnection
      simp only
      split
      · exact ⟨[x], hone, hafter, fun _ h => by cases h⟩
      · obtain ⟨xs, hcalls, hmore, hdone⟩ := ih { after with elapsed := after.elapsed + j.pollPause }
        refine ⟨x :: xs, List.forall_mem_cons.mpr ⟨hcall, hcalls⟩, ?_, fun phase h => ?_⟩
        · rw [hmore, hafter, Connection.grown_grown, List.singleton_append]
        · obtain ⟨y, hy, hreport⟩ := hdone phase h
          exact ⟨y, List.mem_cons_of_mem x hy, hreport⟩
    · rename_i hactive
      refine ⟨[x], hone, hconnection, fun phase h => ⟨x, List.mem_singleton_self x, phase, ?_, ?_⟩⟩
      · rintro rfl
        exact hactive _ (Prod.ext h rfl)
      · exact hreports phase h

theorem outOfMemory_spec (j : Job) (p : Progress) :
    ∃ x, x.call = j.podsCall ∧ (j.outOfMemory p).2.connection = p.connection.grown [x] := by
  obtain ⟨x, hcall, hkubectl⟩ :=
    j.kubectl_eq "get" ["pods", "-l", "job-name=" ++ j.name, "-o", "json"] none p
  have hsame : (j.outOfMemory p).2
      = (j.kubectl "get" ["pods", "-l", "job-name=" ++ j.name, "-o", "json"] none p).2 := by
    unfold outOfMemory
    split <;> rename_i h <;> rw [h]
  exact ⟨x, hcall, by rw [hsame, hkubectl]⟩

theorem readLog_spec (j : Job) (phase : JobPhase) (p : Progress) :
    ∃ x, x.call = j.logCall ∧ (j.readLog phase p).2.connection = p.connection.grown [x] := by
  obtain ⟨x, hcall, hkubectl⟩ := j.kubectl_eq "logs" ["job/" ++ j.name, "-c", containerName] none p
  have hsame : (j.readLog phase p).2
      = (j.kubectl "logs" ["job/" ++ j.name, "-c", containerName] none p).2 := by
    unfold readLog
    split <;> rename_i h <;> rw [h]
    split
    · rfl
    · split <;> rfl
  exact ⟨x, hcall, by rw [hsame, hkubectl]⟩

/-- What a job that is done is asked for: its pods if it failed, and its log. -/
theorem collect_spec (j : Job) (phase : JobPhase) (p : Progress) :
    ∃ pods log : Option Exchange, (∀ x ∈ pods, x.call = j.podsCall) ∧
      (∀ x ∈ log, x.call = j.logCall) ∧
      (j.collect phase p).2.connection = p.connection.grown (pods.toList ++ log.toList) := by
  unfold collect
  split
  · exact ⟨none, none, by simp, by simp, by simp⟩
  · obtain ⟨x, hcall, hconnection⟩ := j.outOfMemory_spec p
    split <;> rename_i hpods <;> rw [hpods] at hconnection
    · exact ⟨some x, none, by simpa using hcall, by simp, by simpa using hconnection⟩
    · exact ⟨some x, none, by simpa using hcall, by simp, by simpa using hconnection⟩
    · rename_i after
      obtain ⟨y, hlog, hmore⟩ := j.readLog_spec _ after
      have hafter : after.connection = p.connection.grown [x] := hconnection
      refine ⟨some x, some y, by simpa using hcall, by simpa using hlog, ?_⟩
      rw [hmore, hafter, Connection.grown_grown]
      rfl
  · obtain ⟨x, hcall, hconnection⟩ := j.readLog_spec phase p
    exact ⟨none, some x, by simp, by simpa using hcall, by simpa using hconnection⟩

theorem delete_spec (j : Job) (force : Bool) (c : Connection) :
    ∃ x, x.call = j.deleteCall force ∧ j.delete force c = c.grown [x] :=
  ⟨⟨j.deleteCall force, j.command c.log (j.deleteCall force)⟩, rfl, rfl⟩

/-! ## A run -/

/-- What a run asks of the cluster, short of the deletion of its job. `guarded` says whether the
network policy had been applied before. -/
structure Course (j : Job) (manifest : Value) (guarded : Bool) where
  policy : Option Exchange
  job : Option Exchange
  polls : List Exchange
  pods : Option Exchange
  log : Option Exchange
  policy_call : ∀ x ∈ policy, x.call = j.policyCall
  job_call : ∀ x ∈ job, x.call = j.applyCall manifest
  polls_call : ∀ x ∈ polls, x.call = j.pollCall
  pods_call : ∀ x ∈ pods, x.call = j.podsCall
  log_call : ∀ x ∈ log, x.call = j.logCall
  policy_once : guarded = true → policy = none
  job_guarded : ∀ x ∈ job,
    guarded = true ∨ ∃ y ∈ policy, y.reply.succeededWithin j.deadline = true
  log_done : ∀ x ∈ log, ∃ y ∈ polls, ∃ phase, phase ≠ .active ∧ Reports y phase

namespace Course

variable {manifest : Value} {guarded : Bool} {x : Exchange}

/-- What a run asks for behind the network policy. -/
def later (k : Course j manifest guarded) : List Exchange :=
  k.job.toList ++ (k.polls ++ (k.pods.toList ++ k.log.toList))

/-- The exchanges of a run. -/
def exchanges (k : Course j manifest guarded) : List Exchange := k.policy.toList ++ k.later

/-- What a run asks for before the log. -/
def beforeLog (k : Course j manifest guarded) : List Exchange :=
  k.policy.toList ++ (k.job.toList ++ (k.polls ++ k.pods.toList))

theorem exchanges_eq (k : Course j manifest guarded) :
    k.exchanges = k.beforeLog ++ k.log.toList := by
  simp [exchanges, later, beforeLog]

/-- Whether the network policy has been applied when the run is over. -/
def guardedAfter (k : Course j manifest guarded) : Bool :=
  guarded || k.policy.any fun x => x.reply.succeededWithin j.deadline

theorem call_of_mem_later (k : Course j manifest guarded) (h : x ∈ k.later) :
    x.call = j.applyCall manifest ∨ x.call = j.pollCall ∨ x.call = j.podsCall ∨
      x.call = j.logCall := by
  simp only [later, List.mem_append, Option.mem_toList] at h
  rcases h with h | h | h | h
  · exact .inl (k.job_call x h)
  · exact .inr (.inl (k.polls_call x h))
  · exact .inr (.inr (.inl (k.pods_call x h)))
  · exact .inr (.inr (.inr (k.log_call x h)))

theorem call_of_mem (k : Course j manifest guarded) (h : x ∈ k.exchanges) :
    x.call = j.policyCall ∨ x.call = j.applyCall manifest ∨ x.call = j.pollCall ∨
      x.call = j.podsCall ∨ x.call = j.logCall := by
  rcases List.mem_append.mp h with h | h
  · exact .inl (k.policy_call x (Option.mem_toList.mp h))
  · exact .inr (k.call_of_mem_later h)

theorem call_ne_deleteCall (k : Course j manifest guarded) (h : x ∈ k.exchanges) (force : Bool) :
    x.call ≠ j.deleteCall force := by
  rcases k.call_of_mem h with h | h | h | h | h <;> rw [h] <;> exact Call.ne_of_verb (by simp)

theorem call_ne_logCall (k : Course j manifest guarded) (h : x ∈ k.beforeLog) :
    x.call ≠ j.logCall := by
  have hcall : x.call = j.policyCall ∨ x.call = j.applyCall manifest ∨ x.call = j.pollCall ∨
      x.call = j.podsCall := by
    simp only [beforeLog, List.mem_append, Option.mem_toList] at h
    exact h.imp (k.policy_call x) (Or.imp (k.job_call x) (Or.imp (k.polls_call x) (k.pods_call x)))
  rcases hcall with h | h | h | h <;> rw [h] <;> exact Call.ne_of_verb (by simp)

end Course

/-- A run behind the network policy, which was applied before or is applied by the run, in time. -/
theorem run_of_guardNetwork {u : Unit} {q : Progress} (manifest : Value) (guarded : Bool)
    (policy : Option Exchange) (hguard : j.guardNetwork q = (.ok u, p))
    (hpolicy : ∀ g ∈ policy, g.call = j.policyCall) (honce : guarded = true → policy = none)
    (hforce : guarded = true ∨ ∃ g ∈ policy, g.reply.succeededWithin j.deadline = true) :
    ∃ k : Course j manifest guarded, k.policy = policy ∧ k.job.isSome = true ∧
      (j.run manifest q).2.connection = p.connection.grown k.later := by
  obtain ⟨x, hcall, happly⟩ := j.apply_spec manifest p
  -- A course that applies the job; what it goes on with is what differs.
  have hcourse : ∀ (polls : List Exchange) (pods log : Option Exchange),
      (∀ y ∈ polls, y.call = j.pollCall) → (∀ y ∈ pods, y.call = j.podsCall) →
      (∀ y ∈ log, y.call = j.logCall) →
      (∀ _ ∈ log, ∃ y ∈ polls, ∃ phase, phase ≠ .active ∧ Reports y phase) →
      ∃ k : Course j manifest guarded, k.policy = policy ∧ k.job.isSome = true ∧
        k.later = x :: (polls ++ (pods.toList ++ log.toList)) :=
    fun polls pods log hpolls hpods hlog hdone =>
      ⟨{ policy, job := some x, polls, pods, log
         policy_call := hpolicy
         job_call := by simpa using hcall
         polls_call := hpolls
         pods_call := hpods
         log_call := hlog
         policy_once := honce
         job_guarded := fun _ _ => hforce
         log_done := hdone }, rfl, rfl, rfl⟩
  unfold run
  rw [hguard]
  simp only
  -- Whatever fails ends the run, and then the parts behind it are missing.
  split
  · rename_i hfailed
    rw [hfailed] at happly
    obtain ⟨k, hk, hjob, hlater⟩ := hcourse [] none none (by simp) (by simp) (by simp) (by simp)
    exact ⟨k, hk, hjob, by simpa [hlater] using happly⟩
  · rename_i applied hdone
    rw [hdone] at happly
    have happlied : applied.connection = p.connection.grown [x] := happly
    obtain ⟨polls, hpolls, hwaited, hreported⟩ := j.pollUntilDone_spec (j.deadline + 1) applied
    rw [← await] at hwaited hreported
    rw [happlied, Connection.grown_grown] at hwaited
    split
    · rename_i hlate
      rw [hlate] at hwaited
      obtain ⟨k, hk, hjob, hlater⟩ := hcourse polls none none hpolls (by simp) (by simp) (by simp)
      exact ⟨k, hk, hjob, by simpa [hlater] using hwaited⟩
    · rename_i phase waited hended
      rw [hended] at hwaited hreported
      have hconnection : waited.connection = p.connection.grown ([x] ++ polls) := hwaited
      obtain ⟨pods, log, hpods, hlog, hcollected⟩ := j.collect_spec phase waited
      obtain ⟨k, hk, hjob, hlater⟩ :=
        hcourse polls pods log hpolls hpods hlog fun _ _ => hreported phase rfl
      refine ⟨k, hk, hjob, ?_⟩
      rw [hcollected, hconnection, Connection.grown_grown, hlater]
      simp

/-- **The course of a run.** -/
theorem run_course (j : Job) (manifest : Value) (c : Connection) :
    ∃ k : Course j manifest c.guarded,
      (j.run manifest ⟨c, 0⟩).2.connection
        = { c.grown k.exchanges with guarded := k.guardedAfter } := by
  cases hguarded : c.guarded with
  | true =>
    obtain ⟨k, hk, -, hconnection⟩ := run_of_guardNetwork manifest true none
      (guardNetwork_of_guarded (p := ⟨c, 0⟩) hguarded) (by simp) (fun _ => rfl) (.inl rfl)
    refine ⟨k, ?_⟩
    rw [hconnection]
    simp [Course.exchanges, Course.guardedAfter, Connection.grown, hguarded, hk]
  | false =>
    obtain ⟨g, hg, hok, hguard⟩ := j.guardNetwork_spec hguarded
    cases hresult : j.guardNetwork ⟨c, 0⟩ with
    | mk r after =>
      rw [hresult] at hok hguard
      have hafter : after.connection
          = { c.grown [g] with guarded := g.reply.succeededWithin j.deadline } := hguard
      cases r with
      | error e =>
        let k : Course j manifest false :=
          { policy := some g, job := none, polls := [], pods := none, log := none
            policy_call := by simpa using hg
            job_call := by simp
            polls_call := by simp
            pods_call := by simp
            log_call := by simp
            policy_once := by simp
            job_guarded := by simp
            log_done := by simp }
        refine ⟨k, ?_⟩
        rw [run, hresult]
        simp [k, Course.exchanges, Course.later, Course.guardedAfter, hafter]
      | ok u =>
        -- Only now is a job applied, and the policy was applied in time.
        have hdoneInTime : g.reply.succeededWithin j.deadline = true := hok.symm
        obtain ⟨k, hk, -, hconnection⟩ := run_of_guardNetwork manifest false (some g) hresult
          (by simpa using hg) (by simp) (by simpa using hdoneInTime)
        refine ⟨k, ?_⟩
        rw [hconnection, hafter]
        simp [Course.exchanges, Course.guardedAfter, Connection.grown, hk]

end Job

/-! ## A dispatch -/

/-- A request whose dataset has no plain name asks nothing of the cluster. -/
theorem dispatch_of_invalid (s : Settings) (command : Command) (name : String) {r : Request}
    (c : Connection) (h : Naming.isDatasetId r.datasetId = false) :
    ∃ e, dispatch s command name r c = (.error e, c) := by
  have hcheck : Naming.checkDatasetId r.datasetId
      = .error (.invalid "dataset.id" ("'" ++ r.datasetId ++ "' is not a plain identifier")) := by
    rw [Naming.checkDatasetId, h, if_neg (by decide)]
  simp only [dispatch, job, hcheck, bind, Except.bind]
  exact ⟨_, rfl⟩

/-- A request whose dataset has a plain name has a job. -/
theorem exists_job (s : Settings) (name : String) {r : Request}
    (h : Naming.isDatasetId r.datasetId = true) : ∃ manifest, job s name r = .ok manifest := by
  rw [job, Naming.checkDatasetId_eq_ok.mpr h]
  exact ⟨_, rfl⟩

/-- **What a dispatch asks of the cluster**: a run takes its course, and then the job is deleted. -/
theorem dispatch_course (s : Settings) (command : Command) (name : String) {r : Request}
    (c : Connection) (h : Naming.isDatasetId r.datasetId = true) :
    ∃ manifest, job s name r = .ok manifest ∧
      ∃ (k : Job.Course ⟨s, command, name, r⟩ manifest c.guarded) (x : Exchange),
        x.call = Job.deleteCall ⟨s, command, name, r⟩
          (Job.isTimeout (dispatch s command name r c).1) ∧
        (dispatch s command name r c).2
          = { c.grown (k.exchanges ++ [x]) with guarded := k.guardedAfter } := by
  obtain ⟨manifest, hmanifest⟩ := exists_job s name h
  refine ⟨manifest, hmanifest, ?_⟩
  obtain ⟨k, hk⟩ := Job.run_course ⟨s, command, name, r⟩ manifest c
  rw [dispatch, hmanifest]
  simp only
  obtain ⟨x, hx, hdelete⟩ := Job.delete_spec ⟨s, command, name, r⟩
    (Job.isTimeout (Job.run ⟨s, command, name, r⟩ manifest ⟨c, 0⟩).1)
    (Job.run ⟨s, command, name, r⟩ manifest ⟨c, 0⟩).2.connection
  refine ⟨k, x, hx, ?_⟩
  rw [hdelete, hk]
  simp [Connection.grown]

end Cluster

end Enclave
