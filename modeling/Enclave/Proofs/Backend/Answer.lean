import Enclave.Backend.Dispatch
import Enclave.Proofs.Record.Store
import Enclave.Proofs.Run.Execution
import Enclave.Proofs.Run.Output
import Enclave.Sandbox

/-!
# What a backend answers

Either backend answers with a result only if it found it in an output (`Container.dispatch_eq_ok`,
`Cluster.dispatch_eq_ok`), and retries change nothing about that (`Settings.execute_eq_ok`). So what
is said of every output by `Believed` holds of whatever reaches a capsule.
-/

namespace Enclave

/-! ## Where a result comes from -/

theorem Container.dispatch_eq_ok {s : Settings} {command : Command} {name : String} {r : Request}
    {c : Connection} {result : RunResult}
    (h : (Container.dispatch s command name r c).1 = .ok result) :
    ∃ text, readResult text = .ok result := by
  unfold Container.dispatch at h
  split at h
  · cases h
  simp only at h
  split at h
  · cases h
  split at h
  · unfold Container.interpret at h
    split at h
    · cases h
    split at h
    · cases h
    split at h
    · cases h
    unfold Container.readOutput at h
    split at h
    · rename_i hread
      cases h
      exact ⟨_, hread⟩
    · split at h <;> cases h
  · cases h

namespace Cluster.Job

theorem readLog_eq_ok {j : Job} {phase : JobPhase} {p : Progress} {result : RunResult}
    (h : (j.readLog phase p).1 = .ok result) : ∃ text, readResult text = .ok result := by
  unfold readLog at h
  split at h
  · cases h
  split at h
  · rename_i hread
    cases h
    exact ⟨_, hread⟩
  · split at h <;> cases h

theorem collect_eq_ok {j : Job} {phase : JobPhase} {p : Progress} {result : RunResult}
    (h : (j.collect phase p).1 = .ok result) : ∃ text, readResult text = .ok result := by
  unfold collect at h
  split at h
  · cases h
  · split at h
    · cases h
    · cases h
    · exact readLog_eq_ok h
  · exact readLog_eq_ok h

theorem run_eq_ok {j : Job} {manifest : Json.Value} {p : Progress} {result : RunResult}
    (h : (j.run manifest p).1 = .ok result) : ∃ text, readResult text = .ok result := by
  unfold run at h
  split at h
  · cases h
  split at h
  · cases h
  split at h
  · cases h
  · exact collect_eq_ok h

end Cluster.Job

theorem Cluster.dispatch_eq_ok {s : Settings} {command : Command} {name : String} {r : Request}
    {c : Connection} {result : RunResult}
    (h : (Cluster.dispatch s command name r c).1 = .ok result) :
    ∃ text, readResult text = .ok result := by
  unfold Cluster.dispatch at h
  split at h
  · cases h
  · exact Job.run_eq_ok h

/-- Either backend finds its results in a text. -/
theorem Settings.dispatch_eq_ok {s : Settings} {command : Command} {name : String} {r : Request}
    {c : Connection} {result : RunResult} (h : (s.dispatch command name r c).1 = .ok result) :
    ∃ text, readResult text = .ok result := by
  unfold Settings.dispatch at h
  split at h
  · exact Container.dispatch_eq_ok h
  · exact Cluster.dispatch_eq_ok h

/-- The outcome of an execution is the answer of one of its dispatches. -/
theorem executeOnFrom_outcome {σ : Type} (p : RetryPolicy)
    (dispatch : Nat → σ → Outcome RunResult × σ) (left n : Nat) (state : σ) :
    ∃ m before, (executeOnFrom p dispatch left n state).1.outcome = (dispatch m before).1 := by
  induction left generalizing n state with
  | zero => exact ⟨n, state, rfl⟩
  | succ left ih =>
    simp only [executeOnFrom]
    split
    · exact ih (n + 1) (dispatch n state).2
    · exact ⟨n, state, rfl⟩

theorem Settings.execute_eq_ok {s : Settings} {command : Command} {names : Nat → String}
    {r : Request} {c : Connection} {result : RunResult}
    (h : (s.execute command names r c).1.outcome = .ok result) :
    ∃ text, readResult text = .ok result := by
  obtain ⟨m, before, hanswer⟩ := executeOnFrom_outcome s.retry
    (fun n c => s.dispatch command (names n) r c) (s.retry.attempts - 1) 0 c
  rw [Settings.execute, executeOn, hanswer] at h
  exact Settings.dispatch_eq_ok h

/-- An execution that does not break off is the one that knows of no clock. -/
theorem Settings.execute_of_executeAt {s : Settings} {command : Command} {names : Nat → String}
    {starts : Nat → Nat} {r : Request} {c c' : Connection} {e : Execution}
    (h : s.executeAt command names starts r c = (.ok e, c')) :
    s.execute command names r c = (e, c') := by
  refine executeCrashingOnFrom_eq_ok s.retry (fun n before answer after hanswer => ?_) h
  rw [Settings.dispatchAt] at hanswer
  split at hanswer
  · cases hanswer
  · cases hanswer
    rfl

/-! ## What is believed -/

/-- What an output is believed to say: nothing but a result whose parts fit together, or that it is
unreadable. The candidates are the whole trimmed text and the lines that open a mapping, the last
one first. The first candidate that is a result as JSON wins, and literals are looked at only where
there is none. -/
structure Believed (text : String) (answer : Outcome RunResult) : Prop where
  candidates : candidatesOf text = String.ofList (Text.trimChars text.toList) ::
    ((text.toList.splitOn '\n').filterMap fun line =>
      mappingLine (Text.trimChars line)).reverse.map String.ofList
  shaped : ∀ r, answer = .ok r → r.WellShaped
  unreadable : ∀ e, answer = .error e → ∃ reason, e = .unreadable reason
  strict : ∀ before c after r, candidatesOf text = before ++ c :: after →
    (∀ b ∈ before, strictResult b = none) → strictResult c = some r → answer = .ok r
  literal : (∀ c ∈ candidatesOf text, strictResult c = none) →
    answer.toOption = (candidatesOf text).findSome? literalResult

theorem believed_readResult (text : String) : Believed text (readResult text) := by
  have hanswer := readResult_toOption text
  refine ⟨candidatesOf_eq text, fun r h => wellShaped_of_readResult h,
    fun e h => readResult_error h, ?_, ?_⟩
  · intro before c after r hcandidates hbefore hc
    have hfirst : (candidatesOf text).findSome? strictResult = some r :=
      List.findSome?_eq_some_iff.mpr ⟨before, c, after, hcandidates, hc, hbefore⟩
    rw [hfirst] at hanswer
    exact eq_ok_of_toOption hanswer
  · intro hnone
    rw [List.findSome?_eq_none_iff.mpr hnone, Option.none_or] at hanswer
    exact hanswer

/-- A capsule that did not end by a timeout, or has no rows. -/
def Capsule.TimedOutEmpty (c : Capsule) : Prop :=
  c.status = .timedOut → ∀ r, c.result = some r → r.rows = [] ∧ r.rowCount = 0

theorem timedOutEmpty_closed {answer : Outcome RunResult}
    (h : ∀ r, answer = .ok r → r.WellShaped) (seconds : Nat) (c : Capsule) (now : Instant) :
    ((Sandbox.verdict seconds answer).closed c now).TimedOutEmpty := by
  intro hstatus r hr
  simp only [Verdict.closed] at hstatus hr
  unfold Sandbox.verdict at hstatus hr
  split at hr
  · rename_i result
    cases hr
    have hshape := h r rfl
    have htimeout : r.status = .timeout := by
      cases hr : r.status <;> simp [hr, Sandbox.statusOf] at hstatus ⊢
    have hrows := hshape.timeout htimeout
    exact ⟨hrows, by rw [hshape.count, hrows, List.length_nil]⟩
  · cases hr
    exact ⟨rfl, rfl⟩
  · cases hr

/-- **What reaches a capsule.** Every output is believed in the same way, and whatever the command
of a backend answers, a capsule that ends by a timeout has no rows. -/
theorem output_believed (text : String) (s : Settings) (command : Command) (names : Nat → String)
    (request : Request) (connection : Connection) (pending : Capsule) (now : Instant) :
    Believed text (readResult text) ∧
      ((Sandbox.verdict request.seconds (s.execute command names request connection).1.outcome).closed
        pending now).TimedOutEmpty := by
  refine ⟨believed_readResult text, timedOutEmpty_closed (fun r hr => ?_) _ _ _⟩
  obtain ⟨output, hread⟩ := Settings.execute_eq_ok hr
  exact wellShaped_of_readResult hread

end Enclave
