import Enclave.Proofs.Sandbox.Dispatch
import Enclave.Proofs.Record.Store
import Enclave.Proofs.Run.Output
import Enclave.Proofs.Json.Variant

/-!
# Where the error of a capsule comes from

A capsule that was answered is a capsule closed by its verdict (`StoreOps.Obeys`), and the verdict
is made of the last answer of the backend. A failure of the backend has a wording, and so has a run
that exceeded its time. What may lack one is a result: a document that only says that the run ended
in an error is a result too. `unexplained_iff` says that this is the one way to a failed capsule
without a reason, and `error_of_resultOfValue` says which documents have none.
-/

namespace Enclave

open Json (Value Doc Scope)

variable {σ α : Type}

/-! ## Closed by a verdict -/

/-- A store that closes a capsule with the verdict that it is given. -/
def StoreOps.Obeys (ops : StoreOps σ) : Prop :=
  ∀ (runId : String) (v : Verdict) (now : Instant) (store after : σ) (c : Capsule),
    ops.finalize runId v now store = (.ok c, after) → ∃ b, c = v.closed b now

theorem Capsule.eq_closed_of_finish {b c : Capsule} {runId : String} {v : Verdict} {now : Instant}
    (h : b.finish runId v now = .ok c) : c = v.closed b now := by
  unfold Capsule.finish Verdict.apply at h
  split at h
  · cases h
  split at h
  · cases h
  · cases h
    rfl

theorem MemoryStore.obeys : MemoryStore.ops.Obeys := by
  intro runId v now store after c h
  have h := committed_eq_ok h
  unfold MemoryStore.finalize at h
  split at h
  · cases h
  · rename_i b hb
    obtain ⟨d, hd, hc⟩ := map_eq_ok.mp h
    cases hc
    exact ⟨b, Capsule.eq_closed_of_finish hd⟩

theorem DirectoryStore.obeys : DirectoryStore.ops.Obeys := by
  intro runId v now store after c h
  obtain ⟨name, -, h⟩ := bind_eq_ok.mp (committed_eq_ok h)
  obtain ⟨b, -, h⟩ := bind_eq_ok.mp h
  obtain ⟨d, hd, h⟩ := bind_eq_ok.mp h
  cases pure_eq_ok.mp h
  exact ⟨b, Capsule.eq_closed_of_finish hd⟩

theorem Store.obeys : Store.ops.Obeys := by
  intro runId v now store after c h
  cases store with
  | memory s => exact MemoryStore.obeys runId v now s _ c (Prod.ext (Prod.ext_iff.mp h).1 rfl)
  | directory s => exact DirectoryStore.obeys runId v now s _ c (Prod.ext (Prod.ext_iff.mp h).1 rfl)

/-- Calls that fail in front of a store close nothing. -/
theorem StoreOps.Obeys.faulty {ops : StoreOps σ} (hops : ops.Obeys) : ops.faulty.Obeys := by
  intro runId v now store after c h
  simp only [StoreOps.faulty] at h
  split at h
  · cases h
  · exact hops runId v now store.1 _ c (Prod.ext (Prod.ext_iff.mp h).1 rfl)

namespace Sandbox

variable {sb : Sandbox} {ops : StoreOps σ} {clock : RunClock} {replies : Nat → Outcome RunResult}
  {sub : Submission} {store : σ} {c : Capsule}

theorem record_closed (hops : ops.Obeys) {runId : String} {v : Verdict} {now : Instant} {after : σ}
    (h : record ops runId v now store = (.ok c, after)) : ∃ b, c = v.closed b now := by
  obtain ⟨answer, last, hfirst, hrecord, -⟩ | ⟨e, between, answer, last, -, hsecond, hrecord, -⟩ :=
    record_cases ops runId v now store []
  · rw [hrecord, ← hfirst] at h
    exact hops _ _ _ _ _ _ h
  · rw [hrecord, ← hsecond] at h
    exact hops _ _ _ _ _ _ h

/-- What a submission did that is answered with a capsule: the prepared request was dispatched, and
the capsule was closed by the verdict on the last answer of the backend. -/
theorem submit_eq_ok (hops : ops.Obeys)
    (h : (sb.submit ops clock replies sub store).outcome = .ok c) :
    ∃ request asked b, sb.prepare sub = .ok (request, asked) ∧
      request ∈ (sb.submit ops clock replies sub store).requests ∧
      c = (verdict request.seconds
        (replies ((sb.submit ops clock replies sub store).requests.length - 1))).closed b
          clock.finish := by
  obtain ⟨e, hrun⟩ | ⟨request, asked, hprepare, ⟨e, after, -, hrun⟩ | ⟨d, between, -, hrun⟩⟩ :=
    submit_cases sb ops clock replies sub store
  · rw [hrun] at h
    cases h
  · rw [hrun] at h
    cases h
  · rw [hrun] at h ⊢
    simp only [List.length_replicate, ← execute_outcome]
    obtain ⟨b, hc⟩ := record_closed hops (Prod.ext h rfl)
    have hpositive := (execute_dispatches sb.retry replies).positive
    exact ⟨request, asked, b, hprepare, List.mem_replicate.mpr ⟨hpositive.ne', rfl⟩, hc⟩

/-- The capsule that is answered was closed by the verdict on the last answer of the backend. -/
theorem submit_closed (hops : ops.Obeys)
    (h : (sb.submit ops clock replies sub store).outcome = .ok c) :
    ∃ seconds b, c = (verdict seconds
      (replies ((sb.submit ops clock replies sub store).requests.length - 1))).closed b
        clock.finish := by
  obtain ⟨request, -, b, -, -, hc⟩ := submit_eq_ok hops h
  exact ⟨request.seconds, b, hc⟩

/-- A verdict without a reason is that on a result without one. -/
theorem verdict_unexplained_iff (seconds : Nat) (answer : Outcome RunResult) :
    ((verdict seconds answer).status = .failed ∨ (verdict seconds answer).status = .timedOut) ∧
        (verdict seconds answer).error = none ↔
      ∃ r, answer = .ok r ∧ r.status ≠ .success ∧ r.error = none := by
  cases answer with
  | ok r =>
    simp only [verdict, Except.ok.injEq, exists_eq_left']
    cases r.status <;> simp [statusOf]
  | error e => cases e <;> simp [verdict]

end Sandbox

/-! ## Results without a reason -/

theorem RunResult.error_kept {s : Scope} {j : String} {step : RunResult → Json.Decoder RunResult}
    {d : Doc} {r r' : RunResult} (hj : j ≠ "error") (hset : shape.set j = some step)
    (hstep : step r s d = .ok r') : r'.error = r.error := by
  simp only [shape] at hset
  split at hset
  case h_8 => exact absurd rfl hj
  case h_10 => cases hset
  all_goals
    cases hset
    obtain ⟨b, -, rfl⟩ := map_eq_ok.mp hstep
    rfl

theorem RunResult.error_of_checkShape {r r' : RunResult} (h : r.checkShape = .ok r') :
    r'.error = r.error := by
  unfold checkShape at h
  split at h
  · cases h
  split at h
  · split at h <;> cases h
    rfl
  · cases h
    rfl
  · cases h
    rfl

/-- The error of a result is the text in the member of its document. -/
theorem error_of_resultOfValue {v : Value} {r : RunResult} (h : resultOfValue v = .ok r)
    (t : String) : r.error = some t ↔ v.canonical.get? "error" = some (.str t) := by
  unfold resultOfValue at h
  split at h
  · cases h
  rename_i hstatus
  split at h
  · cases h
  rename_i r' hdecode
  split at h
  · rename_i hshape
    cases h
    rw [RunResult.error_of_checkShape hshape]
    cases v with
    | obj kvs =>
      obtain ⟨hnone, hsome⟩ := Json.RecordShape.decode_member rfl (fun _ _ => rfl)
        (fun _ _ _ _ _ => RunResult.error_kept) hdecode
      rw [Value.canonical, Value.get?]
      cases hlookup : (Value.canonicalFields kvs).lookup "error" with
      | none => simp [hnone hlookup, RunResult.shape]
      | some w =>
        have herror := hsome w hlookup
        cases w with
        | null => simp [← Except.ok.inj herror]
        | str u => simp [← Except.ok.inj herror]
        | _ => cases herror
    | _ => exact absurd rfl hstatus
  · cases h

/-! ## Capsules without a reason -/

/-- A capsule of a run that ended badly and does not say why. -/
def Capsule.Unexplained (c : Capsule) : Prop :=
  (c.status = .failed ∨ c.status = .timedOut) ∧ c.error = none

/-- **A capsule lacks a reason only where a result did.** Whatever is submitted, and whatever store
of the two it is recorded in, a capsule that is answered as failed or timed out has an error text
unless the last answer of the backend was a result with a bad end and no error text. The error text
of a result that was found in an output is the text in the member of the document that was found. -/
theorem unexplained_iff (sb : Sandbox) (clock : Sandbox.RunClock)
    (replies : Nat → Outcome RunResult) (sub : Submission) (store : Store) (faults : StoreFaults) :
    let run := sb.submit Store.ops.faulty clock replies sub (store, faults)
    (∀ c, run.outcome = .ok c → (c.Unexplained ↔
      ∃ r, replies (run.requests.length - 1) = .ok r ∧ r.status ≠ .success ∧ r.error = none)) ∧
    ∀ (text : String) (r : RunResult), readResult text = .ok r → ∃ v, resultOfValue v = .ok r ∧
      (∃ candidate, Value.parse candidate = .ok v ∨ Script.Literal.read candidate = .ok v) ∧
      ∀ t, r.error = some t ↔ v.canonical.get? "error" = some (.str t) := by
  intro run
  constructor
  · intro c h
    obtain ⟨seconds, b, hc⟩ := Sandbox.submit_closed Store.obeys.faulty h
    rw [hc]
    exact Sandbox.verdict_unexplained_iff seconds _
  · intro text r h
    obtain ⟨v, hv, hcandidate⟩ := resultOfValue_of_readResult h
    exact ⟨v, hv, hcandidate, error_of_resultOfValue hv⟩

/-- A statement that counts rows. -/
def countTickets : RawQuery := ⟨.sql, "SELECT count(*) FROM tickets"⟩

/-- A run of it over a store in memory, the backend always printing the same text. -/
def runPrinting (text : String) : Sandbox.Submitted (Store × StoreFaults) :=
  Sandbox.ticketSandbox.submit Store.ops.faulty Sandbox.ticketClock (fun _ => readResult text)
    (Sandbox.ticketQuery countTickets) (.memory .empty, .none)

/-- A document that says no more than that a run ended in an error. -/
def bareError : String := "\x7b\"status\": \"error\"\x7d"

/-- A document that says why it did. -/
def spokenError : String := "\x7b\"error\": \"no such table\", \"status\": \"error\"\x7d"

theorem unexplained_iff_spokenError :
    (∃ c, (runPrinting spokenError).outcome = .ok c ∧ ¬c.Unexplained) ∧
    ∃ v, v.canonical.get? "error" = some (.str "no such table") ∧
      (∃ candidate, Value.parse candidate = .ok v ∨ Script.Literal.read candidate = .ok v) := by
  obtain ⟨c, hc, -⟩ := exists_of_any (p := fun _ => true)
    (show (runPrinting spokenError).outcome.toOption.any _ = true by decide +kernel)
  obtain ⟨r, hr, herror⟩ := exists_of_any
    (p := fun r : RunResult => r.error == some "no such table")
    (show (readResult spokenError).toOption.any _ = true by decide +kernel)
  have herror : r.error = some "no such table" := by simpa using herror
  obtain ⟨hunexplained, hread⟩ := unexplained_iff Sandbox.ticketSandbox Sandbox.ticketClock
    (fun _ => readResult spokenError) (Sandbox.ticketQuery countTickets) (.memory .empty) .none
  constructor
  · refine ⟨c, hc, fun h => ?_⟩
    obtain ⟨r', hr', -, hnone⟩ := (hunexplained c hc).mp h
    rw [hr] at hr'
    cases hr'
    rw [herror] at hnone
    cases hnone
  · obtain ⟨v, -, hcandidate, htext⟩ := hread spokenError r hr
    exact ⟨v, (htext _).mp herror, hcandidate⟩

/-- A document that only says that a run ended in an error leaves a failed capsule without a
reason. -/
theorem bareError_unexplained : ∃ c, (runPrinting bareError).outcome = .ok c ∧
    c.status = .failed ∧ c.error = none := by
  obtain ⟨c, hc, hfailed⟩ := exists_of_any
    (p := fun c : Capsule => decide (c.status = .failed ∧ c.error = none))
    (show (runPrinting bareError).outcome.toOption.any _ = true by decide +kernel)
  exact ⟨c, hc, of_decide_eq_true hfailed⟩

end Enclave
