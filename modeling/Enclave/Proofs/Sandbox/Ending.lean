import Enclave.Proofs.Record.Store
import Enclave.Proofs.Sandbox.Dispatch

/-!
# How a submission ends

One submission over the store in memory, with calls of the store failing in any pattern in front of
it. There are two ways to end. `Finished` is a run whose caller has the finished capsule that is in
the store; `Unfinished` is a failure that left either nothing at all, or one pending capsule whose
request was executed and which no call of `finalize` reached. `submitMemory_ended` says that there
is no third way and that the capsules of other runs stay what they are.
-/

namespace Enclave.Sandbox

/-- The status in which a run ends, by the last answer of the backend. -/
def endStatus : Outcome RunResult → CapsuleStatus
  | .ok r => statusOf r.status
  | .error (.timedOut _) => .timedOut
  | .error _ => .failed

theorem verdict_status (seconds : Nat) (answer : Outcome RunResult) :
    (verdict seconds answer).status = endStatus answer := by
  unfold verdict endStatus
  split <;> simp_all

/-- Every verdict on a run is an end. -/
theorem verdict_isTerminal (seconds : Nat) (answer : Outcome RunResult) :
    (verdict seconds answer).status.isTerminal = true := by
  rw [verdict_status]
  unfold endStatus
  split
  · rename_i r
    cases r.status <;> rfl
  · rfl
  · rfl

/-- A store in memory between submissions, and the calls of it that will fail. -/
abbrev FaultyMemory : Type := MemoryStore × StoreFaults

/-- What a submission did: its answer, its requests, the store it left and the calls of it. -/
abbrev MemoryRun : Type := Submitted (FaultyMemory × List StoreEvent)

/-- A submission over the store in memory some of whose calls fail, with a trace of the calls. -/
def submitMemory (sb : Sandbox) (clock : RunClock) (replies : Nat → Outcome RunResult)
    (sub : Submission) (store : MemoryStore) (faults : StoreFaults) : MemoryRun :=
  sb.submit MemoryStore.ops.faulty.traced clock replies sub ((store, faults), [])

/-- The store that a submission left. -/
def memoryAfter (run : MemoryRun) : MemoryStore := run.store.1.1

/-- The request was dispatched as often as one execution with its retries takes. -/
def ExecutedOnce (sb : Sandbox) (replies : Nat → Outcome RunResult) (run : MemoryRun) : Prop :=
  OneExecution sb.retry replies run.requests.length ∧
    ∃ request, run.requests = List.replicate run.requests.length request

/-- A run with a capsule for the caller: it is the one capsule that was created, it is in the store
under its name, and its status is the end that the last answer of the backend calls for. -/
structure Finished (sb : Sandbox) (clock : RunClock) (replies : Nat → Outcome RunResult)
    (store : MemoryStore) (run : MemoryRun) (c : Capsule) : Prop where
  created : ∃ asked, StoreEvent.created run.store.2
    = [.pending clock.runId sb.backend asked clock.start]
  fresh : store.get? clock.runId = none
  name : c.runId = clock.runId
  stored : (memoryAfter run).get? c.runId = some c
  terminal : c.status.isTerminal = true
  executed : ExecutedOnce sb replies run
  status : c.status = endStatus (replies (run.requests.length - 1))

/-- A run that ended in a failure after its capsule was created: the capsule is as it was created,
and each of the one or two calls that were to finish it failed. -/
structure Unfinished (sb : Sandbox) (clock : RunClock) (replies : Nat → Outcome RunResult)
    (store : MemoryStore) (run : MemoryRun) : Prop where
  pending : ∃ asked,
    StoreEvent.created run.store.2 = [.pending clock.runId sb.backend asked clock.start] ∧
      (memoryAfter run).get? clock.runId = some (.pending clock.runId sb.backend asked clock.start)
  fresh : store.get? clock.runId = none
  executed : ExecutedOnce sb replies run
  calls : (StoreEvent.finalized run.store.2).length = 1 ∨
    (StoreEvent.finalized run.store.2).length = 2
  failed : ∀ answer ∈ StoreEvent.finalized run.store.2, ∃ e, answer = .error e

/-- A run that left nothing: no capsule was created and nothing was dispatched. -/
structure Untouched (store : MemoryStore) (run : MemoryRun) : Prop where
  created : StoreEvent.created run.store.2 = []
  requests : run.requests = []
  store : memoryAfter run = store

/-- How a run ends: an answer to the caller is the finished capsule, a failure left nothing or one
pending capsule, and the capsules of other runs are what they were. -/
structure Ended (sb : Sandbox) (clock : RunClock) (replies : Nat → Outcome RunResult)
    (store : MemoryStore) (run : MemoryRun) : Prop where
  answered : ∀ c, run.outcome = .ok c → Finished sb clock replies store run c
  failed : ∀ e, run.outcome = .error e →
    Untouched store run ∨ Unfinished sb clock replies store run
  others : ∀ runId, runId ≠ clock.runId → (memoryAfter run).get? runId = store.get? runId

/-! ## One pending capsule and its verdict -/

/-- Finishing a pending capsule over a store that may fail: the answer is the closed capsule and the
store holds it, or every call failed and the store is as it was. -/
theorem record_faulty {c : Capsule} {v : Verdict} {store : MemoryStore}
    (hstore : store.get? c.runId = some c) (hc : c.status = .pending)
    (hv : v.status.isTerminal = true) (now : Instant) (faults : StoreFaults)
    (es : List StoreEvent) :
    ∃ es' rest, StoreEvent.created es' = [] ∧
      ((record MemoryStore.ops.faulty.traced c.runId v now ((store, faults), es)
          = (.ok (v.closed c now), (store.put c.runId (v.closed c now), rest), es ++ es')) ∨
      ∃ e, record MemoryStore.ops.faulty.traced c.runId v now ((store, faults), es)
          = (.error e, (store, rest), es ++ es') ∧
        ((StoreEvent.finalized es').length = 1 ∨ (StoreEvent.finalized es').length = 2) ∧
        ∀ answer ∈ StoreEvent.finalized es', ∃ e, answer = .error e) := by
  obtain ⟨answer, ⟨after, rest⟩, hfirst, -, htr⟩ | ⟨e, ⟨between, rest⟩, answer, ⟨after, rest'⟩,
    hfirst, hsecond, -, htr⟩ := record_cases MemoryStore.ops.faulty c.runId v now (store, faults) es
  · refine ⟨[.finalize c.runId v answer], rest, rfl, ?_⟩
    obtain ⟨e, _, hfault⟩ | ⟨_, hclosed⟩ := MemoryStore.finalize_faulty hstore hc hv now faults
    · cases hfirst.symm.trans hfault
      exact .inr ⟨e, htr, .inl rfl, by simp [StoreEvent.finalized]⟩
    · cases hfirst.symm.trans hclosed
      exact .inl htr
  · refine ⟨[.finalize c.runId v (.error e), .finalize c.runId v answer], rest', rfl, ?_⟩
    obtain ⟨_, _, hfault⟩ | ⟨_, hclosed⟩ := MemoryStore.finalize_faulty hstore hc hv now faults
    · cases hfirst.symm.trans hfault
      -- The first call left the store alone, so the second one meets the same pending capsule.
      obtain ⟨e', _, hfault⟩ | ⟨_, hclosed⟩ := MemoryStore.finalize_faulty hstore hc hv now rest
      · cases hsecond.symm.trans hfault
        exact .inr ⟨e', htr, .inr rfl, by simp [StoreEvent.finalized]⟩
      · cases hsecond.symm.trans hclosed
        exact .inl htr
    · cases hfirst.symm.trans hclosed

theorem executedOnce_replicate {sb : Sandbox} {replies : Nat → Outcome RunResult} {run : MemoryRun}
    {request : Request}
    (h : run.requests = List.replicate (execute sb.retry replies).dispatches request) :
    ExecutedOnce sb replies run := by
  have hlength : run.requests.length = (execute sb.retry replies).dispatches := by
    rw [h, List.length_replicate]
  refine ⟨hlength ▸ execute_dispatches sb.retry replies, request, ?_⟩
  rw [hlength]
  exact h

section Endings

variable (sb : Sandbox) (clock : RunClock) (replies : Nat → Outcome RunResult)
  {store : MemoryStore} (asked : RequestRecord) (request : Request) (rest : StoreFaults)
  {es : List StoreEvent}

/-- A failure before a capsule is created leaves nothing. -/
theorem ended_untouched (e : Failure) (hes : StoreEvent.created es = []) :
    Ended sb clock replies store ⟨.error e, [], ((store, rest), es)⟩ where
  answered _ h := by cases h
  failed _ _ := .inl ⟨hes, rfl, rfl⟩
  others _ _ := rfl

/-- A capsule that was closed is the answer, and it is what the store holds. -/
theorem ended_finished (hfresh : store.get? clock.runId = none)
    (hes : StoreEvent.created es = [.pending clock.runId sb.backend asked clock.start]) :
    let pending := Capsule.pending clock.runId sb.backend asked clock.start
    let last := verdict request.seconds (execute sb.retry replies).outcome
    let c := last.closed pending clock.finish
    Ended sb clock replies store
      ⟨.ok c, List.replicate (execute sb.retry replies).dispatches request,
        (((store.put clock.runId pending).put clock.runId c, rest), es)⟩ where
  answered d hd := by
    cases hd
    refine ⟨⟨asked, hes⟩, hfresh, rfl, MemoryStore.get?_put_self _ _ _, ?_,
      executedOnce_replicate rfl, ?_⟩
    · exact verdict_isTerminal _ _
    · rw [List.length_replicate, ← execute_outcome sb.retry replies]
      exact verdict_status _ _
  failed _ h := by cases h
  others runId h := by
    rw [memoryAfter, MemoryStore.get?_put_ne h, MemoryStore.get?_put_ne h]

/-- A capsule that no call could close is pending in the store. -/
theorem ended_unfinished (e : Failure) (hfresh : store.get? clock.runId = none)
    (hes : StoreEvent.created es = [.pending clock.runId sb.backend asked clock.start])
    (hcalls : (StoreEvent.finalized es).length = 1 ∨ (StoreEvent.finalized es).length = 2)
    (hfailed : ∀ answer ∈ StoreEvent.finalized es, ∃ e, answer = .error e) :
    let pending := Capsule.pending clock.runId sb.backend asked clock.start
    Ended sb clock replies store
      ⟨.error e, List.replicate (execute sb.retry replies).dispatches request,
        ((store.put clock.runId pending, rest), es)⟩ where
  answered _ h := by cases h
  failed _ _ := .inr ⟨⟨asked, hes, MemoryStore.get?_put_self _ _ _⟩, hfresh,
    executedOnce_replicate rfl, hcalls, hfailed⟩
  others runId h := by rw [memoryAfter, MemoryStore.get?_put_ne h]

end Endings

/-- **A submission ends finished, untouched or pending.** Whatever the backend answers and whichever
calls of the store fail, an answer to the caller is the finished capsule in the store, a failure
leaves nothing or one pending capsule that was executed once, and no other run is touched. -/
theorem submitMemory_ended (sb : Sandbox) (clock : RunClock) (replies : Nat → Outcome RunResult)
    (sub : Submission) (store : MemoryStore) (faults : StoreFaults) :
    Ended sb clock replies store (submitMemory sb clock replies sub store faults) := by
  unfold submitMemory
  obtain ⟨e, hrun⟩ | ⟨request, asked, -, hcreate⟩ :=
    submit_cases sb MemoryStore.ops.faulty.traced clock replies sub ((store, faults), [])
  · rw [hrun]
    exact ended_untouched sb clock replies faults e rfl
  rw [StoreOps.traced_create] at hcreate
  obtain ⟨e, rest, hfault⟩ | ⟨rest, hmade, hfresh⟩ := MemoryStore.create_faulty
    (.pending clock.runId sb.backend asked clock.start) store faults
  · rw [hfault] at hcreate
    obtain ⟨e, after, hafter, hrun⟩ | ⟨c, between, hbetween, -⟩ := hcreate
    · cases hafter
      rw [hrun]
      exact ended_untouched sb clock replies rest e rfl
    · cases hbetween
  · rw [hmade] at hcreate
    obtain ⟨e, after, hafter, -⟩ | ⟨c, between, hbetween, hrun⟩ := hcreate
    · cases hafter
    cases hbetween
    rw [hrun]
    simp only [Capsule.pending_runId]
    -- The capsule is in the store and pending, so only its verdict can change it.
    have hstored := MemoryStore.get?_put_self store clock.runId
      (.pending clock.runId sb.backend asked clock.start)
    obtain ⟨es', rest', hes', hclosed | ⟨e, hopen, hcalls, hfailed⟩⟩ := record_faulty
      (c := .pending clock.runId sb.backend asked clock.start) hstored rfl
      (verdict_isTerminal request.seconds (execute sb.retry replies).outcome) clock.finish rest
      ([] ++ [.create (.pending clock.runId sb.backend asked clock.start)
        (.ok (.pending clock.runId sb.backend asked clock.start))])
    · rw [Capsule.pending_runId] at hclosed
      simp only [hclosed]
      refine ended_finished sb clock replies asked request rest' hfresh ?_
      rw [StoreEvent.created_append, hes']
      rfl
    · rw [Capsule.pending_runId] at hopen
      simp only [hopen]
      refine ended_unfinished sb clock replies asked request rest' e hfresh ?_ ?_ ?_
      · rw [StoreEvent.created_append, hes']
        rfl
      · rwa [StoreEvent.finalized_append]
      · rwa [StoreEvent.finalized_append]

end Enclave.Sandbox
