import Enclave.Proofs.Record.History
import Enclave.Proofs.Sandbox.Ending

/-!
# A submission step by step

`Sandbox.submit` runs a submission in one go. Where several of them run at once, each goes on by
steps: it creates its capsule, it receives the answer of the backend, it finishes the capsule, and
it tries that a second time. `Sandbox.advance` is one step, and a submission that takes its steps
alone is `Sandbox.submit` (`alone_submit`).

Three things are said of one step over the store in memory. It changes no capsule but its own
(`advance_get?_ne`). What it does is decided by the stage, by the faults and by its own capsule,
apart from the moments that it writes down (`Alike.advance`). And it keeps `Standing`, which says
what the store holds of a run at each stage of its submission.
-/

namespace Enclave

/-! ## Capsules without their moments -/

/-- A capsule with every moment in it replaced by one and the same. -/
def Capsule.undated (c : Capsule) : Capsule :=
  let epoch : Instant := ⟨1970, 1, 1, 0, 0, 0, 0⟩
  { c with
    createdAt := epoch
    startedAt := c.startedAt.map fun _ => epoch
    finishedAt := c.finishedAt.map fun _ => epoch }

theorem Capsule.undated_pending (runId backend : String) (asked : RequestRecord)
    (now now' : Instant) : (Capsule.pending runId backend asked now).undated
      = (Capsule.pending runId backend asked now').undated := rfl

theorem Capsule.runId_eq_of_undated {c d : Capsule} (h : c.undated = d.undated) :
    c.runId = d.runId :=
  show c.undated.runId = d.undated.runId by rw [h]

/-- An end at another moment is the same end. -/
theorem Verdict.undated_closed {c d : Capsule} (h : c.undated = d.undated) (v : Verdict)
    (now now' : Instant) : (v.closed c now).undated = (v.closed d now').undated := by
  simp only [Capsule.undated, Capsule.mk.injEq] at h
  simp only [Capsule.undated, Verdict.closed, h, Option.map_some]

/-- What can be finished at one moment can be finished at another one, to the same end. -/
theorem Capsule.undated_finish {c d : Capsule} (h : c.undated = d.undated) (runId : String)
    (v : Verdict) (now now' : Instant) :
    (c.finish runId v now).map Capsule.undated = (d.finish runId v now').map Capsule.undated := by
  have hstatus : c.status = d.status := show c.undated.status = d.undated.status by rw [h]
  have hclosed := Verdict.undated_closed h v now now'
  cases hc : d.status.isTerminal with
  | true => simp [Capsule.finish, hstatus, hc]
  | false =>
    cases hv : v.status.isTerminal with
    | true =>
      rw [finish_eq_ok (hstatus ▸ hc) hv, finish_eq_ok hc hv]
      exact congrArg Except.ok hclosed
    | false => simp [Capsule.finish, Verdict.apply, hstatus, hc, hv, Except.map]

namespace Sandbox

/-! ## Steps -/

/-- A submission that is handed in, and what it will meet: the name of its run, the answers of the
backend to its dispatches, and the calls of the store that will fail. -/
structure Client where
  sub : Submission
  runId : String
  replies : Nat → Outcome RunResult
  faults : StoreFaults

/-- How far a submission has come. -/
inductive Stage where
  /-- Nothing has been done yet. -/
  | waiting
  /-- The capsule has been created and the request is with the backend. -/
  | running (request : Request) (runId : String)
  /-- The backend has answered. -/
  | closing (requests : List Request) (runId : String) (v : Verdict)
  /-- The capsule could not be finished. -/
  | retrying (requests : List Request) (runId : String) (v : Verdict)
  /-- The caller has an answer; some requests were dispatched. -/
  | done (answer : Outcome Capsule) (requests : List Request)

section Steps

variable {σ : Type} (sb : Sandbox) (ops : StoreOps σ) (c : Client)

/-- The verdict on the run of a submission, by the answers of the backend. -/
def Client.verdict (request : Request) : Verdict :=
  Sandbox.verdict request.seconds (execute sb.retry c.replies).outcome

/-- The stage after the first call that was to finish a capsule, by its answer. -/
def Stage.closed (requests : List Request) (runId : String) (v : Verdict) :
    Outcome Capsule → Stage
  | .ok capsule => .done (.ok capsule) requests
  | .error (.alreadyFinal id) => .done (.error (.alreadyFinal id)) requests
  | .error _ => .retrying requests runId v

/-- One step of a submission at a moment of the clock. -/
def advance (now : Instant) : Stage × σ → Stage × σ
  | (.waiting, store) =>
    match sb.prepare c.sub with
    | .error e => (.done (.error e) [], store)
    | .ok (request, asked) =>
      match ops.create (.pending c.runId sb.backend asked now) store with
      | (.error e, store) => (.done (.error e) [], store)
      | (.ok capsule, store) => (.running request capsule.runId, store)
  | (.running request runId, store) =>
    (.closing (List.replicate (execute sb.retry c.replies).dispatches request) runId
      (c.verdict sb request), store)
  | (.closing requests runId v, store) =>
    let r := ops.finalize runId v now store
    (.closed requests runId v r.1, r.2)
  | (.retrying requests runId v, store) =>
    let r := ops.finalize runId v now store
    (.done r.1 requests, r.2)
  | (.done answer requests, store) => (.done answer requests, store)

/-- The moment of a step of a submission that runs alone: it begins with the first one and ends with
every later one. -/
def RunClock.moment (clock : RunClock) : Nat → Instant
  | 0 => clock.start
  | _ + 1 => clock.finish

/-- A submission after some steps that it took alone. -/
def alone (clock : RunClock) (store : σ) : Nat → Stage × σ
  | 0 => (.waiting, store)
  | n + 1 => advance sb ops c (clock.moment n) (alone clock store n)

/-- A call that failed is final, or there is another one. -/
theorem Stage.closed_error (requests : List Request) (runId : String) (v : Verdict) (e : Failure) :
    Stage.closed requests runId v (.error e) = .done (.error e) requests ∧
        (∃ id, e = .alreadyFinal id) ∨
      Stage.closed requests runId v (.error e) = .retrying requests runId v ∧
        ∀ id, e ≠ .alreadyFinal id := by
  by_cases hfinal : ∃ id, e = .alreadyFinal id
  · obtain ⟨id, rfl⟩ := hfinal
    exact .inl ⟨rfl, id, rfl⟩
  · push Not at hfinal
    refine .inr ⟨?_, hfinal⟩
    unfold Stage.closed
    split
    · contradiction
    · rename_i id heq
      cases heq
      exact absurd rfl (hfinal id)
    · rfl

/-- Finishing a capsule takes one step or two. -/
theorem advance_closing (requests : List Request) (runId : String) (v : Verdict) (now : Instant)
    (store : σ) :
    advance sb ops c now (advance sb ops c now (.closing requests runId v, store))
      = (.done (record ops runId v now store).1 requests, (record ops runId v now store).2) := by
  rcases hfirst : ops.finalize runId v now store with ⟨answer, after⟩
  cases answer with
  | ok capsule => simp only [advance, Stage.closed, record, hfirst]
  | error e =>
    obtain ⟨hstage, id, rfl⟩ | ⟨hstage, hretry⟩ := Stage.closed_error requests runId v e
    · simp only [advance, record, hfirst, hstage]
    · -- A second call follows only where the first one failed and the capsule was not final.
      have hrecord : record ops runId v now store = ops.finalize runId v now after := by
        unfold record
        rw [hfirst]
        split <;> simp_all
      simp only [advance, hfirst, hstage, hrecord]

/-- **Four steps alone are a submission.** -/
theorem alone_submit (clock : RunClock) (hid : clock.runId = c.runId) (store : σ) :
    alone sb ops c clock store 4 =
      let run := sb.submit ops clock c.replies c.sub store
      (.done run.outcome run.requests, run.store) := by
  have hfour : alone sb ops c clock store 4 = advance sb ops c clock.finish
      (advance sb ops c clock.finish (advance sb ops c clock.finish
        (advance sb ops c clock.start (.waiting, store)))) := rfl
  rw [hfour]
  -- A submission that is refused, or finds its run taken, is done after one step, and the other
  -- three are idle.
  cases hprepare : sb.prepare c.sub with
  | error e => simp only [advance, submit, hprepare]
  | ok prepared =>
    obtain ⟨request, asked⟩ := prepared
    rcases hcreate : ops.create (.pending c.runId sb.backend asked clock.start) store
      with ⟨answer, after⟩
    cases answer with
    | error e => simp only [advance, submit, hprepare, hid, hcreate]
    | ok capsule =>
      have hfirst : advance sb ops c clock.start (.waiting, store)
          = (.running request capsule.runId, after) := by
        simp only [advance, hprepare, hcreate]
      have hsecond : advance sb ops c clock.finish (.running request capsule.runId, after)
          = (.closing (List.replicate (execute sb.retry c.replies).dispatches request)
              capsule.runId (c.verdict sb request), after) := rfl
      rw [hfirst, hsecond, advance_closing]
      simp only [submit, hprepare, hid, hcreate, Client.verdict]

/-- A submission that is done stays as it is. -/
theorem alone_of_done {clock : RunClock} {store after : σ} {answer : Outcome Capsule}
    {requests : List Request} {n : Nat}
    (h : alone sb ops c clock store n = (.done answer requests, after)) (k : Nat) :
    alone sb ops c clock store (n + k) = (.done answer requests, after) := by
  induction k with
  | zero => exact h
  | succ k ih =>
    rw [← Nat.add_assoc, alone, ih]
    rfl

/-- After four steps alone a submission has the answer of `submit`, and before that it has it if it
is done. -/
theorem alone_eq_submit (clock : RunClock) (hid : clock.runId = c.runId) (store : σ) {n : Nat}
    (h : 4 ≤ n ∨ ∃ answer requests, (alone sb ops c clock store n).1 = .done answer requests) :
    alone sb ops c clock store n =
      let run := sb.submit ops clock c.replies c.sub store
      (.done run.outcome run.requests, run.store) := by
  have hfour := alone_submit sb ops c clock hid store
  by_cases hn : 4 ≤ n
  · obtain ⟨k, rfl⟩ := Nat.exists_eq_add_of_le hn
    exact alone_of_done sb ops c hfour k
  · obtain ⟨answer, requests, hdone⟩ := h.resolve_left hn
    obtain ⟨k, hk⟩ := Nat.exists_eq_add_of_le (Nat.le_of_not_le hn)
    have hn : alone sb ops c clock store n
        = (.done answer requests, (alone sb ops c clock store n).2) := Prod.ext hdone rfl
    have hlater := alone_of_done sb ops c hn k
    rw [← hk] at hlater
    rw [hn, ← hlater]
    exact hfour

end Steps

/-! ## What a step depends on -/

/-- Outcomes that are the same under a map: they failed alike, or their values are. -/
theorem map_eq_map_cases {α β : Type} {f : α → β} {x y : Outcome α} (h : x.map f = y.map f) :
    (∃ e, x = .error e ∧ y = .error e) ∨ ∃ a b, x = .ok a ∧ y = .ok b ∧ f a = f b := by
  cases x <;> cases y <;> simp_all [Except.map]

/-- Two stores in memory, with the faults that are still to come, that do the same to a run: they
hold the same of it apart from its moments, and the same of its calls will fail. -/
structure SameRun (runId : String) (p q : FaultyMemory) : Prop where
  held : (p.1.get? runId).map Capsule.undated = (q.1.get? runId).map Capsule.undated
  faults : p.2 = q.2

namespace SameRun

theorem refl (runId : String) (p : FaultyMemory) : SameRun runId p p := ⟨rfl, rfl⟩

theorem put {runId : String} {s t : MemoryStore} {c d : Capsule} (h : c.undated = d.undated)
    (faults : StoreFaults) : SameRun runId (s.put runId c, faults) (t.put runId d, faults) where
  held := by rw [MemoryStore.get?_put_self, MemoryStore.get?_put_self, Option.map_some,
    Option.map_some, h]
  faults := rfl

variable {runId : String} {p q : FaultyMemory}

theorem absent (h : SameRun runId p q) (hp : p.1.get? runId = none) : q.1.get? runId = none := by
  have hq := h.held
  rw [hp, Option.map_none] at hq
  exact Option.map_eq_none_iff.mp hq.symm

theorem present (h : SameRun runId p q) {c : Capsule} (hp : p.1.get? runId = some c) :
    ∃ d, q.1.get? runId = some d ∧ c.undated = d.undated := by
  have hq := h.held
  rw [hp, Option.map_some] at hq
  obtain ⟨d, hd, hcd⟩ := Option.map_eq_some_iff.mp hq.symm
  exact ⟨d, hd, hcd.symm⟩

/-- Creating a capsule at two moments does the same. -/
theorem create {c d : Capsule} (hcd : c.undated = d.undated) (h : SameRun c.runId p q) :
    (MemoryStore.ops.faulty.create c p).1.map Capsule.undated
        = (MemoryStore.ops.faulty.create d q).1.map Capsule.undated ∧
      SameRun c.runId (MemoryStore.ops.faulty.create c p).2
        (MemoryStore.ops.faulty.create d q).2 := by
  have hid := Capsule.runId_eq_of_undated hcd
  -- A fault that is due strikes both calls; else the run is there in both stores or in neither.
  rcases hf : nextFault q.2.create with ⟨fault, rest⟩
  cases fault with
  | some e =>
    simp only [StoreOps.faulty, h.faults, hf]
    exact ⟨trivial, h.held, rfl⟩
  | none =>
    simp only [StoreOps.faulty, h.faults, hf]
    cases hp : p.1.get? c.runId with
    | none =>
      have hq : q.1.get? d.runId = none := hid ▸ h.absent hp
      rw [MemoryStore.create_of_absent hp, MemoryStore.create_of_absent hq, ← hid]
      exact ⟨congrArg Except.ok hcd, put hcd _⟩
    | some b =>
      obtain ⟨b', hq, -⟩ := h.present hp
      rw [MemoryStore.create_of_present hp, MemoryStore.create_of_present (hid ▸ hq), ← hid]
      exact ⟨rfl, h.held, rfl⟩

/-- Finishing a capsule at two moments does the same. -/
theorem finalize (h : SameRun runId p q) (v : Verdict) (now now' : Instant) :
    (MemoryStore.ops.faulty.finalize runId v now p).1.map Capsule.undated
        = (MemoryStore.ops.faulty.finalize runId v now' q).1.map Capsule.undated ∧
      SameRun runId (MemoryStore.ops.faulty.finalize runId v now p).2
        (MemoryStore.ops.faulty.finalize runId v now' q).2 := by
  rcases hf : nextFault q.2.finalize with ⟨fault, rest⟩
  cases fault with
  | some e =>
    simp only [StoreOps.faulty, h.faults, hf]
    exact ⟨trivial, h.held, rfl⟩
  | none =>
    simp only [StoreOps.faulty, h.faults, hf]
    cases hp : p.1.get? runId with
    | none =>
      rw [MemoryStore.finalize_of_absent hp, MemoryStore.finalize_of_absent (h.absent hp)]
      exact ⟨rfl, h.held, rfl⟩
    | some c =>
      obtain ⟨d, hq, hcd⟩ := h.present hp
      have hfinish := Capsule.undated_finish hcd runId v now now'
      rw [MemoryStore.finalize_of_present hp, MemoryStore.finalize_of_present hq]
      obtain ⟨e, he, he'⟩ | ⟨c', d', hc', hd', hcd'⟩ := map_eq_map_cases hfinish
      · rw [he, he']
        exact ⟨rfl, h.held, rfl⟩
      · rw [hc', hd']
        exact ⟨congrArg Except.ok hcd', put hcd' _⟩

end SameRun

/-- A submission at two stages that differ in moments only: the stages are the same, answers and
what the store holds of the run apart from their moments, and the calls name this run. -/
inductive Alike (c : Client) : Stage × FaultyMemory → Stage × FaultyMemory → Prop where
  | waiting {p q : FaultyMemory} (h : SameRun c.runId p q) : Alike c (.waiting, p) (.waiting, q)
  | running {p q : FaultyMemory} {request : Request} (h : SameRun c.runId p q) :
      Alike c (.running request c.runId, p) (.running request c.runId, q)
  | closing {p q : FaultyMemory} {requests : List Request} {v : Verdict}
      (h : SameRun c.runId p q) :
      Alike c (.closing requests c.runId v, p) (.closing requests c.runId v, q)
  | retrying {p q : FaultyMemory} {requests : List Request} {v : Verdict}
      (h : SameRun c.runId p q) :
      Alike c (.retrying requests c.runId v, p) (.retrying requests c.runId v, q)
  | done {p q : FaultyMemory} {requests : List Request} {answer answer' : Outcome Capsule}
      (h : SameRun c.runId p q)
      (hanswer : answer.map Capsule.undated = answer'.map Capsule.undated) :
      Alike c (.done answer requests, p) (.done answer' requests, q)

namespace Alike

variable {sb : Sandbox} {c : Client} {x y : Stage × FaultyMemory}

theorem sameRun (h : Alike c x y) : SameRun c.runId x.2 y.2 := by
  cases h <;> assumption

/-- Both submissions are done, with the same requests, or neither is. -/
theorem done_or (h : Alike c x y) :
    (∃ answer answer' requests, x.1 = .done answer requests ∧ y.1 = .done answer' requests ∧
      answer.map Capsule.undated = answer'.map Capsule.undated) ∨
    (∀ answer requests, x.1 ≠ .done answer requests) ∧
      ∀ answer requests, y.1 ≠ .done answer requests := by
  cases h with
  | done _ hanswer => exact .inl ⟨_, _, _, rfl, rfl, hanswer⟩
  | waiting _ => exact .inr ⟨fun _ _ => nofun, fun _ _ => nofun⟩
  | running _ => exact .inr ⟨fun _ _ => nofun, fun _ _ => nofun⟩
  | closing _ => exact .inr ⟨fun _ _ => nofun, fun _ _ => nofun⟩
  | retrying _ => exact .inr ⟨fun _ _ => nofun, fun _ _ => nofun⟩

/-- The first call that was to finish a capsule leads to the same stage. -/
theorem closed {p q : FaultyMemory} {answer answer' : Outcome Capsule} (h : SameRun c.runId p q)
    (hanswer : answer.map Capsule.undated = answer'.map Capsule.undated)
    (requests : List Request) (v : Verdict) :
    Alike c (.closed requests c.runId v answer, p) (.closed requests c.runId v answer', q) := by
  obtain ⟨e, rfl, rfl⟩ | ⟨d, d', rfl, rfl, hd⟩ := map_eq_map_cases hanswer
  · obtain ⟨hstage, -⟩ | ⟨hstage, -⟩ := Stage.closed_error requests c.runId v e
    · rw [hstage]
      exact .done h rfl
    · rw [hstage]
      exact .retrying h
  · exact .done h hanswer

/-- **A step does the same at every moment.** -/
theorem advance (h : Alike c x y) (now now' : Instant) :
    Alike c (sb.advance MemoryStore.ops.faulty c now x)
      (sb.advance MemoryStore.ops.faulty c now' y) := by
  cases h with
  | @waiting p q h =>
    cases hprepare : sb.prepare c.sub with
    | error e =>
      simp only [Sandbox.advance, hprepare]
      exact .done h rfl
    | ok prepared =>
      obtain ⟨request, asked⟩ := prepared
      have hundated := Capsule.undated_pending c.runId sb.backend asked now now'
      obtain ⟨hanswer, hsame⟩ := SameRun.create hundated h
      rcases hp : MemoryStore.ops.faulty.create (.pending c.runId sb.backend asked now) p
        with ⟨answer, p'⟩
      rcases hq : MemoryStore.ops.faulty.create (.pending c.runId sb.backend asked now') q
        with ⟨answer', q'⟩
      rw [hp, hq] at hanswer hsame
      simp only [Sandbox.advance, hprepare, hp, hq]
      obtain ⟨e, rfl, rfl⟩ | ⟨d, d', rfl, rfl, hd⟩ := map_eq_map_cases hanswer
      · exact .done hsame rfl
      · have hid : d.runId = c.runId := MemoryStore.runId_of_create_faulty hp
        simp only [← Capsule.runId_eq_of_undated hd, hid]
        exact .running hsame
  -- The verdict is made of the answers of the backend alone, so no moment gets into it.
  | running h => exact .closing h
  | @closing p q requests v h =>
    obtain ⟨hanswer, hsame⟩ := h.finalize v now now'
    exact closed hsame hanswer requests v
  | @retrying p q requests v h =>
    obtain ⟨hanswer, hsame⟩ := h.finalize v now now'
    exact .done hsame hanswer
  | done h hanswer => exact .done h hanswer

end Alike

/-! ## What a step leaves alone -/

/-- What was held of a run is still held, or has come to its end. -/
def Advances (before after : Option Capsule) : Prop :=
  ∀ c, before = some c → ∃ d, after = some d ∧ c.Follows d

namespace Advances

theorem refl (o : Option Capsule) : Advances o o := fun c hc => ⟨c, hc, .refl c⟩

theorem trans {o p q : Option Capsule} (h : Advances o p) (h' : Advances p q) : Advances o q := by
  intro c hc
  obtain ⟨d, hd, hcd⟩ := h c hc
  obtain ⟨e, he, hde⟩ := h' d hd
  exact ⟨e, he, hcd.trans hde⟩

end Advances

/-- One call of the store at most, about the run of the submission. -/
def OneCall (runId : String) (before after : MemoryStore) : Prop :=
  after = before ∨
    ∃ x : TimedCall, x.call.runId = runId ∧ after = (MemoryStore.ops.answer x before).2

namespace OneCall

variable {runId : String} {before after : MemoryStore}

theorem advances (h : OneCall runId before after) (id : String) :
    Advances (before.get? id) (after.get? id) := by
  obtain rfl | ⟨x, -, rfl⟩ := h
  · exact .refl _
  · exact fun c hc => (MemoryStore.answered x before).follows hc

theorem get?_ne (h : OneCall runId before after) {id : String} (hne : id ≠ runId) :
    after.get? id = before.get? id := by
  obtain rfl | ⟨x, hx, rfl⟩ := h
  · rfl
  · exact (MemoryStore.answered x before).held_ne (hx ▸ hne)

theorem create_faulty (c : Capsule) (p : FaultyMemory) :
    OneCall c.runId p.1 (MemoryStore.ops.faulty.create c p).2.1 := by
  rcases hf : nextFault p.2.create with ⟨fault, rest⟩
  cases fault with
  | some e => exact .inl (by simp only [StoreOps.faulty, hf])
  | none =>
    refine .inr ⟨⟨c.createdAt, .create c⟩, rfl, ?_⟩
    simp only [StoreOps.faulty, hf]
    rfl

theorem finalize_faulty (runId : String) (v : Verdict) (now : Instant) (p : FaultyMemory) :
    OneCall runId p.1 (MemoryStore.ops.faulty.finalize runId v now p).2.1 := by
  rcases hf : nextFault p.2.finalize with ⟨fault, rest⟩
  cases fault with
  | some e => exact .inl (by simp only [StoreOps.faulty, hf])
  | none =>
    refine .inr ⟨⟨now, .finalize runId v⟩, rfl, ?_⟩
    simp only [StoreOps.faulty, hf]
    rfl

end OneCall

/-- A step makes one call of the store at most, about its own run. -/
theorem Alike.oneCall {sb : Sandbox} {c : Client} {x y : Stage × FaultyMemory} (h : Alike c x y)
    (now : Instant) :
    OneCall c.runId x.2.1 (sb.advance MemoryStore.ops.faulty c now x).2.1 := by
  cases h with
  | @waiting p q h =>
    cases hprepare : sb.prepare c.sub with
    | error e =>
      simp only [Sandbox.advance, hprepare]
      exact .inl rfl
    | ok prepared =>
      obtain ⟨request, asked⟩ := prepared
      have hcall := OneCall.create_faulty (.pending c.runId sb.backend asked now) p
      simp only [Sandbox.advance, hprepare]
      split <;> rename_i hcreate <;> rwa [hcreate] at hcall
  | running h => exact .inl rfl
  | @closing p q requests v h => exact .finalize_faulty c.runId v now p
  | @retrying p q requests v h => exact .finalize_faulty c.runId v now p
  | done h hanswer => exact .inl rfl

/-! ## What is held of a run at each stage -/

/-- What a store holds of a run at each stage of its submission, if it held `origin` at first. A
capsule is created where there was none, and is there as it was created until it is finished with
the verdict on the run. -/
inductive Standing (sb : Sandbox) (c : Client) (origin : Option Capsule) :
    Stage → Option Capsule → Prop where
  | waiting : Standing sb c origin .waiting origin
  | refused (e : Failure) : Standing sb c origin (.done (.error e) []) origin
  | running {request : Request} {asked : RequestRecord} (hnew : origin = none)
      (hprepared : sb.prepare c.sub = .ok (request, asked)) (created : Instant) :
      Standing sb c origin (.running request c.runId)
        (some (.pending c.runId sb.backend asked created))
  | closing {request : Request} {asked : RequestRecord} (hnew : origin = none)
      (hprepared : sb.prepare c.sub = .ok (request, asked)) (created : Instant)
      (requests : List Request) :
      Standing sb c origin (.closing requests c.runId (c.verdict sb request))
        (some (.pending c.runId sb.backend asked created))
  | retrying {request : Request} {asked : RequestRecord} (hnew : origin = none)
      (hprepared : sb.prepare c.sub = .ok (request, asked)) (created : Instant)
      (requests : List Request) :
      Standing sb c origin (.retrying requests c.runId (c.verdict sb request))
        (some (.pending c.runId sb.backend asked created))
  | unfinished {request : Request} {asked : RequestRecord} (hnew : origin = none)
      (hprepared : sb.prepare c.sub = .ok (request, asked)) (created : Instant)
      (requests : List Request) (e : Failure) :
      Standing sb c origin (.done (.error e) requests)
        (some (.pending c.runId sb.backend asked created))
  | finished {request : Request} {asked : RequestRecord} (hnew : origin = none)
      (hprepared : sb.prepare c.sub = .ok (request, asked)) (created finished : Instant)
      (requests : List Request) :
      Standing sb c origin
        (.done (.ok ((c.verdict sb request).closed
          (.pending c.runId sb.backend asked created) finished)) requests)
        (some ((c.verdict sb request).closed (.pending c.runId sb.backend asked created) finished))

namespace Standing

variable {sb : Sandbox} {c : Client} {origin : Option Capsule}

theorem advance_waiting {s : MemoryStore} {faults : StoreFaults} (h : s.get? c.runId = origin)
    (now : Instant) :
    let x := sb.advance MemoryStore.ops.faulty c now (.waiting, s, faults)
    Standing sb c origin x.1 (x.2.1.get? c.runId) := by
  cases hprepare : sb.prepare c.sub with
  | error e =>
    simp only [Sandbox.advance, hprepare, h]
    exact .refused e
  | ok prepared =>
    obtain ⟨request, asked⟩ := prepared
    simp only [Sandbox.advance, hprepare]
    obtain ⟨e, rest, hcreate⟩ | ⟨rest, hcreate, hnew⟩ :=
      MemoryStore.create_faulty (.pending c.runId sb.backend asked now) s faults
    · simp only [hcreate, h]
      exact .refused e
    · simp only [hcreate, Capsule.pending_runId, MemoryStore.get?_put_self]
      exact .running (h.symm.trans hnew) hprepare now

/-- A call that is to finish a pending capsule fails and leaves it pending, or it is the end. -/
theorem finalize {asked : RequestRecord} {created : Instant} {s : MemoryStore}
    (h : s.get? c.runId = some (.pending c.runId sb.backend asked created)) (request : Request)
    (now : Instant) (faults : StoreFaults) :
    (∃ e rest, MemoryStore.ops.faulty.finalize c.runId (c.verdict sb request) now (s, faults)
      = (.error e, s, rest)) ∨
    ∃ final rest, MemoryStore.ops.faulty.finalize c.runId (c.verdict sb request) now (s, faults)
        = (.ok final, s.put c.runId final, rest) ∧
      final = (c.verdict sb request).closed (.pending c.runId sb.backend asked created) now := by
  obtain hfault | ⟨rest, hclosed⟩ :=
    MemoryStore.finalize_faulty h rfl (verdict_isTerminal _ _) now faults
  · exact .inl hfault
  · exact .inr ⟨_, rest, hclosed, rfl⟩

/-- **A step keeps to what a stage says of the store.** -/
theorem advance {stage : Stage} {p : FaultyMemory}
    (h : Standing sb c origin stage (p.1.get? c.runId)) (now : Instant) :
    let x := sb.advance MemoryStore.ops.faulty c now (stage, p)
    Standing sb c origin x.1 (x.2.1.get? c.runId) := by
  obtain ⟨s, faults⟩ := p
  change Standing sb c origin stage (s.get? c.runId) at h
  intro x
  -- What is held is an index of `Standing`: it has to be a variable before the stages are split.
  generalize hheld : s.get? c.runId = held at h
  cases h with
  | waiting => exact advance_waiting hheld now
  | refused e =>
    change Standing sb c origin _ (s.get? c.runId)
    exact hheld.symm ▸ .refused e
  | running hnew hprepared created =>
    change Standing sb c origin (.closing _ _ _) (s.get? c.runId)
    exact hheld.symm ▸ .closing hnew hprepared created _
  | @closing request asked hnew hprepared created requests =>
    obtain ⟨e, rest, hanswer⟩ | ⟨_, rest, hanswer, rfl⟩ := finalize hheld request now faults
    · simp only [x, Sandbox.advance, hanswer, hheld]
      obtain ⟨hstage, -⟩ | ⟨hstage, -⟩ :=
        Stage.closed_error requests c.runId (c.verdict sb request) e
      · rw [hstage]
        exact .unfinished hnew hprepared created requests e
      · rw [hstage]
        exact .retrying hnew hprepared created requests
    · simp only [x, Sandbox.advance, hanswer, MemoryStore.get?_put_self]
      exact .finished hnew hprepared created now requests
  | @retrying request asked hnew hprepared created requests =>
    obtain ⟨e, rest, hanswer⟩ | ⟨_, rest, hanswer, rfl⟩ := finalize hheld request now faults
    · simp only [x, Sandbox.advance, hanswer, hheld]
      exact .unfinished hnew hprepared created requests e
    · simp only [x, Sandbox.advance, hanswer, MemoryStore.get?_put_self]
      exact .finished hnew hprepared created now requests
  | unfinished hnew hprepared created requests e =>
    change Standing sb c origin _ (s.get? c.runId)
    exact hheld.symm ▸ .unfinished hnew hprepared created requests e
  | finished hnew hprepared created finished requests =>
    change Standing sb c origin _ (s.get? c.runId)
    exact hheld.symm ▸ .finished hnew hprepared created finished requests

end Standing

end Sandbox

end Enclave
