import Enclave.Proofs.Sandbox.Steps

/-!
# Submissions that run at once

Any number of submissions share one store in memory. Their steps come in any order, and between them
runs are looked up. As the names of the runs differ, no step touches the capsule of another run, so
each submission goes on as if it were alone. `interleaved_independent` says this of every order of
events; it follows from one invariant, `Apart`, which every event keeps.
-/

namespace Enclave.Sandbox

/-! ## Events -/

/-- What happens next: a submission takes a step at a moment of the clock, or a run is looked up. -/
inductive Event (ι : Type) where
  | step (i : ι) (now : Instant)
  | get (runId : String)

/-- What was seen when a run was looked up. -/
structure Sight where
  runId : String
  answer : Outcome (Option Capsule)

/-- Submissions over one store: how far each of them has come, which of its calls of the store will
fail, and what was seen of runs so far. -/
structure System (ι : Type) where
  store : MemoryStore
  stage : ι → Stage
  faults : ι → StoreFaults
  sights : List Sight

variable {ι : Type}

namespace System

/-- What a submission goes on with. -/
def own (y : System ι) (i : ι) : Stage × FaultyMemory := (y.stage i, y.store, y.faults i)

variable (sb : Sandbox) (clients : ι → Client) (store : MemoryStore)

/-- Nothing has happened yet. -/
def start : System ι := ⟨store, fun _ => .waiting, fun i => (clients i).faults, []⟩

variable [DecidableEq ι]

/-- The system after one more event. -/
def next (y : System ι) : Event ι → System ι
  | .step i now =>
    let x := sb.advance MemoryStore.ops.faulty (clients i) now (y.own i)
    { y with
      store := x.2.1
      stage := Function.update y.stage i x.1
      faults := Function.update y.faults i x.2.2 }
  | .get runId => { y with sights := y.sights ++ [⟨runId, (find MemoryStore.ops runId y.store).1⟩] }

/-- The system after some events. -/
def after (events : List (Event ι)) : System ι :=
  events.foldl (next sb clients) (start clients store)

theorem after_snoc (events : List (Event ι)) (e : Event ι) :
    after sb clients store (events ++ [e]) = next sb clients (after sb clients store events) e :=
  List.foldl_concat ..

variable {sb clients}

theorem own_next_self (y : System ι) (i : ι) (now : Instant) :
    (next sb clients y (.step i now)).own i
      = sb.advance MemoryStore.ops.faulty (clients i) now (y.own i) := by
  simp only [own, next, Function.update_self]

theorem own_next_ne (y : System ι) {i j : ι} (h : j ≠ i) (now : Instant) :
    (next sb clients y (.step i now)).own j
      = (y.stage j, (next sb clients y (.step i now)).store, y.faults j) := by
  simp only [own, next, Function.update_of_ne h]

end System

/-- The number of steps that a submission has taken. -/
def stepsOf [DecidableEq ι] (i : ι) : List (Event ι) → Nat :=
  List.countP fun
    | .step j _ => j = i
    | .get _ => false

/-! ## What can be seen -/

/-- What can be seen of the run of a submission: what there was before it, or, if there was nothing,
its capsule as it was created or as the verdict on the run finished it. -/
inductive Form (sb : Sandbox) (c : Client) (origin : Option Capsule) : Option Capsule → Prop where
  | before : Form sb c origin origin
  | pending {request : Request} {asked : RequestRecord} (hnew : origin = none)
      (hprepared : sb.prepare c.sub = .ok (request, asked)) (created : Instant) :
      Form sb c origin (some (.pending c.runId sb.backend asked created))
  | final {request : Request} {asked : RequestRecord} (hnew : origin = none)
      (hprepared : sb.prepare c.sub = .ok (request, asked)) (created finished : Instant) :
      Form sb c origin
        (some ((c.verdict sb request).closed (.pending c.runId sb.backend asked created) finished))

theorem Standing.form {sb : Sandbox} {c : Client} {origin held : Option Capsule} {stage : Stage}
    (h : Standing sb c origin stage held) : Form sb c origin held := by
  cases h with
  | waiting => exact .before
  | refused _ => exact .before
  | running hnew hprepared created => exact .pending hnew hprepared created
  | closing hnew hprepared created _ => exact .pending hnew hprepared created
  | retrying hnew hprepared created _ => exact .pending hnew hprepared created
  | unfinished hnew hprepared created _ _ => exact .pending hnew hprepared created
  | finished hnew hprepared created finished _ => exact .final hnew hprepared created finished

/-- What can be seen of a run: of that of a submission one of its forms, and of any other one what
there was at first. -/
structure Visible (sb : Sandbox) (clients : ι → Client) (store : MemoryStore) (runId : String)
    (found : Option Capsule) : Prop where
  submitted : ∀ i, runId = (clients i).runId → Form sb (clients i) (store.get? runId) found
  foreign : (∀ i, runId ≠ (clients i).runId) → found = store.get? runId

/-- What was seen of a run earlier has not been taken back later. -/
def Sight.Precedes (a b : Sight) : Prop :=
  a.runId = b.runId → ∀ o p, a.answer = .ok o → b.answer = .ok p → Advances o p

theorem find_memory (runId : String) (s : MemoryStore) :
    find MemoryStore.ops runId s = (.ok (s.get? runId), s) := by
  cases h : s.get? runId <;> simp [find, MemoryStore.ops, MemoryStore.get, h]

/-! ## The invariant -/

section Invariant

variable {sb : Sandbox} {clients : ι → Client} {store : MemoryStore} {clock : RunClock}
  {y : System ι} {steps : ι → Nat}

/-- Submissions that do not meet: each one is as it would be after as many steps alone, and the
store holds of each run what its stage says. -/
structure Apart (sb : Sandbox) (clients : ι → Client) (store : MemoryStore) (clock : RunClock)
    (y : System ι) (steps : ι → Nat) : Prop where
  alike : ∀ i, Alike (clients i) (y.own i)
    (alone sb MemoryStore.ops.faulty (clients i) clock (store, (clients i).faults) (steps i))
  standing : ∀ i, Standing sb (clients i) (store.get? (clients i).runId) (y.stage i)
    (y.store.get? (clients i).runId)
  foreign : ∀ runId, (∀ i, runId ≠ (clients i).runId) → y.store.get? runId = store.get? runId
  sights : ∀ x ∈ y.sights, ∃ found, x.answer = .ok found ∧
    Visible sb clients store x.runId found ∧ Advances found (y.store.get? x.runId)
  forward : y.sights.Pairwise Sight.Precedes

/-- A store that holds the same of a run is as good for its submission. -/
theorem Alike.of_get?_eq {c : Client} {stage : Stage} {s t : MemoryStore} {faults : StoreFaults}
    {x : Stage × FaultyMemory} (h : Alike c (stage, s, faults) x)
    (ht : t.get? c.runId = s.get? c.runId) : Alike c (stage, t, faults) x := by
  have hsame {q : FaultyMemory} (h : SameRun c.runId (s, faults) q) :
      SameRun c.runId (t, faults) q := ⟨ht ▸ h.held, h.faults⟩
  cases h with
  | waiting h => exact .waiting (hsame h)
  | running h => exact .running (hsame h)
  | closing h => exact .closing (hsame h)
  | retrying h => exact .retrying (hsame h)
  | done h hanswer => exact .done (hsame h) hanswer

namespace Apart

theorem start : Apart sb clients store clock (.start clients store) fun _ => 0 where
  alike _ := .waiting (.refl _ _)
  standing _ := .waiting
  foreign _ _ := rfl
  sights _ hx := (List.not_mem_nil hx).elim
  forward := List.Pairwise.nil

/-- What the store holds of a run can be seen. -/
theorem visible (h : Apart sb clients store clock y steps) (runId : String) :
    Visible sb clients store runId (y.store.get? runId) where
  submitted i hi := hi ▸ (h.standing i).form
  foreign := h.foreign runId

variable [DecidableEq ι]

/-- A run that is looked up shows what the store holds. -/
theorem get (h : Apart sb clients store clock y steps) (runId : String) :
    Apart sb clients store clock (y.next sb clients (.get runId)) steps := by
  simp only [System.next, find_memory]
  -- The state grows by one sight, which shows what is held now; earlier ones have advanced to that.
  refine ⟨h.alike, h.standing, h.foreign, ?_, ?_⟩
  · intro x hx
    rcases List.mem_append.mp hx with hx | hx
    · exact h.sights x hx
    · rw [List.mem_singleton.mp hx]
      exact ⟨_, rfl, h.visible runId, .refl _⟩
  · rw [List.pairwise_append]
    refine ⟨h.forward, List.pairwise_singleton _ _, ?_⟩
    rintro a ha b hb hid o p ho hp
    obtain rfl := List.mem_singleton.mp hb
    obtain ⟨found, hfound, -, hadvances⟩ := h.sights a ha
    cases ho.symm.trans hfound
    cases hp
    rwa [hid] at hadvances

/-- A step calls the store once at most, about the run of its submission. -/
theorem oneCall (h : Apart sb clients store clock y steps) (i : ι) (now : Instant) :
    OneCall (clients i).runId y.store (y.next sb clients (.step i now)).store :=
  (h.alike i).oneCall now

/-- **A step of one submission keeps all of them apart.** -/
theorem step (h : Apart sb clients store clock y steps)
    (hids : Function.Injective fun i => (clients i).runId) (i : ι) (now : Instant) :
    Apart sb clients store clock (y.next sb clients (.step i now))
      (Function.update steps i (steps i + 1)) := by
  have hcall := h.oneCall i now
  -- The ids are different, so the one call of the store is about the run of no other submission.
  have hother {j : ι} (hj : j ≠ i) : (clients j).runId ≠ (clients i).runId :=
    fun hid => hj (hids hid)
  constructor
  case alike =>
    intro j
    by_cases hj : j = i
    · subst hj
      rw [System.own_next_self, Function.update_self]
      exact (h.alike j).advance now _
    · rw [System.own_next_ne y hj, Function.update_of_ne hj]
      exact (h.alike j).of_get?_eq (hcall.get?_ne (hother hj))
  case standing =>
    intro j
    by_cases hj : j = i
    · subst hj
      have hstage := (h.standing j).advance (p := (y.store, y.faults j)) now
      simpa only [System.next, System.own, Function.update_self] using hstage
    · rw [hcall.get?_ne (hother hj)]
      simpa only [System.next, Function.update_of_ne hj] using h.standing j
  case foreign =>
    intro runId hrun
    rw [hcall.get?_ne (hrun i), h.foreign runId hrun]
  case sights =>
    intro x hx
    obtain ⟨found, hfound, hvisible, hadvances⟩ := h.sights x hx
    exact ⟨found, hfound, hvisible, hadvances.trans (hcall.advances x.runId)⟩
  case forward => exact h.forward

end Apart

/-- **Submissions stay apart**, whatever the order of their steps is. -/
theorem apart_after [DecidableEq ι] (sb : Sandbox)
    (hids : Function.Injective fun i => (clients i).runId) (store : MemoryStore) (clock : RunClock)
    (events : List (Event ι)) :
    Apart sb clients store clock (.after sb clients store events) fun i => stepsOf i events := by
  -- The last event acts on what the others have led to, so the induction takes it off the end.
  induction events using List.reverseRecOn with
  | nil => exact .start
  | append_singleton events e ih =>
    rw [System.after_snoc]
    cases e with
    | get runId =>
      have hsteps : (fun i => stepsOf i (events ++ [.get runId])) = fun i => stepsOf i events := by
        funext i
        simp [stepsOf]
      rw [hsteps]
      exact ih.get runId
    | step i now =>
      have hsteps : (fun j => stepsOf j (events ++ [.step i now]))
          = Function.update (fun j => stepsOf j events) i (stepsOf i events + 1) := by
        funext j
        by_cases hj : j = i
        · subst hj
          simp [stepsOf]
        · simp [stepsOf, hj, Ne.symm hj]
      rw [hsteps]
      exact ih.step hids i now

end Invariant

/-! ## Any order is as good as none -/

variable [DecidableEq ι]

/-- Submissions that do not depend on one another after some events. -/
structure Independent (sb : Sandbox) (clients : ι → Client) (store : MemoryStore)
    (events : List (Event ι)) : Prop where
  /-- Four steps of its own bring a submission to its end. -/
  ends : ∀ i, 4 ≤ stepsOf i events → ∃ answer requests,
    (System.after sb clients store events).stage i = .done answer requests
  /-- A submission that came to its end dispatched what it dispatches alone, and its answer and its
  capsule are those of the submission alone, apart from the moments in them. -/
  alone : ∀ i answer requests,
    (System.after sb clients store events).stage i = .done answer requests →
    ∀ clock : RunClock, clock.runId = (clients i).runId →
      let run := sb.submit MemoryStore.ops.faulty clock (clients i).replies (clients i).sub
        (store, (clients i).faults)
      answer.map Capsule.undated = run.outcome.map Capsule.undated ∧ requests = run.requests ∧
        ((System.after sb clients store events).store.get? (clients i).runId).map Capsule.undated
          = (run.store.1.get? (clients i).runId).map Capsule.undated
  /-- A step of one submission changes the capsule of no other run. -/
  untouched : ∀ i now runId, runId ≠ (clients i).runId →
    (System.after sb clients store (events ++ [.step i now])).store.get? runId
      = (System.after sb clients store events).store.get? runId
  /-- Whoever looks a run up sees that it is absent, or its capsule pending as it was created, or
  its capsule as the verdict on the run finished it. -/
  sights : ∀ x ∈ (System.after sb clients store events).sights, ∃ found, x.answer = .ok found ∧
    Visible sb clients store x.runId found
  /-- What was seen is not taken back. -/
  forward : (System.after sb clients store events).sights.Pairwise Sight.Precedes

/-- **Submissions with different run ids are independent** over one store in memory, whatever the
order of their steps is and whenever runs are looked up. -/
theorem interleaved_independent (sb : Sandbox) (clients : ι → Client)
    (hids : Function.Injective fun i => (clients i).runId) (store : MemoryStore)
    (events : List (Event ι)) : Independent sb clients store events := by
  have hapart (clock : RunClock) := apart_after sb hids store clock events
  -- What does not compare with a submission alone holds for any clock.
  have anyClock : RunClock := ⟨"", ⟨1970, 1, 1, 0, 0, 0, 0⟩, ⟨1970, 1, 1, 0, 0, 0, 0⟩⟩
  constructor
  case ends =>
    intro i hsteps
    have halike := (hapart { anyClock with runId := (clients i).runId }).alike i
    rw [alone_eq_submit _ _ _ _ rfl _ (.inl hsteps)] at halike
    obtain ⟨answer, _, requests, hdone, -, -⟩ | ⟨-, hnot⟩ := halike.done_or
    · exact ⟨answer, requests, hdone⟩
    · exact absurd rfl (hnot _ _)
  case alone =>
    intro i answer requests hdone clock hid
    have halike := (hapart clock).alike i
    obtain ⟨_, answer', _, hown, halone, hanswer⟩ | ⟨hnot, -⟩ := halike.done_or
    · cases hown.symm.trans hdone
      have hsubmit := alone_eq_submit sb MemoryStore.ops.faulty (clients i) clock hid
        (store, (clients i).faults) (.inr ⟨answer', requests, halone⟩)
      rw [hsubmit] at halike halone
      cases halone
      exact ⟨hanswer, rfl, halike.sameRun.held⟩
    · exact absurd hdone (hnot _ _)
  case untouched =>
    intro i now runId hne
    rw [System.after_snoc]
    exact ((hapart anyClock).oneCall i now).get?_ne hne
  case sights =>
    intro x hx
    obtain ⟨found, hfound, hvisible, -⟩ := (hapart anyClock).sights x hx
    exact ⟨found, hfound, hvisible⟩
  case forward => exact (hapart anyClock).forward

/-- Two runs of one submission: the backend of the first has nothing to run it with, and the second
has a result that cannot be written down at once. -/
def ticketClients : Bool → Client
  | false =>
    { sub := ticketSubmission
      runId := "7c0e1c58-5f1c-4d3e-9a55-0f4c6a1c9b11"
      replies := fun _ => .error .noInterpreter
      faults := .none }
  | true =>
    { sub := ticketSubmission
      runId := "b6d1f0a2-8c34-4e7b-9f10-2d5a7e6c3b90"
      replies := fun _ => .ok (.success ["id"] [[.int 7]] 3)
      faults := ⟨[], [some (.io "no space left on device")], []⟩ }

/-- An order of their steps in which each of them stands still while the other one goes on. -/
def ticketEvents : List (Event Bool) :=
  let second (n : Nat) : Instant := ⟨2024, 1, 1, 0, 0, n, 0⟩
  let first := (ticketClients false).runId
  let other := (ticketClients true).runId
  [.get first, .step false (second 0), .get first, .step true (second 1), .step true (second 2),
    .step true (second 3), .get other, .step false (second 4), .step false (second 5), .get first,
    .step true (second 6), .step false (second 7), .get other]

theorem interleaved_independent_tickets :
    (Function.Injective fun i => (ticketClients i).runId) ∧
      Independent ticketSandbox ticketClients .empty ticketEvents ∧
      ∀ i, ∃ answer requests,
        (System.after ticketSandbox ticketClients .empty ticketEvents).stage i
          = .done answer requests := by
  have hids : Function.Injective fun i => (ticketClients i).runId := by
    intro i j hid
    revert i j
    decide
  have hindependent :=
    interleaved_independent ticketSandbox ticketClients hids .empty ticketEvents
  exact ⟨hids, hindependent, fun i => hindependent.ends i (by revert i; decide)⟩

end Enclave.Sandbox
