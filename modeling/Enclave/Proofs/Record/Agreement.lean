import Enclave.Proofs.Record.Directory

/-!
# Two stores that are given the same calls

A store in memory and a store in a directory take the same calls, each at its own moment, and the
directory is opened anew now and then (`Turn`). Both answer as a store may, so it is enough that
what they hold stays alike: the same capsules, but for the moments at which they were finished.
`Answered.alike` is one step of this, and `stores_agree` a whole run.
-/

namespace Enclave

/-! ## Alike -/

/-- The same capsule but for the moment at which it was finished. -/
structure Capsule.Alike (c d : Capsule) : Prop where
  rest : { c with finishedAt := none } = { d with finishedAt := none }
  finished : c.finishedAt.isSome = d.finishedAt.isSome

theorem Capsule.Alike.refl (c : Capsule) : c.Alike c := ⟨rfl, rfl⟩

theorem Capsule.Alike.status {c d : Capsule} (h : c.Alike d) : c.status = d.status :=
  (Capsule.mk.inj h.rest).2.2.2.2.2.2.1

theorem Capsule.Alike.closed {c d : Capsule} (h : c.Alike d) (v : Verdict) (now now' : Instant) :
    (v.closed c now).Alike (v.closed d now') := by
  obtain ⟨hid, hbackend, hrequest, hcreated, hstarted, _⟩ := Capsule.mk.inj h.rest
  refine ⟨?_, rfl⟩
  simp only [Verdict.closed, hid, hbackend, hrequest, hcreated, hstarted]

/-- The same answer: capsules that are alike, or one failure. -/
inductive AnswersAlike : Outcome Capsule → Outcome Capsule → Prop where
  | ok {c d : Capsule} (h : c.Alike d) : AnswersAlike (.ok c) (.ok d)
  | error (e : Failure) : AnswersAlike (.error e) (.error e)

/-- One call that was answered alike. -/
inductive EventsAlike : StoreEvent → StoreEvent → Prop where
  | of (call : StoreCall) {a b : Outcome Capsule} (h : AnswersAlike a b) :
      EventsAlike (call.event a) (call.event b)

/-- Stores that hold the same capsules but for the moments at which they were finished. -/
def HeldAlike (held kept : String → Option Capsule) : Prop :=
  ∀ runId, Option.Rel Capsule.Alike (held runId) (kept runId)

namespace HeldAlike

variable {held kept : String → Option Capsule}

theorem none_right (h : HeldAlike held kept) {runId : String} (hnone : held runId = none) :
    kept runId = none := by
  have hrel := h runId
  rw [hnone] at hrel
  cases hk : kept runId with
  | none => rfl
  | some d => rw [hk] at hrel; cases hrel

theorem some_right (h : HeldAlike held kept) {runId : String} {c : Capsule}
    (hsome : held runId = some c) : ∃ d, kept runId = some d ∧ c.Alike d := by
  have hrel := h runId
  rw [hsome] at hrel
  cases hk : kept runId with
  | none => rw [hk] at hrel; cases hrel
  | some d =>
    rw [hk] at hrel
    cases hrel with
    | some hcd => exact ⟨d, rfl, hcd⟩

theorem update (h : HeldAlike held kept) (runId : String) {c d : Capsule} (hcd : c.Alike d) :
    HeldAlike (Function.update held runId (some c)) (Function.update kept runId (some d)) := by
  intro id
  rw [Function.update_apply, Function.update_apply]
  split
  · exact .some hcd
  · exact h id

end HeldAlike

/-! ## One call -/

theorem Refusal.unique {held : String → Option Capsule} {call : StoreCall} {e e' : Failure}
    (h : Refusal held call e) (h' : Refusal held call e') : e = e' := by
  cases h <;> cases h' <;> simp_all

section Step

variable {held held' kept kept' : String → Option Capsule} {x : TimedCall} {a b : Outcome Capsule}

/-- Where there is a reason to refuse a call, it is refused. -/
theorem Answered.eq_of_refusal {e : Failure} (h : Answered held x a held')
    (hr : Refusal held x.call e) : a = .error e ∧ held' = held := by
  cases h with
  | refused hr' => exact ⟨by rw [hr.unique hr'], rfl⟩
  | created hcall hnew => rw [hcall] at hr; cases hr; simp_all
  | finished hcall _ _ _ => rw [hcall] at hr; cases hr <;> simp_all
  | found hcall _ => rw [hcall] at hr; cases hr; simp_all

/-- What a store answers is settled by what it holds. -/
theorem Answered.unique {held'' : String → Option Capsule} (h : Answered held x a held')
    (h' : Answered held x b held'') : a = b ∧ held' = held'' := by
  cases h' with
  | refused hr => exact h.eq_of_refusal hr
  | created hcall hnew =>
    cases h with
    | refused hr => exact ((Answered.created hcall hnew).eq_of_refusal hr).imp .symm .symm
    | _ => simp_all
  | finished hcall hheld hc hv =>
    cases h with
    | refused hr => exact ((Answered.finished hcall hheld hc hv).eq_of_refusal hr).imp .symm .symm
    | _ => simp_all
  | found hcall hheld =>
    cases h with
    | refused hr => exact ((Answered.found hcall hheld).eq_of_refusal hr).imp .symm .symm
    | _ => simp_all

/-- The reason for a refusal does not depend on when capsules were finished. -/
theorem Refusal.alike {call : StoreCall} {e : Failure} (h : Refusal held call e)
    (halike : HeldAlike held kept) : Refusal kept call e := by
  cases h with
  | duplicate h =>
    obtain ⟨d, hd, _⟩ := halike.some_right h
    exact .duplicate hd
  | unknown h => exact .unknown (halike.none_right h)
  | final h hc =>
    obtain ⟨d, hd, hcd⟩ := halike.some_right h
    exact .final hd (hcd.status ▸ hc)
  | noEnd h hc hv =>
    obtain ⟨d, hd, hcd⟩ := halike.some_right h
    exact .noEnd hd (hcd.status ▸ hc) hv
  | missing h => exact .missing (halike.none_right h)

/-- **Stores that hold alike answer a call alike and still hold alike**, each at its own moment. -/
theorem Answered.alike {call : StoreCall} {now now' : Instant}
    (h : Answered held ⟨now, call⟩ a held') (h' : Answered kept ⟨now', call⟩ b kept')
    (halike : HeldAlike held kept) : AnswersAlike a b ∧ HeldAlike held' kept' := by
  cases h with
  | refused hr =>
    obtain ⟨rfl, rfl⟩ := h'.eq_of_refusal (hr.alike halike)
    exact ⟨.error _, halike⟩
  | @created c hcall hnew =>
    cases hcall
    obtain ⟨rfl, rfl⟩ := h'.unique (.created rfl (halike.none_right hnew))
    exact ⟨.ok (.refl c), halike.update _ (.refl c)⟩
  | @finished runId v c hcall hheld hpending hv =>
    cases hcall
    obtain ⟨d, hd, hcd⟩ := halike.some_right hheld
    obtain ⟨rfl, rfl⟩ := h'.unique (.finished rfl hd (hcd.status ▸ hpending) hv)
    exact ⟨.ok (hcd.closed v _ _), halike.update _ (hcd.closed v _ _)⟩
  | @found runId c hcall hheld =>
    cases hcall
    obtain ⟨d, hd, hcd⟩ := halike.some_right hheld
    obtain ⟨rfl, rfl⟩ := h'.unique (.found rfl hd)
    exact ⟨.ok hcd, halike⟩

/-- What is pending after a call was held before it, or is what the call created. -/
theorem Answered.pending (h : Answered held x a held') {runId : String} {c : Capsule}
    (hc : held' runId = some c) (hpending : c.status.isTerminal = false) :
    held runId = some c ∨ x.call = .create c ∧ c.runId = runId := by
  cases h with
  | refused _ => exact .inl hc
  | found _ _ => exact .inl hc
  | created hcall _ =>
    rw [Function.update_apply] at hc
    split at hc
    case isTrue hid =>
      cases hc
      exact .inr ⟨hcall, hid.symm⟩
    case isFalse => exact .inl hc
  | finished _ _ _ hv =>
    rw [Function.update_apply] at hc
    split at hc
    case isTrue hid =>
      -- What is finished is not pending.
      cases hc
      exact absurd hpending (by simp [Verdict.closed, hv])
    case isFalse => exact .inl hc

end Step

/-! ## Whole runs -/

/-- What happens to the two stores: a call at the two moments at which they take it, or the
directory is opened anew. -/
inductive Turn where
  | call (call : StoreCall) (memoryNow directoryNow : Instant)
  | reopen

namespace Turn

/-- The calls that both stores take. -/
def calls (ts : List Turn) : List StoreCall :=
  ts.filterMap fun
    | .call asked _ _ => some asked
    | .reopen => none

/-- The history of the store in memory. -/
def memoryHistory (ts : List Turn) : List TimedCall :=
  ts.filterMap fun
    | .call asked now _ => some ⟨now, asked⟩
    | .reopen => none

@[simp]
theorem memoryHistory_append (ts ts' : List Turn) :
    memoryHistory (ts ++ ts') = memoryHistory ts ++ memoryHistory ts' := List.filterMap_append

@[simp]
theorem calls_append (ts ts' : List Turn) : calls (ts ++ ts') = calls ts ++ calls ts' :=
  List.filterMap_append

theorem mem_calls {ts : List Turn} {asked : StoreCall} {now now' : Instant}
    (h : .call asked now now' ∈ ts) : asked ∈ calls ts := List.mem_filterMap.mpr ⟨_, h, rfl⟩

end Turn

namespace DirectoryStore

/-- A directory after a turn, and the events so far. -/
def turn (s : DirectoryStore × List StoreEvent) : Turn → DirectoryStore × List StoreEvent
  | .call call _ now => (ops.traced.answer ⟨now, call⟩ s).2
  | .reopen => (s.1.reopened, s.2)

/-- An empty directory after some turns, and its events. -/
def run (ts : List Turn) : DirectoryStore × List StoreEvent := ts.foldl turn (empty, [])

theorem run_snoc (ts : List Turn) (t : Turn) : run (ts ++ [t]) = turn (run ts) t := by
  simp [run]

end DirectoryStore

/-- The calls of these turns name runs in the usual form, and what is written reads back. -/
structure Turn.Plain (ts : List Turn) : Prop where
  names : ∀ call ∈ calls ts, RunId.IsHyphenated call.runId
  created : ∀ c, .create c ∈ calls ts → c.SurvivesJson
  closed : ∀ c v now now', .create c ∈ calls ts → .call (.finalize c.runId v) now now' ∈ ts →
    c.status.isTerminal = false → v.status.isTerminal = true → (v.closed c now').SurvivesJson

theorem Turn.Plain.of_prefix {ts ts' : List Turn} (h : Turn.Plain ts') (hle : ts <+: ts') :
    Turn.Plain ts := by
  have hcalls : ∀ asked ∈ calls ts, asked ∈ calls ts' := (hle.filterMap _).subset
  exact ⟨fun asked ha => h.names asked (hcalls asked ha), fun c hc => h.created c (hcalls _ hc),
    fun c v now now' hc hv => h.closed c v now now' (hcalls _ hc) (hle.subset hv)⟩

/-- What both stores hold after some turns. -/
structure Linked (ts : List Turn) (kept : String → Option Capsule) : Prop where
  keeps : (DirectoryStore.run ts).1.Keeps kept
    ((StoreEvent.created (DirectoryStore.run ts).2).map Capsule.runId)
  alike : HeldAlike (MemoryStore.store (Turn.memoryHistory ts)).get? kept
  events : List.Forall₂ EventsAlike (MemoryStore.events (Turn.memoryHistory ts))
    (DirectoryStore.run ts).2
  /-- What is pending stands as it was created. -/
  pending : ∀ runId c, kept runId = some c → c.status.isTerminal = false →
    c.runId = runId ∧ .create c ∈ Turn.calls ts

namespace Linked

variable {ts : List Turn} {kept : String → Option Capsule}

theorem nil : Linked [] fun _ => none :=
  ⟨.empty, fun _ => .none, .nil, fun _ _ h => by cases h⟩

theorem reopen (h : Linked ts kept) : Linked (ts ++ [.reopen]) kept := by
  have hmemory : Turn.memoryHistory (ts ++ [.reopen]) = Turn.memoryHistory ts := by
    rw [Turn.memoryHistory_append]
    exact List.append_nil _
  have hcalls : Turn.calls (ts ++ [.reopen]) = Turn.calls ts := by
    rw [Turn.calls_append]
    exact List.append_nil _
  constructor
  · rw [DirectoryStore.run_snoc]
    exact h.keeps
  · rw [hmemory]
    exact h.alike
  · rw [hmemory, DirectoryStore.run_snoc]
    exact h.events
  · rw [hcalls]
    exact h.pending

/-- A call leaves the stores linked. -/
theorem call (h : Linked ts kept) {asked : StoreCall} {now now' : Instant}
    (hplain : Turn.Plain (ts ++ [.call asked now now'])) :
    ∃ kept', Linked (ts ++ [.call asked now now']) kept' := by
  have hmem : Turn.call asked now now' ∈ ts ++ [.call asked now now'] := by simp
  have hcalls : ∀ d ∈ Turn.calls ts, d ∈ Turn.calls (ts ++ [.call asked now now']) := fun d hd => by
    rw [Turn.calls_append]
    exact List.mem_append_left _ hd
  -- A capsule that may be finished now was created by one of the calls, as it still is.
  have hclosed : ∀ runId v c, asked = .finalize runId v → kept runId = some c →
      c.status.isTerminal = false → v.status.isTerminal = true →
      (v.closed c now').SurvivesJson := by
    rintro runId v c rfl hc hpending hv
    obtain ⟨rfl, hcreate⟩ := h.pending runId c hc hpending
    exact hplain.closed c v now now' (hcalls _ hcreate) hmem hpending hv
  obtain ⟨kept', hdirectory, hkeeps⟩ := h.keeps.answered ⟨now', asked⟩
    (hplain.names asked (Turn.mem_calls hmem))
    (fun c hc => hplain.created c (hc ▸ Turn.mem_calls hmem)) hclosed
  obtain ⟨hanswers, halike⟩ :=
    (MemoryStore.answered ⟨now, asked⟩ (MemoryStore.store (Turn.memoryHistory ts))).alike
      hdirectory h.alike
  have hmemory : Turn.memoryHistory (ts ++ [.call asked now now'])
      = Turn.memoryHistory ts ++ [⟨now, asked⟩] := Turn.memoryHistory_append _ _
  have hrun : DirectoryStore.run (ts ++ [.call asked now now'])
      = ((DirectoryStore.ops.answer ⟨now', asked⟩ (DirectoryStore.run ts).1).2,
        (DirectoryStore.run ts).2 ++
          [asked.event (DirectoryStore.ops.answer ⟨now', asked⟩ (DirectoryStore.run ts).1).1]) := by
    rw [DirectoryStore.run_snoc, DirectoryStore.turn, StoreOps.traced_answer]
  refine ⟨kept', ?_, ?_, ?_, fun runId c hc hpending => ?_⟩
  · rw [hrun, StoreEvent.created_append, List.map_append]
    exact hkeeps
  · rw [hmemory, MemoryStore.store_append]
    exact halike
  · rw [hmemory, MemoryStore.events_snoc, hrun]
    exact List.rel_append h.events (.cons (.of asked hanswers) .nil)
  · rcases hdirectory.pending hc hpending with hheld | ⟨hcreate, hid⟩
    · exact (h.pending runId c hheld hpending).imp_right (hcalls _)
    · exact ⟨hid, hcreate ▸ Turn.mem_calls hmem⟩

end Linked

/-- The stores are linked after any turns. -/
theorem Turn.Plain.linked {ts : List Turn} (h : Turn.Plain ts) : ∃ kept, Linked ts kept := by
  induction ts using List.reverseRecOn with
  | nil => exact ⟨_, .nil⟩
  | append_singleton ts t ih =>
    obtain ⟨kept, hlinked⟩ := ih (h.of_prefix (List.prefix_append ts [t]))
    cases t with
    | call asked now now' => exact hlinked.call h
    | reopen => exact ⟨kept, hlinked.reopen⟩

/-- Calls that were answered alike created capsules of the same runs. -/
theorem created_runId_of_alike {es es' : List StoreEvent} (h : List.Forall₂ EventsAlike es es') :
    (StoreEvent.created es).map Capsule.runId = (StoreEvent.created es').map Capsule.runId := by
  have hone : ∀ e e', EventsAlike e e' →
      (StoreEvent.created [e]).map Capsule.runId = (StoreEvent.created [e']).map Capsule.runId := by
    rintro _ _ ⟨asked, hanswers⟩
    cases hanswers with
    | error e => rfl
    | ok hcd =>
      have hid := (Capsule.mk.inj hcd.rest).1
      cases asked <;> simp [StoreCall.event, StoreEvent.created, hid]
  induction h with
  | nil => rfl
  | @cons e e' es es' he _ ih =>
    rw [← List.singleton_append, ← List.singleton_append (l := es'), StoreEvent.created_append,
      StoreEvent.created_append, List.map_append, List.map_append, hone e e' he, ih]

/-- What is seen of the two stores after some turns. -/
structure Agreement (ts : List Turn) : Prop where
  /-- Every call was answered alike. -/
  events : List.Forall₂ EventsAlike (MemoryStore.events (Turn.memoryHistory ts))
    (DirectoryStore.run ts).2
  /-- The directory has the files of the runs that were created, and no others. -/
  files : (DirectoryStore.run ts).1.names
    = (StoreEvent.created (DirectoryStore.run ts).2).map fun c => c.runId ++ ".json"
  /-- No two files have the same name. -/
  once : (DirectoryStore.run ts).1.names.Nodup

theorem Linked.agreement {ts : List Turn} {kept : String → Option Capsule} (h : Linked ts kept) :
    Agreement ts where
  events := h.events
  files := by
    rw [h.keeps.names, List.map_map]
    rfl
  once := by
    rw [h.keeps.names, ← created_runId_of_alike h.events]
    exact (MemoryStore.records _).createdOnce.map DirectoryStore.filed_injective

/-- **A store in memory and a store in a directory agree** on every call, however often the
directory is opened anew, and at every moment the directory has one file for each run. -/
theorem stores_agree {ts : List Turn} (h : Turn.Plain ts) {before : List Turn}
    (hbefore : before <+: ts) : Agreement before := by
  obtain ⟨_, hlinked⟩ := (h.of_prefix hbefore).linked
  exact hlinked.agreement

/-- A run that is created, finished after the directory was opened anew, and found. -/
def reopenedTurns : List Turn :=
  [.call (.create .waiting) ⟨2024, 1, 1, 0, 0, 0, 0⟩ ⟨2024, 1, 1, 0, 0, 0, 0⟩, .reopen,
    .call (.finalize Capsule.waiting.runId ⟨.failed, none, some "no such table"⟩)
      ⟨2024, 1, 1, 0, 0, 1, 0⟩ ⟨2024, 1, 1, 0, 0, 2, 0⟩,
    .call (.get Capsule.waiting.runId) ⟨2024, 1, 1, 0, 0, 3, 0⟩ ⟨2024, 1, 1, 0, 0, 3, 0⟩]

theorem plain_reopenedTurns : Turn.Plain reopenedTurns where
  names := by simp [reopenedTurns, Turn.calls, StoreCall.runId, RunId.isHyphenated_waiting]
  created := by
    simp only [reopenedTurns, Turn.calls]
    simp [Capsule.SurvivesJson, Capsule.read_waiting]
  closed := by
    intro c v now now' hcreate hfinalize _ _
    obtain rfl : c = .waiting := by simpa [reopenedTurns, Turn.calls] using hcreate
    obtain ⟨rfl, -, rfl⟩ : v = ⟨.failed, none, some "no such table"⟩ ∧
        now = ⟨2024, 1, 1, 0, 0, 1, 0⟩ ∧ now' = ⟨2024, 1, 1, 0, 0, 2, 0⟩ := by
      simpa [reopenedTurns] using hfinalize
    refine (Capsule.written_waiting.closed _ (by constructor <;> decide)).read_pretty ?_
      ⟨by simp [Verdict.closed, Capsule.literals_waiting], ?_⟩ ?_
    all_goals simp [Verdict.closed]

theorem stores_agree_reopened : Turn.Plain reopenedTurns ∧ Agreement reopenedTurns :=
  ⟨plain_reopenedTurns, stores_agree plain_reopenedTurns (List.prefix_refl _)⟩

end Enclave
