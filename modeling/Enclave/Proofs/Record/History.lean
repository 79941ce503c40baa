import Enclave.Proofs.Record.Store
import Enclave.Proofs.Record.Trace
import Mathlib.Data.List.Induction
import Mathlib.Data.List.Nodup
import Mathlib.Logic.Function.Basic

/-!
# Histories of a store

A history is a list of calls, each at a moment of the clock. What a store may answer to a call is
said once, by `Answered`, over what the store holds for each run: a call is refused for one of five
reasons (`Refusal`) and then nothing changes, or it creates, finishes or finds a capsule. The store
in memory answers like this (`MemoryStore.answered`), and everything said of whole histories follows
from one step.

The events of a history are a second account of it. `Chronicle` reads what the store holds off the
successful calls alone: the capsule that the run was finished with, or else the one it was created
with.
-/

namespace Enclave

/-! ## Calls -/

/-- A call of a store. -/
inductive StoreCall where
  | create (c : Capsule)
  | finalize (runId : String) (v : Verdict)
  | get (runId : String)

/-- The run that a call is about. -/
def StoreCall.runId : StoreCall → String
  | .create c => c.runId
  | .finalize runId _ => runId
  | .get runId => runId

/-- A call at a moment of the clock, which is the end of a run that the call finishes. -/
structure TimedCall where
  now : Instant
  call : StoreCall

namespace StoreOps

variable {σ : Type} (ops : StoreOps σ)

/-- The answer to a call, and the store after it. -/
def answer (x : TimedCall) (s : σ) : Outcome Capsule × σ :=
  match x.call with
  | .create c => ops.create c s
  | .finalize runId v => ops.finalize runId v x.now s
  | .get runId => ops.get runId s

/-- The store after a history. -/
def after (h : List TimedCall) (s : σ) : σ := h.foldl (fun s x => (ops.answer x s).2) s

@[simp]
theorem after_append (h later : List TimedCall) (s : σ) :
    ops.after (h ++ later) s = ops.after later (ops.after h s) :=
  List.foldl_append

@[simp]
theorem after_singleton (x : TimedCall) (s : σ) : ops.after [x] s = (ops.answer x s).2 := rfl

end StoreOps

/-- The event of a call that was answered. -/
def StoreCall.event (answer : Outcome Capsule) : StoreCall → StoreEvent
  | .create c => .create c answer
  | .finalize runId v => .finalize runId v answer
  | .get runId => .get runId answer

theorem StoreOps.traced_answer {σ : Type} (ops : StoreOps σ) (x : TimedCall) (s : σ)
    (es : List StoreEvent) :
    ops.traced.answer x (s, es)
      = ((ops.answer x s).1, (ops.answer x s).2, es ++ [x.call.event (ops.answer x s).1]) := by
  obtain ⟨now, call⟩ := x
  cases call <;> rfl

/-! ## What may be answered -/

/-- Why a call is refused by a store that holds these capsules. -/
inductive Refusal (held : String → Option Capsule) : StoreCall → Failure → Prop where
  | duplicate {c d : Capsule} (h : held c.runId = some d) :
      Refusal held (.create c) (.internal ("duplicate run id " ++ c.runId))
  | unknown {runId : String} {v : Verdict} (h : held runId = none) :
      Refusal held (.finalize runId v) (.unknownRun runId)
  | final {runId : String} {v : Verdict} {c : Capsule} (h : held runId = some c)
      (hc : c.status.isTerminal = true) : Refusal held (.finalize runId v) (.alreadyFinal runId)
  | noEnd {runId : String} {v : Verdict} {c : Capsule} (h : held runId = some c)
      (hc : c.status.isTerminal = false) (hv : v.status.isTerminal = false) :
      Refusal held (.finalize runId v) (.internal "cannot finalize a capsule as pending")
  | missing {runId : String} (h : held runId = none) :
      Refusal held (.get runId) (.unknownRun runId)

/-- What a store that holds these capsules may answer to a call, and what it holds then. -/
inductive Answered (held : String → Option Capsule) (x : TimedCall) :
    Outcome Capsule → (String → Option Capsule) → Prop where
  | refused {e : Failure} (h : Refusal held x.call e) : Answered held x (.error e) held
  | created {c : Capsule} (hcall : x.call = .create c) (hnew : held c.runId = none) :
      Answered held x (.ok c) (Function.update held c.runId (some c))
  | finished {runId : String} {v : Verdict} {c : Capsule} (hcall : x.call = .finalize runId v)
      (hheld : held runId = some c) (hc : c.status.isTerminal = false)
      (hv : v.status.isTerminal = true) :
      Answered held x (.ok (v.closed c x.now))
        (Function.update held runId (some (v.closed c x.now)))
  | found {runId : String} {c : Capsule} (hcall : x.call = .get runId)
      (hheld : held runId = some c) : Answered held x (.ok c) held

/-- What the end of a run leaves as it was. -/
structure Capsule.SameOrigin (c d : Capsule) : Prop where
  runId : d.runId = c.runId
  backend : d.backend = c.backend
  request : d.request = c.request
  createdAt : d.createdAt = c.createdAt
  startedAt : d.startedAt = c.startedAt

theorem Capsule.SameOrigin.refl (c : Capsule) : c.SameOrigin c := ⟨rfl, rfl, rfl, rfl, rfl⟩

theorem Capsule.SameOrigin.trans {c d e : Capsule} (h : c.SameOrigin d) (h' : d.SameOrigin e) :
    c.SameOrigin e :=
  ⟨h'.runId.trans h.runId, h'.backend.trans h.backend, h'.request.trans h.request,
    h'.createdAt.trans h.createdAt, h'.startedAt.trans h.startedAt⟩

theorem Verdict.closed_sameOrigin (v : Verdict) (c : Capsule) (now : Instant) :
    c.SameOrigin (v.closed c now) := ⟨rfl, rfl, rfl, rfl, rfl⟩

/-- A capsule that came of another one: its origin is the same, and if the other one had come to an
end, it is the same capsule. -/
structure Capsule.Follows (c d : Capsule) : Prop where
  origin : c.SameOrigin d
  terminal : c.status.isTerminal = true → d = c

theorem Capsule.Follows.refl (c : Capsule) : c.Follows c := ⟨.refl c, fun _ => rfl⟩

theorem Capsule.Follows.trans {c d e : Capsule} (h : c.Follows d) (h' : d.Follows e) :
    c.Follows e where
  origin := h.origin.trans h'.origin
  terminal hc := by
    have hd := h.terminal hc
    rw [h'.terminal (hd ▸ hc), hd]

namespace Answered

variable {held held' : String → Option Capsule} {x : TimedCall} {answer : Outcome Capsule}

/-- A capsule that is held stays, or comes to its end. -/
theorem follows (h : Answered held x answer held') {runId : String} {c : Capsule}
    (hc : held runId = some c) : ∃ d, held' runId = some d ∧ c.Follows d := by
  cases h with
  | refused _ => exact ⟨c, hc, .refl c⟩
  | found _ _ => exact ⟨c, hc, .refl c⟩
  | @created made _ hnew =>
    have hne : runId ≠ made.runId := by
      rintro rfl
      rw [hnew] at hc
      cases hc
    exact ⟨c, by rw [Function.update_of_ne hne, hc], .refl c⟩
  | @finished id v b _ hheld hpending _ =>
    by_cases hid : runId = id
    · subst hid
      rw [hheld] at hc
      cases hc
      refine ⟨_, Function.update_self _ _ _, v.closed_sameOrigin _ x.now, fun hterminal => ?_⟩
      rw [hpending] at hterminal
      cases hterminal
    · exact ⟨c, by rw [Function.update_of_ne hid, hc], .refl c⟩

/-- What is held of a run that the call is not about stays. -/
theorem held_ne (h : Answered held x answer held') {runId : String} (hne : runId ≠ x.call.runId) :
    held' runId = held runId := by
  cases h with
  | refused _ => rfl
  | found _ _ => rfl
  | created hcall _ =>
    rw [hcall] at hne
    exact Function.update_of_ne hne _ _
  | finished hcall _ _ _ =>
    rw [hcall] at hne
    exact Function.update_of_ne hne _ _

end Answered

theorem Capsule.finish_eq_ok {c : Capsule} {v : Verdict} (hc : c.status.isTerminal = false)
    (hv : v.status.isTerminal = true) (runId : String) (now : Instant) :
    c.finish runId v now = .ok (v.closed c now) := by
  simp [Capsule.finish, Verdict.apply, Verdict.closed, hc, hv]

/-- A capsule that is held can be finished, or there is a reason for which it is not. -/
theorem Capsule.finish_cases {held : String → Option Capsule} {runId : String} {c : Capsule}
    (hheld : held runId = some c) (v : Verdict) (now : Instant) :
    (∃ e, c.finish runId v now = .error e ∧ Refusal held (.finalize runId v) e) ∨
    (c.finish runId v now = .ok (v.closed c now) ∧ c.status.isTerminal = false ∧
      v.status.isTerminal = true) := by
  cases hc : c.status.isTerminal with
  | true => exact .inl ⟨_, by rw [Capsule.finish, hc, if_pos rfl], .final hheld hc⟩
  | false =>
    cases hv : v.status.isTerminal with
    | true => exact .inr ⟨Capsule.finish_eq_ok hc hv runId now, rfl, rfl⟩
    | false =>
      exact .inl ⟨_, by simp [Capsule.finish, Verdict.apply, hc, hv], .noEnd hheld hc hv⟩

theorem committed_error {α σ : Type} {r : Outcome (α × σ)} {before : σ} {e : Failure}
    (h : (committed r before).1 = .error e) : (committed r before).2 = before := by
  cases r with
  | error _ => rfl
  | ok p => cases h

/-! ## The store in memory -/

namespace MemoryStore

theorem get?_put_eq_update (s : MemoryStore) (k : String) (c : Capsule) :
    (s.put k c).get? = Function.update s.get? k (some c) := by
  funext j
  rw [get?_put, Function.update_apply]

/-- **The store in memory answers as a store may.** -/
theorem answered (x : TimedCall) (s : MemoryStore) :
    Answered s.get? x (ops.answer x s).1 (ops.answer x s).2.get? := by
  obtain ⟨now, call⟩ := x
  cases call with
  | create c =>
    change Answered _ _ (ops.create c s).1 (ops.create c s).2.get?
    cases hc : s.get? c.runId with
    | none =>
      rw [create_of_absent hc]
      simp only [get?_put_eq_update]
      exact .created rfl hc
    | some d =>
      rw [create_of_present hc]
      exact .refused (.duplicate hc)
  | finalize runId v =>
    change Answered _ _ (ops.finalize runId v now s).1 (ops.finalize runId v now s).2.get?
    cases hc : s.get? runId with
    | none =>
      rw [finalize_of_absent hc]
      exact .refused (.unknown hc)
    | some c =>
      rw [finalize_of_present hc]
      rcases c.finish_cases hc v now with ⟨e, he, hrefusal⟩ | ⟨hfinish, hpending, hv⟩
      · rw [he]
        exact .refused hrefusal
      · rw [hfinish, get?_put_eq_update]
        exact .finished rfl hc hpending hv
  | get runId =>
    change Answered _ _ (get runId s) s.get?
    cases hc : s.get? runId with
    | none =>
      simp only [get, hc]
      exact .refused (.missing hc)
    | some c =>
      simp only [get, hc]
      exact .found rfl hc

/-- A call that fails leaves the store as it was. -/
theorem answer_error {x : TimedCall} {s : MemoryStore} {e : Failure}
    (h : (ops.answer x s).1 = .error e) : (ops.answer x s).2 = s := by
  obtain ⟨now, call⟩ := x
  cases call with
  | get runId => rfl
  | create c => exact committed_error h
  | finalize runId v => exact committed_error h

/-- The events of a history of a new store. -/
def events (h : List TimedCall) : List StoreEvent := (ops.traced.after h (empty, [])).2

/-- The store after a history of a new store. -/
def store (h : List TimedCall) : MemoryStore := ops.after h empty

end MemoryStore

/-! ## Stores and their events -/

theorem StoreOps.traced_after {σ : Type} (ops : StoreOps σ) (h : List TimedCall) (s : σ)
    (es : List StoreEvent) : (ops.traced.after h (s, es)).1 = ops.after h s := by
  induction h generalizing s es with
  | nil => rfl
  | cons x h ih =>
    change (ops.traced.after h (ops.traced.answer x (s, es)).2).1 = _
    rw [ops.traced_answer]
    exact ih _ _

/-- The events tell what a store holds: what it holds is the last that was heard of each run, no run
was created or finished twice, and what was finished has come to its end. -/
structure Records (held : String → Option Capsule) (es : List StoreEvent) : Prop where
  standing : ∀ runId, held runId = StoreEvent.standing es runId
  createdOnce : ((StoreEvent.created es).map Capsule.runId).Nodup
  finishedOnce : ((StoreEvent.finished es).map Prod.fst).Nodup
  terminal : ∀ p ∈ StoreEvent.finished es, ∃ c, held p.1 = some c ∧ c.status.isTerminal = true

namespace Records

variable {held held' : String → Option Capsule} {es : List StoreEvent} {x : TimedCall}
  {answer : Outcome Capsule}

theorem empty : Records (fun _ => none) [] :=
  ⟨fun _ => rfl, List.nodup_nil, List.nodup_nil, fun _ h => (List.not_mem_nil h).elim⟩

/-- An event that neither creates nor finishes a run changes nothing. -/
theorem of_silent (h : Records held es) {e : StoreEvent} (hcreated : StoreEvent.created [e] = [])
    (hfinished : StoreEvent.finished [e] = []) : Records held (es ++ [e]) := by
  have hc : StoreEvent.created (es ++ [e]) = StoreEvent.created es := by
    rw [StoreEvent.created_append, hcreated, List.append_nil]
  have hf : StoreEvent.finished (es ++ [e]) = StoreEvent.finished es := by
    rw [StoreEvent.finished_append, hfinished, List.append_nil]
  constructor
  case standing => simpa only [StoreEvent.standing, hc, hf] using h.standing
  case createdOnce => exact hc ▸ h.createdOnce
  case finishedOnce => exact hf ▸ h.finishedOnce
  case terminal => exact hf ▸ h.terminal

theorem notMem_created (h : Records held es) {runId : String} (hnone : held runId = none) :
    ∀ c ∈ StoreEvent.created es, c.runId ≠ runId := by
  rw [h.standing, StoreEvent.standing, Option.or_eq_none_iff, List.find?_eq_none] at hnone
  simpa using hnone.2

theorem lookup_finished (h : Records held es) {runId : String}
    (hnot : ∀ c, held runId = some c → c.status.isTerminal = false) :
    (StoreEvent.finished es).lookup runId = none := by
  rw [List.lookup_eq_none_iff]
  rintro p hp
  rw [bne_iff_ne]
  rintro rfl
  obtain ⟨c, hc, hterminal⟩ := h.terminal p hp
  rw [hnot c hc] at hterminal
  cases hterminal

/-- A run that is created is heard of for the first time. -/
theorem of_created (h : Records held es) {c : Capsule} (hnew : held c.runId = none) :
    Records (Function.update held c.runId (some c)) (es ++ [.create c (.ok c)]) := by
  have hcreated : StoreEvent.created (es ++ [.create c (.ok c)]) = StoreEvent.created es ++ [c] :=
    StoreEvent.created_append _ _
  have hfinished : StoreEvent.finished (es ++ [.create c (.ok c)]) = StoreEvent.finished es := by
    rw [StoreEvent.finished_append]
    exact List.append_nil _
  have hlookup : (StoreEvent.finished es).lookup c.runId = none :=
    h.lookup_finished (by simp [hnew])
  have hfresh := h.notMem_created hnew
  constructor
  case standing =>
    -- The run is new, so it was neither created nor finished, and its creation is what counts.
    intro runId
    rw [Function.update_apply, StoreEvent.standing, hcreated, hfinished, List.find?_append]
    by_cases hid : runId = c.runId
    · subst hid
      have hnone : (StoreEvent.created es).find? (fun d => d.runId == c.runId) = none := by
        simpa using hfresh
      simp [hlookup, hnone]
    · have hne : (c.runId == runId) = false := beq_eq_false_iff_ne.mpr (Ne.symm hid)
      simp [if_neg hid, h.standing, StoreEvent.standing, hne]
  case createdOnce =>
    rw [hcreated, List.map_append, List.nodup_append]
    refine ⟨h.createdOnce, List.nodup_singleton _, ?_⟩
    simpa using hfresh
  case finishedOnce => exact hfinished ▸ h.finishedOnce
  case terminal =>
    rw [hfinished]
    rintro p hp
    obtain ⟨d, hd, hterminal⟩ := h.terminal p hp
    refine ⟨d, ?_, hterminal⟩
    rw [Function.update_of_ne, hd]
    rintro hpc
    rw [← hpc, hd] at hnew
    cases hnew

/-- A run that is finished was not finished before. -/
theorem of_finished (h : Records held es) {runId : String} {v : Verdict} {c d : Capsule}
    (hheld : held runId = some c) (hpending : c.status.isTerminal = false)
    (hd : d.status.isTerminal = true) :
    Records (Function.update held runId (some d)) (es ++ [.finalize runId v (.ok d)]) := by
  have hcreated : StoreEvent.created (es ++ [.finalize runId v (.ok d)])
      = StoreEvent.created es := by
    rw [StoreEvent.created_append]
    exact List.append_nil _
  have hfinished : StoreEvent.finished (es ++ [.finalize runId v (.ok d)])
      = StoreEvent.finished es ++ [(runId, d)] := StoreEvent.finished_append _ _
  have hlookup : (StoreEvent.finished es).lookup runId = none :=
    h.lookup_finished (by simpa [hheld] using hpending)
  constructor
  case standing =>
    -- An end counts before a creation, and there was none of this run.
    intro id
    rw [Function.update_apply, StoreEvent.standing, hcreated, hfinished, List.lookup_append]
    by_cases hid : id = runId
    · subst hid
      simp [hlookup]
    · have hne : (id == runId) = false := beq_eq_false_iff_ne.mpr hid
      simp [if_neg hid, h.standing, StoreEvent.standing, List.lookup_cons, hne]
  case createdOnce => exact hcreated ▸ h.createdOnce
  case finishedOnce =>
    rw [hfinished, List.map_append, List.nodup_append]
    refine ⟨h.finishedOnce, List.nodup_singleton _, ?_⟩
    simpa [List.lookup_eq_none_iff, ne_comm] using hlookup
  case terminal =>
    rw [hfinished]
    intro p hp
    by_cases hid : p.1 = runId
    · exact ⟨d, by rw [hid, Function.update_self], hd⟩
    · rw [Function.update_of_ne hid]
      refine h.terminal p ((List.mem_append.mp hp).resolve_right fun hlast => hid ?_)
      rw [List.mem_singleton.mp hlast]

/-- What a store answers to a call is told by the event of the call. -/
theorem step (h : Records held es) (hanswered : Answered held x answer held') :
    Records held' (es ++ [x.call.event answer]) := by
  cases hanswered with
  | refused _ => cases hcall : x.call <;> exact h.of_silent rfl rfl
  | found hcall _ =>
    rw [hcall]
    exact h.of_silent rfl rfl
  | created hcall hnew =>
    rw [hcall]
    exact h.of_created hnew
  | finished hcall hheld hpending hv =>
    rw [hcall]
    exact h.of_finished hheld hpending hv

end Records

/-! ## Histories -/

namespace MemoryStore

variable (h later : List TimedCall)

theorem store_append : store (h ++ later) = ops.after later (store h) := ops.after_append h later _

/-- The events of one more call. -/
theorem events_snoc (x : TimedCall) :
    events (h ++ [x]) = events h ++ [x.call.event (ops.answer x (store h)).1] := by
  rcases htraced : ops.traced.after h (empty, []) with ⟨s, es⟩
  have hs : s = store h := by
    rw [store, ← StoreOps.traced_after ops h empty [], htraced]
  rw [events, events, StoreOps.after_append, StoreOps.after_singleton, htraced,
    StoreOps.traced_answer, hs]

/-- The events of a history tell what the store holds after it. -/
theorem records : Records (store h).get? (events h) := by
  induction h using List.reverseRecOn with
  | nil => exact .empty
  | append_singleton h x ih =>
    rw [events_snoc, store_append, StoreOps.after_singleton]
    exact ih.step (answered x (store h))

/-- A capsule that is held at one time is followed by those held later. -/
theorem after_follows {s : MemoryStore} {runId : String} {c : Capsule}
    (hc : s.get? runId = some c) :
    ∃ d, (ops.after later s).get? runId = some d ∧ c.Follows d := by
  induction later generalizing s c with
  | nil => exact ⟨c, hc, .refl c⟩
  | cons x later ih =>
    obtain ⟨d, hd, hcd⟩ := (answered x s).follows hc
    obtain ⟨e, he, hde⟩ := ih hd
    exact ⟨e, he, hcd.trans hde⟩

/-- The life of the runs of a store over a history. -/
structure Chronicle : Prop where
  /-- One creation of a run succeeds at most. -/
  createdOnce : ((StoreEvent.created (events h)).map Capsule.runId).Nodup
  /-- One end of a run succeeds at most. -/
  finishedOnce : ((StoreEvent.finished (events h)).map Prod.fst).Nodup
  /-- A run is found as it was created until it is finished, and then as it was finished. -/
  found : ∀ runId now, (ops.answer ⟨now, .get runId⟩ (store h)).1
    = match StoreEvent.standing (events h) runId with
      | none => .error (.unknownRun runId)
      | some c => .ok c
  /-- A call is refused for one of the five reasons, or does what it is for. -/
  answered : ∀ x, Answered (StoreEvent.standing (events h)) x (ops.answer x (store h)).1
    (StoreEvent.standing (events (h ++ [x])))
  /-- A call that fails leaves the whole store as it was. -/
  unchanged : ∀ x e, (ops.answer x (store h)).1 = .error e → store (h ++ [x]) = store h
  /-- What was found of a run is followed by what is found later. -/
  kept : ∀ later runId c, StoreEvent.standing (events h) runId = some c →
    ∃ d, StoreEvent.standing (events (h ++ later)) runId = some d ∧ c.Follows d

/-- **Every history of a store in memory is a chronicle of runs**: each is created once, finished at
most once, and found as the last of these two left it. -/
theorem history_chronicle : Chronicle h where
  createdOnce := (records h).createdOnce
  finishedOnce := (records h).finishedOnce
  found runId now := by
    change get runId (store h) = _
    rw [← (records h).standing]
    rfl
  answered x := by
    have hheld : StoreEvent.standing (events h) = (store h).get? :=
      (funext (records h).standing).symm
    have hheld' : StoreEvent.standing (events (h ++ [x])) = (ops.answer x (store h)).2.get? := by
      rw [← funext (records (h ++ [x])).standing, store_append, StoreOps.after_singleton]
    rw [hheld, hheld']
    exact MemoryStore.answered x (store h)
  unchanged x e he := by
    rw [store_append, StoreOps.after_singleton, answer_error he]
  kept later runId c hc := by
    rw [← (records h).standing] at hc
    rw [← (records (h ++ later)).standing, store_append]
    exact after_follows later hc

end MemoryStore

end Enclave
