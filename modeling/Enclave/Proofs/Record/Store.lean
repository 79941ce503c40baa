import Enclave.Record.Store
import Mathlib.Data.List.Basic

/-!
# Stores as tables

Both stores keep a list of pairs and look keys up from the front. `lookup_putPair` says what such a
table holds after a write; everything below reads a store through `get?` and never looks at the
list again. A failed call of a store is seen in its answer alone: the store stays as it was.

The second half follows a pending capsule through a store some of whose calls fail: a call of
`finalize` either fails and changes nothing, or it closes the capsule.
-/

namespace Enclave

/-! ## Tables -/

/-- Replacing the values of one key is seen at that key only. -/
theorem lookup_replaced {α : Type} (l : List (String × α)) (k j : String) (v : α) :
    (l.map fun kv => if kv.1 = k then (k, v) else kv).lookup j
      = if j = k then (l.lookup k).map (fun _ => v) else l.lookup j := by
  induction l with
  | nil => simp
  | cons kv l ih =>
    obtain ⟨i, w⟩ := kv
    rw [List.map_cons]
    by_cases hj : j = i
    · subst hj
      by_cases hk : j = k
      · subst hk
        simp
      · rw [if_neg hk, if_neg hk, List.lookup_cons_self, List.lookup_cons_self]
    · have hji : (j == i) = false := beq_eq_false_iff_ne.mpr hj
      by_cases hik : i = k
      · subst hik
        rw [if_pos rfl, if_neg hj]
        simp only [List.lookup_cons, hji, ih, if_neg hj]
      · have hki : (k == i) = false := beq_eq_false_iff_ne.mpr (Ne.symm hik)
        rw [if_neg hik]
        simp only [List.lookup_cons, hji, hki, ih]

/-- A table after a write holds the new value at its key and what it held anywhere else. -/
theorem lookup_putPair {α : Type} (l : List (String × α)) (k j : String) (v : α) :
    (if (l.lookup k).isSome then l.map fun kv => if kv.1 = k then (k, v) else kv
      else l ++ [(k, v)]).lookup j = if j = k then some v else l.lookup j := by
  by_cases h : (l.lookup k).isSome
  · obtain ⟨w, hw⟩ := Option.isSome_iff_exists.mp h
    rw [if_pos h, lookup_replaced, hw, Option.map_some]
  · have hn : l.lookup k = none := by
      rwa [Bool.not_eq_true, Option.isSome_eq_false_iff, Option.isNone_iff_eq_none] at h
    rw [if_neg h, List.lookup_append]
    by_cases hj : j = k
    · subst hj
      simp [hn]
    · have hjk : (j == k) = false := by simpa using hj
      rw [if_neg hj, List.lookup_cons, hjk, List.lookup_nil, Option.or_none]

/-! ## The store in memory -/

namespace MemoryStore

theorem get?_put (s : MemoryStore) (k j : String) (c : Capsule) :
    (s.put k c).get? j = if j = k then some c else s.get? j := by
  have h := lookup_putPair s.capsules k j c
  unfold put get?
  split <;> rename_i hk
  · rwa [if_pos hk] at h
  · rwa [if_neg hk] at h

@[simp]
theorem get?_put_self (s : MemoryStore) (k : String) (c : Capsule) :
    (s.put k c).get? k = some c := by
  rw [get?_put, if_pos rfl]

theorem get?_put_ne {k j : String} (h : j ≠ k) (s : MemoryStore) (c : Capsule) :
    (s.put k c).get? j = s.get? j := by
  rw [get?_put, if_neg h]

/-- A capsule is created where there is none yet. -/
theorem create_of_absent {c : Capsule} {s : MemoryStore} (h : s.get? c.runId = none) :
    ops.create c s = (.ok c, s.put c.runId c) := by
  simp [ops, create, committed, h]

/-- A second capsule of one run is refused. -/
theorem create_of_present {c d : Capsule} {s : MemoryStore} (h : s.get? c.runId = some d) :
    ops.create c s = (.error (.internal ("duplicate run id " ++ c.runId)), s) := by
  simp [ops, create, committed, h]

end MemoryStore

/-! ## What was committed -/

section Committed

variable {α σ : Type} {r : Outcome (α × σ)} {before after : σ}

theorem committed_eq_ok {a : α} (h : committed r before = (.ok a, after)) : r = .ok (a, after) := by
  cases r with
  | error e => cases h
  | ok x =>
    cases h
    rfl

theorem committed_eq_error {e : Failure} (h : committed r before = (.error e, after)) :
    r = .error e := by
  cases r with
  | error e' =>
    cases h
    rfl
  | ok x => cases h

end Committed

/-! ## The end of a capsule -/

@[simp]
theorem Capsule.pending_runId (runId backend : String) (request : RequestRecord) (now : Instant) :
    (Capsule.pending runId backend request now).runId = runId := rfl

/-- The capsule as it stands after a verdict. -/
def Verdict.closed (v : Verdict) (c : Capsule) (now : Instant) : Capsule :=
  { c with finishedAt := some now, status := v.status, result := v.result, error := v.error }

/-- A pending capsule is finished by every verdict that is an end. -/
theorem Capsule.finish_of_pending {c : Capsule} {v : Verdict} (hc : c.status = .pending)
    (hv : v.status.isTerminal = true) (runId : String) (now : Instant) :
    c.finish runId v now = .ok (v.closed c now) := by
  have hp : c.status.isTerminal = false := by rw [hc]; rfl
  simp [Capsule.finish, Verdict.apply, Verdict.closed, hp, hv]

namespace MemoryStore

variable {s : MemoryStore} {runId : String} {c : Capsule}

theorem finalize_of_absent (hs : s.get? runId = none) (v : Verdict) (now : Instant) :
    ops.finalize runId v now s = (.error (.unknownRun runId), s) := by
  simp [ops, finalize, committed, hs]

/-- What can be finished is written down, and what cannot leaves the store as it was. -/
theorem finalize_of_present (hs : s.get? runId = some c) (v : Verdict) (now : Instant) :
    ops.finalize runId v now s =
      match c.finish runId v now with
      | .ok d => (.ok d, s.put runId d)
      | .error e => (.error e, s) := by
  cases hfinish : c.finish runId v now <;> simp [ops, finalize, committed, hs, hfinish, Except.map]

theorem finalize_of_pending {v : Verdict} (hs : s.get? runId = some c) (hc : c.status = .pending)
    (hv : v.status.isTerminal = true) (now : Instant) :
    ops.finalize runId v now s = (.ok (v.closed c now), s.put runId (v.closed c now)) := by
  rw [finalize_of_present hs, Capsule.finish_of_pending hc hv]

/-! ## Calls that fail in front of the store -/

/-- A creation that may fail in front of the store: it fails and changes nothing, or it makes the
capsule of a run that had none. -/
theorem create_faulty (c : Capsule) (s : MemoryStore) (faults : StoreFaults) :
    (∃ e rest, ops.faulty.create c (s, faults) = (.error e, s, rest)) ∨
    (∃ rest, ops.faulty.create c (s, faults) = (.ok c, s.put c.runId c, rest) ∧
      s.get? c.runId = none) := by
  rcases hf : nextFault faults.create with ⟨fault, rest⟩
  cases fault with
  | some e => exact .inl ⟨e, { faults with create := rest }, by simp [StoreOps.faulty, hf]⟩
  | none =>
    cases hs : s.get? c.runId with
    | some d =>
      exact .inl ⟨_, { faults with create := rest }, by
        simp [StoreOps.faulty, hf, create_of_present hs]; rfl⟩
    | none =>
      exact .inr ⟨{ faults with create := rest }, by
        simp [StoreOps.faulty, hf, create_of_absent hs], rfl⟩

theorem runId_of_create_faulty {c d : Capsule} {p p' : MemoryStore × StoreFaults}
    (h : ops.faulty.create c p = (.ok d, p')) : d.runId = c.runId := by
  obtain ⟨e, rest, herror⟩ | ⟨rest, hok, -⟩ := create_faulty c p.1 p.2
  · cases herror.symm.trans h
  · cases hok.symm.trans h
    rfl

/-- A call of `finalize` that may fail in front of the store, on a pending capsule: it fails and
changes nothing, or it closes the capsule. -/
theorem finalize_faulty {v : Verdict} (hs : s.get? runId = some c) (hc : c.status = .pending)
    (hv : v.status.isTerminal = true) (now : Instant) (faults : StoreFaults) :
    (∃ e rest, ops.faulty.finalize runId v now (s, faults) = (.error e, s, rest)) ∨
    (∃ rest, ops.faulty.finalize runId v now (s, faults)
      = (.ok (v.closed c now), s.put runId (v.closed c now), rest)) := by
  rcases hf : nextFault faults.finalize with ⟨fault, rest⟩
  cases fault with
  | some e => exact .inl ⟨e, { faults with finalize := rest }, by simp [StoreOps.faulty, hf]⟩
  | none =>
    exact .inr ⟨{ faults with finalize := rest }, by
      simp [StoreOps.faulty, hf, finalize_of_pending hs hc hv]⟩

end MemoryStore

/-! ## Calls that do not fail in front of the store -/

namespace Store

end Store

end Enclave
