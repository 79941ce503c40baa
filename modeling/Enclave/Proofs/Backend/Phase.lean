import Enclave.Proofs.Backend.Course
import Mathlib.Data.List.Perm.Basic

/-!
# The phase of a job

The status of a job speaks in four ways: through its conditions `Failed` and `Complete`, and through
two counts. `Told` says which of them decides where several speak, and `phaseOf_told` that the phase
of a document is the one told. The first true condition `Failed` is the only thing about the order
of the conditions that could matter, so with at most one of them a document may list its conditions
in any order, among any others (`phaseOf_eq_of_sameSignals`).

The documents that polls print one after another are `Job.Polled`. Waiting for a job ends with the
first phase among theirs that is not the active one (`Job.await_eq_ok_iff`).
-/

namespace Enclave.Cluster

open Json (Value)

/-! ## Signals -/

/-- The conditions in the status of a job; none where there is no list of them. -/
def conditions (job : Value) : List Value := elements (member.along job ["status", "conditions"])

/-- A condition of a type that is true: its status is the text `True`, or no text at all. -/
def IsTrue (type : String) (c : Value) : Prop :=
  member c "type" = .str type ∧ ∀ s, member c "status" = .str s → s = "True"

/-- A count in the status of a job is a positive integer. -/
def Counted (job : Value) (name : String) : Prop :=
  ∃ n : Int, 0 < n ∧ member.along job ["status", name] = .int n

/-- A true condition `Failed` is listed. -/
def Failing (job : Value) : Prop := ∃ c ∈ conditions job, IsTrue "Failed" c

/-- A true condition `Complete` is listed, or a success is counted. -/
def Succeeding (job : Value) : Prop :=
  (∃ c ∈ conditions job, IsTrue "Complete" c) ∨ Counted job "succeeded"

theorem asString?_eq_some {v : Value} {s : String} : v.asString? = some s ↔ v = .str s := by
  cases v <;> simp [Value.asString?]

theorem isText_iff {v : Value} {s : String} : isText v s = true ↔ v = .str s := by
  rw [isText, beq_iff_eq, asString?_eq_some]

theorem isPositive_iff {v : Value} : isPositive v = true ↔ ∃ n : Int, 0 < n ∧ v = .int n := by
  cases v <;> simp [isPositive]

theorem holds_iff {type : String} {c : Value} : holds type c = true ↔ IsTrue type c := by
  rw [holds, Bool.and_eq_true, isText_iff, IsTrue]
  refine and_congr_right fun _ => ?_
  cases hstatus : member c "status" <;> simp [Value.asString?]

instance (type : String) (c : Value) : Decidable (IsTrue type c) :=
  decidable_of_iff (holds type c = true) holds_iff

theorem any_holds_iff {type : String} {cs : List Value} :
    cs.any (holds type) = true ↔ ∃ c ∈ cs, IsTrue type c := by
  simp only [List.any_eq_true, holds_iff]

/-! ## What decides -/

/-- The phase that a document tells of. A true condition `Failed` decides, the first one if there
are several; then a success, by a condition or by the count; then the count of failures. -/
structure Told (job : Value) (phase : JobPhase) : Prop where
  failed : ∀ before c after, conditions job = before ++ c :: after → IsTrue "Failed" c →
    (∀ b ∈ before, ¬ IsTrue "Failed" b) →
    ∃ reason, phase = .failed reason ∧ ∀ s, reason = some s ↔ member c "reason" = .str s
  succeeded : ¬ Failing job → (phase = .succeeded ↔ Succeeding job)
  counted : ¬ Failing job → ¬ Succeeding job →
    (phase = .failed none ↔ Counted job "failed")
  active : ¬ Failing job → ¬ Succeeding job → ¬ Counted job "failed" → phase = .active

theorem conditions_eq (job : Value) :
    elements (member (member job "status") "conditions") = conditions job := rfl

/-- The first true condition `Failed` is the phase. -/
theorem phaseOf_of_first {job c : Value} {before after : List Value}
    (hlist : conditions job = before ++ c :: after) (htrue : IsTrue "Failed" c)
    (hfirst : ∀ b ∈ before, ¬ IsTrue "Failed" b) :
    phaseOf job = .failed (member c "reason").asString? := by
  have hfound : (conditions job).find? (holds "Failed") = some c := by
    refine List.find?_eq_some_iff_append.mpr ⟨holds_iff.mpr htrue, before, after, hlist, ?_⟩
    intro b hb
    rw [Bool.not_eq_true', Bool.eq_false_iff, ne_eq, holds_iff]
    exact hfirst b hb
  unfold phaseOf
  simp only
  rw [conditions_eq, hfound]

theorem succeeding_iff {job : Value} :
    ((conditions job).any (holds "Complete") ||
      isPositive (member.along job ["status", "succeeded"])) = true ↔ Succeeding job := by
  rw [Bool.or_eq_true, any_holds_iff, isPositive_iff]
  rfl

/-- Without such a condition the other signals decide. -/
theorem phaseOf_of_not_failing {job : Value} (h : ¬ Failing job) :
    phaseOf job =
      if (conditions job).any (holds "Complete") ||
        isPositive (member.along job ["status", "succeeded"]) then .succeeded
      else if isPositive (member.along job ["status", "failed"]) then .failed none
      else .active := by
  have hnone : (conditions job).find? (holds "Failed") = none := by
    rw [List.find?_eq_none]
    exact fun c hc htrue => h ⟨c, hc, holds_iff.mp htrue⟩
  unfold phaseOf
  simp only
  rw [conditions_eq, hnone]
  rfl

theorem phaseOf_told (job : Value) : Told job (phaseOf job) where
  failed before c after hlist htrue hfirst :=
    ⟨_, phaseOf_of_first hlist htrue hfirst, fun _ => asString?_eq_some⟩
  succeeded h := by
    rw [phaseOf_of_not_failing h]
    split <;> rename_i hsucceeding <;> rw [succeeding_iff] at hsucceeding
    · exact iff_of_true rfl hsucceeding
    · split <;> exact iff_of_false (by simp) hsucceeding
  counted h hsucceeding := by
    rw [phaseOf_of_not_failing h, if_neg (mt succeeding_iff.mp hsucceeding)]
    split <;> rename_i hcounted <;> rw [isPositive_iff] at hcounted
    · exact iff_of_true rfl hcounted
    · exact iff_of_false (by simp) hcounted
  active h hsucceeding hcounted := by
    rw [phaseOf_of_not_failing h, if_neg (mt succeeding_iff.mp hsucceeding),
      if_neg (mt isPositive_iff.mp hcounted)]

/-! ## What does not matter -/

/-- A condition of one of the types that say anything. -/
def Decides (c : Value) : Bool :=
  isText (member c "type") "Failed" || isText (member c "type") "Complete"

/-- Two documents with the same counts whose conditions are the same, in some order and among any
conditions of other types. -/
structure SameSignals (job job' : Value) : Prop where
  succeeded : member.along job' ["status", "succeeded"] = member.along job ["status", "succeeded"]
  failed : member.along job' ["status", "failed"] = member.along job ["status", "failed"]
  conditions : ((conditions job').filter Decides).Perm ((conditions job).filter Decides)

theorem holds_and_decides {type : String} (htype : type = "Failed" ∨ type = "Complete")
    (c : Value) : (holds type c && Decides c) = holds type c := by
  rw [Bool.and_eq_left_iff_imp, holds, Bool.and_eq_true]
  rintro ⟨hc, -⟩
  rcases htype with rfl | rfl <;> simp [Decides, hc]

theorem SameSignals.filter_perm {job job' : Value} (h : SameSignals job job') {type : String}
    (htype : type = "Failed" ∨ type = "Complete") :
    ((Cluster.conditions job').filter (holds type)).Perm
      ((Cluster.conditions job).filter (holds type)) := by
  have hperm := h.conditions.filter (holds type)
  simpa only [List.filter_filter, holds_and_decides htype] using hperm

/-- A list with one element at most has one order. -/
theorem eq_of_perm_of_length_le_one {α : Type} {xs ys : List α} (h : xs.Perm ys)
    (hone : ys.length ≤ 1) : xs = ys := by
  match ys, hone with
  | [], _ => exact h.eq_nil
  | [y], _ => exact List.perm_singleton.mp h

theorem phaseOf_eq_of_sameSignals {job job' : Value} (h : SameSignals job job')
    (hone : (conditions job).countP (fun c => IsTrue "Failed" c) ≤ 1) :
    phaseOf job' = phaseOf job := by
  have hcount : ((conditions job).filter (holds "Failed")).length ≤ 1 := by
    rw [← List.countP_eq_length_filter]
    refine Nat.le_trans (Nat.le_of_eq ?_) hone
    exact List.countP_congr fun c _ => by rw [holds_iff, decide_eq_true_iff]
  have hfailed : (conditions job').find? (holds "Failed")
      = (conditions job).find? (holds "Failed") := by
    rw [← List.head?_filter, ← List.head?_filter,
      eq_of_perm_of_length_le_one (h.filter_perm (.inl rfl)) hcount]
  have hcomplete : (conditions job').any (holds "Complete")
      = (conditions job).any (holds "Complete") := by
    have hany := (h.filter_perm (.inr rfl)).any_eq (f := fun _ => true)
    simpa only [List.any_filter, Bool.and_true] using hany
  have hsucceeded := congrArg isPositive h.succeeded
  have hcounted := congrArg isPositive h.failed
  simp only [conditions, member.along, List.foldl_cons, List.foldl_nil] at *
  simp only [phaseOf, hfailed, hcomplete, hsucceeded, hcounted]

/-! ## Waiting -/

namespace Job

variable {j : Job} {p q : Progress}

/-- What a poll exchanges. -/
def polled (j : Job) (p : Progress) : Exchange :=
  ⟨j.pollCall, j.command p.connection.log j.pollCall⟩

/-- A run behind a poll. -/
def afterPoll (j : Job) (p : Progress) : Progress :=
  ⟨p.connection.grown [j.polled p], p.elapsed + took (j.polled p).reply⟩

/-- A run behind a poll and a pause. -/
def afterPause (j : Job) (p : Progress) : Progress :=
  { j.afterPoll p with elapsed := (j.afterPoll p).elapsed + j.pollPause }

/-- A poll prints a document before the time is over. -/
def Prints (j : Job) (p : Progress) (v : Value) : Prop :=
  ∃ stdout stderr ms, (j.polled p).reply = .ended (.code 0) stdout stderr ms ∧
    Value.parse (Text.ofBytes stdout) = .ok v ∧ (j.afterPoll p).elapsed < j.deadline

/-- The documents that polls print one after another, with a pause behind each, while there is
time. -/
inductive Polled (j : Job) : Progress → List Value → Prop
  | one {p : Progress} {v : Value} (h : j.Prints p v) : Polled j p [v]
  | more {p : Progress} {v : Value} {vs : List Value} (h : j.Prints p v)
      (hearly : (j.afterPause p).elapsed < j.deadline) (hmore : Polled j (j.afterPause p) vs) :
      Polled j p (v :: vs)

/-- Among the documents that polls print, the first that tells of another phase than the active one
tells of this phase. -/
def FirstDone (j : Job) (p : Progress) (phase : JobPhase) : Prop :=
  ∃ docs v, Polled j p (docs ++ [v]) ∧ (∀ d ∈ docs, phaseOf d = .active) ∧ phaseOf v = phase ∧
    phase ≠ .active

theorem Polled.prints {v : Value} {vs : List Value} (h : j.Polled p (v :: vs)) : j.Prints p v := by
  cases h <;> assumption

theorem Polled.later {v : Value} {vs : List Value} (h : j.Polled p (v :: vs)) (hvs : vs ≠ []) :
    (j.afterPause p).elapsed < j.deadline ∧ j.Polled (j.afterPause p) vs := by
  cases h with
  | one => exact absurd rfl hvs
  | more _ hearly hmore => exact ⟨hearly, hmore⟩

theorem Prints.unique {v w : Value} (h : j.Prints p v) (h' : j.Prints p w) : v = w := by
  obtain ⟨stdout, stderr, ms, hreply, hparse, -⟩ := h
  obtain ⟨stdout', stderr', ms', hreply', hparse', -⟩ := h'
  cases hreply.symm.trans hreply'
  exact Except.ok.inj (hparse.symm.trans hparse')

theorem poll_snd (j : Job) (p : Progress) : (j.poll p).2 = j.afterPoll p := by
  unfold poll
  split <;> rename_i h
  · exact (congrArg Prod.snd h).symm
  · split <;> exact (congrArg Prod.snd h).symm

/-- A poll gives the phase that a document tells of, if it prints one in time. -/
theorem poll_eq_ok_iff {phase : JobPhase} :
    (j.poll p).1 = .ok phase ↔ ∃ v, j.Prints p v ∧ phaseOf v = phase := by
  have hkubectl : j.kubectl "get" ["job", j.name, "-o", "json"] none p
      = (j.readReply "get" (j.afterPoll p).elapsed (j.polled p).reply, j.afterPoll p) := rfl
  rw [poll, hkubectl]
  constructor
  · cases hread : j.readReply "get" (j.afterPoll p).elapsed (j.polled p).reply with
    | error e =>
      intro h
      cases h
    | ok text =>
      obtain ⟨stdout, stderr, ms, hreply, rfl, hearly⟩ := readReply_eq_ok hread
      cases hparse : Value.parse (Text.ofBytes stdout) with
      | error f =>
        intro h
        simp only [hparse] at h
        cases h
      | ok v =>
        simp only [hparse, Except.ok.injEq]
        exact fun hphase => ⟨v, ⟨stdout, stderr, ms, hreply, hparse, hearly⟩, hphase⟩
  · rintro ⟨v, ⟨stdout, stderr, ms, hreply, hparse, hearly⟩, rfl⟩
    rw [hreply, readReply, if_neg (Nat.not_le.mpr hearly)]
    simp [Exit.succeeded, hparse]

/-- Where the first document tells of an active job, the ones behind it decide. -/
theorem firstDone_iff_of_active {v : Value} (h : j.Prints p v) (hactive : phaseOf v = .active)
    {phase : JobPhase} :
    j.FirstDone p phase ↔
      (j.afterPause p).elapsed < j.deadline ∧ j.FirstDone (j.afterPause p) phase := by
  constructor
  · rintro ⟨docs, w, hpolled, hdocs, hphase, hdone⟩
    cases docs with
    | nil =>
      rw [hpolled.prints.unique h, hactive] at hphase
      exact absurd hphase.symm hdone
    | cons d docs =>
      obtain ⟨hearly, hmore⟩ := hpolled.later (by simp)
      exact ⟨hearly, docs, w, hmore, (List.forall_mem_cons.mp hdocs).2, hphase, hdone⟩
  · rintro ⟨hearly, docs, w, hpolled, hdocs, hphase, hdone⟩
    exact ⟨v :: docs, w, .more h hearly hpolled, List.forall_mem_cons.mpr ⟨hactive, hdocs⟩, hphase,
      hdone⟩

/-- Otherwise it decides itself. -/
theorem firstDone_iff_of_ne_active (h : (j.poll p).1 ≠ .ok .active) {phase : JobPhase} :
    j.FirstDone p phase ↔ (j.poll p).1 = .ok phase := by
  rw [poll_eq_ok_iff]
  constructor
  · rintro ⟨docs, w, hpolled, hdocs, hphase, -⟩
    cases docs with
    | nil => exact ⟨w, hpolled.prints, hphase⟩
    | cons d docs =>
      have hd := hdocs d List.mem_cons_self
      exact absurd (poll_eq_ok_iff.mpr ⟨d, hpolled.prints, hd⟩) h
  · rintro ⟨v, hv, rfl⟩
    refine ⟨[], v, .one hv, by simp, rfl, fun hactive => h ?_⟩
    exact poll_eq_ok_iff.mpr ⟨v, hv, hactive⟩

/-- Nothing is printed in time when the time is over. -/
theorem not_firstDone_of_late (hlate : j.deadline ≤ p.elapsed) (phase : JobPhase) :
    ¬ j.FirstDone p phase := by
  have hnothing : ∀ v, ¬ j.Prints p v := by
    rintro v ⟨-, -, -, -, -, hearly⟩
    exact absurd hearly (Nat.not_lt.mpr (Nat.le_trans hlate (Nat.le_add_right _ _)))
  rintro ⟨docs, v, hpolled, -⟩
  cases docs with
  | nil => exact hnothing v hpolled.prints
  | cons d docs => exact hnothing d hpolled.prints

theorem pollUntilDone_eq_ok_iff {polls : Nat} (hpolls : j.deadline < p.elapsed + polls)
    {phase : JobPhase} :
    (j.pollUntilDone polls p).1 = .ok phase ↔ j.FirstDone p phase := by
  -- Every pause takes a millisecond at least, so the polls outlast the time.
  induction polls generalizing p with
  | zero =>
    have hlate : (j.pollUntilDone 0 p).1 ≠ .ok phase := by simp [pollUntilDone, tooLate]
    exact iff_of_false hlate (not_firstDone_of_late (Nat.le_of_lt hpolls) phase)
  | succ polls ih =>
    rw [pollUntilDone]
    split
    · rename_i q hactive
      obtain ⟨v, hprints, hv⟩ := poll_eq_ok_iff.mp (congrArg Prod.fst hactive)
      obtain rfl : j.afterPoll p = q := (poll_snd j p).symm.trans (congrArg Prod.snd hactive)
      rw [firstDone_iff_of_active hprints hv]
      change (if j.deadline ≤ (j.afterPause p).elapsed then (j.tooLate, j.afterPause p)
        else j.pollUntilDone polls (j.afterPause p)).1 = .ok phase ↔ _
      split <;> rename_i hlate
      · exact iff_of_false (by simp [tooLate]) fun h => absurd h.1 (Nat.not_lt.mpr hlate)
      · have hpause : 1 ≤ j.pollPause := Nat.le_max_right _ _
        have hlater : p.elapsed + j.pollPause ≤ (j.afterPause p).elapsed :=
          Nat.add_le_add_right (Nat.le_add_right _ _) _
        rw [ih (by omega)]
        exact (and_iff_right (Nat.lt_of_not_le hlate)).symm
    · rename_i hactive
      exact (firstDone_iff_of_ne_active fun h => hactive _ (Prod.ext h rfl)).symm

/-- Waiting for a job ends with the first phase that is not the active one. -/
theorem await_eq_ok_iff {phase : JobPhase} : (j.await p).1 = .ok phase ↔ j.FirstDone p phase :=
  pollUntilDone_eq_ok_iff (by omega)

end Job

/-- **The phase of a job** is what its document tells of it, by the priority of the signals and
whatever else the document holds, and waiting for the job gives the first phase that ends it. -/
theorem phase_settled :
    (∀ job, Told job (phaseOf job)) ∧
    (∀ job job', SameSignals job job' →
      (conditions job).countP (fun c => IsTrue "Failed" c) ≤ 1 → phaseOf job' = phaseOf job) ∧
    ∀ (j : Job) (p : Progress) (phase : JobPhase),
      (j.await p).1 = .ok phase ↔ j.FirstDone p phase :=
  ⟨phaseOf_told, fun _ _ h hone => phaseOf_eq_of_sameSignals h hone, fun _ _ _ =>
    Job.await_eq_ok_iff⟩

/-- A condition of a job. -/
def condition (type status : String) : Value :=
  .obj [("reason", .str "DeadlineExceeded"), ("status", .str status), ("type", .str type)]

/-- A job with some conditions of which a success is counted. -/
def jobWith (cs : List Value) : Value :=
  .obj [("status", .obj [("conditions", .arr cs), ("succeeded", .int 1)])]

/-- A cluster of which the first poll finds the job active, and every later one finds that it
succeeded. -/
def slowCluster : Command := fun log _ =>
  let text := if log.isEmpty then "\x7b\"status\":\x7b\"active\":1\x7d\x7d"
    else "\x7b\"status\":\x7b\"succeeded\":1\x7d\x7d"
  .ended (.code 0) text.toUTF8.toList [] 1

/-- A job that ran out of time is a failed one wherever that is listed, and a job that is still
active is polled again. -/
theorem phase_settled_slowJob :
    let complete := condition "Complete" "True"
    let failed := condition "Failed" "True"
    let job := jobWith [complete, failed]
    let job' := jobWith [condition "Suspended" "True", failed, complete]
    let slow : Job := ⟨.default, slowCluster, "sqlsandbox-0", ⟨"tickets", [], .sql "", 5, 10, 0⟩⟩
    SameSignals job job' ∧ (conditions job).countP (fun c => IsTrue "Failed" c) ≤ 1 ∧
      phaseOf job' = phaseOf job ∧
      phaseOf job = .failed (some "DeadlineExceeded") ∧
      slow.FirstDone ⟨.fresh, 0⟩ .succeeded := by
  intro complete failed job job' slow
  have hsame : SameSignals job job' := ⟨rfl, rfl, List.Perm.swap _ _ _⟩
  have hone : (conditions job).countP (fun c => IsTrue "Failed" c) ≤ 1 := by decide
  have hawait : (slow.await ⟨.fresh, 0⟩).1 = .ok .succeeded := by decide +kernel
  exact ⟨hsame, hone, phase_settled.2.1 job job' hsame hone, by decide,
    (phase_settled.2.2 slow _ _).mp hawait⟩

end Enclave.Cluster
