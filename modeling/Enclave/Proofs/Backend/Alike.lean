import Enclave.Proofs.Backend.Handover
import Enclave.Proofs.Backend.Session
import Enclave.Proofs.Run.Output

/-!
# Two backends, one answer

A container ends with an exit code and what it printed; a job ends in a phase and leaves a log. Both
are turned into an answer, and `dispatchAt_alike` says that the caller cannot tell from the answer
which backend it was, as long as no time is over: a runner that succeeded, one that failed and one
that was killed for its use of memory are answered alike.

What a dispatch to the cluster answers is found part by part. `Yields` is what is said of a part of
a run: it exchanges something and takes time, and its answer is as expected if every exchange was as
assumed and the time of the run is not over.
-/

namespace Enclave

open Json (Value)

/-! ## What is read in an output -/

/-- An answer that was read in an output: what there is to be read, or that there is nothing, which
each backend words in its own way. -/
inductive ReadIn (text : String) : Outcome RunResult → Prop where
  | exactly : ReadIn text (readResult text)
  | reworded {e : Failure} (h : readResult text = .error e) (why : String) :
      ReadIn text (.error (.unreadable why))

/-- Two answers that were read in one output have the same result, or there is none in either. -/
theorem ReadIn.alike {text : String} {a b : Outcome RunResult} (ha : ReadIn text a)
    (hb : ReadIn text b) :
    (∃ result, a = .ok result ∧ b = .ok result) ∨
      ∃ why why', a = .error (.unreadable why) ∧ b = .error (.unreadable why') := by
  cases hread : readResult text with
  | ok result =>
    have hok {x : Outcome RunResult} (hx : ReadIn text x) : x = .ok result := by
      cases hx with
      | exactly => exact hread
      | reworded h => cases hread.symm.trans h
    exact .inl ⟨result, hok ha, hok hb⟩
  | error e =>
    obtain ⟨reason, rfl⟩ := readResult_error hread
    have herror {x : Outcome RunResult} (hx : ReadIn text x) :
        ∃ why, x = .error (.unreadable why) := by
      cases hx with
      | exactly => exact ⟨reason, hread⟩
      | reworded _ why => exact ⟨why, rfl⟩
    obtain ⟨why, hwhy⟩ := herror ha
    obtain ⟨why', hwhy'⟩ := herror hb
    exact .inr ⟨why, why', hwhy, hwhy'⟩

/-! ## The end of a container -/

namespace Container

variable {s : Settings} {docker : Command} {name stdout stderr : String} {r : Request}
  {c : Connection}

theorem interpret_zero : interpret s name (.code 0) stdout stderr = readResult stdout := by
  cases hread : readResult stdout with
  | ok result => simp [interpret, runtimeExits, killedExit, readOutput, hread]
  | error e => simp [interpret, runtimeExits, killedExit, readOutput, hread, Exit.succeeded]

/-- An exit of the runner's own leaves its output to be read. -/
theorem interpret_own {n : Nat} (h : n ∉ killedExit :: runtimeExits) :
    ReadIn stdout (interpret s name (.code n) stdout stderr) := by
  rw [List.mem_cons, not_or] at h
  obtain ⟨hkilled, hruntime⟩ := h
  have hinterpret : interpret s name (.code n) stdout stderr
      = readOutput (.code n) stdout stderr := by
    rw [interpret, if_neg (by simpa using hruntime), if_neg hkilled]
  rw [hinterpret]
  unfold readOutput
  split
  · rename_i hread
    rw [← hread]
    exact .exactly
  · rename_i e hread
    split
    · rw [← hread]
      exact .exactly
    · exact .reworded hread _

theorem interpret_killed (s : Settings) (name stdout stderr : String) :
    ∃ why, interpret s name (.code killedExit) stdout stderr = .error (.ceiling why) :=
  ⟨_, rfl⟩

/-- A container that ended in time, with an exit code and what it printed. -/
def Ended (s : Settings) (docker : Command) (name : String) (r : Request) (c : Connection)
    (exit : Nat) (output : List UInt8) : Prop :=
  ∀ args, arguments s name r = .ok args → ∃ stderr ms,
    docker c.log ⟨args, some r.text⟩ = .ended (.code exit) output stderr ms ∧
      ms < r.seconds * 1000

theorem dispatch_of_ended {exit : Nat} {output : List UInt8}
    (hid : Naming.isDatasetId r.datasetId = true) (h : Ended s docker name r c exit output) :
    ∃ stderr, (dispatch s docker name r c).1
      = interpret s name (.code exit) (Text.ofBytes output) stderr := by
  obtain ⟨args, hargs⟩ := exists_arguments s name hid
  obtain ⟨stderr, ms, hreply, hearly⟩ := h args hargs
  refine ⟨Text.ofBytes stderr, ?_⟩
  simp only [dispatch, hargs, Command.ask, hreply, if_pos hearly]

end Container

/-! ## The end of a job -/

namespace Cluster

/-- An exchange that says that a container was killed for its use of memory. -/
def SaysOutOfMemory (x : Exchange) : Prop :=
  ∃ stdout stderr ms v, x.reply = .ended (.code 0) stdout stderr ms ∧
    Value.parse (Text.ofBytes stdout) = .ok v ∧ anyOutOfMemory v = true

/-- How a job ended: its phase, whether it was killed for its use of memory, and its log. -/
structure JobEnd where
  phase : JobPhase
  outOfMemory : Bool
  log : List UInt8

/-- The failure of a job that the cluster ended because its time was over. -/
def deadlineReason : Option String := some "DeadlineExceeded"

/-- How a job that ended in time is answered. -/
structure JobEnd.Answered (e : JobEnd) (r : Outcome RunResult) : Prop where
  succeeded : e.phase = .succeeded → r = readResult (Text.ofBytes e.log)
  failed : ∀ reason, e.phase = .failed reason → reason ≠ deadlineReason →
    e.outOfMemory = false → ReadIn (Text.ofBytes e.log) r
  killed : ∀ reason, e.phase = .failed reason → reason ≠ deadlineReason →
    e.outOfMemory = true → ∃ why, r = .error (.ceiling why)

namespace Job

/-- An exchange as it is where a job comes to an end: what is applied is accepted, the job is active
until it is in its last phase, its pods say whether it was killed, and its log can be read. -/
structure Shows (j : Job) (e : JobEnd) (x : Exchange) : Prop where
  applied : x.call.verb = some "apply" →
    ∃ stdout stderr ms, x.reply = .ended (.code 0) stdout stderr ms
  polled : x.call = j.pollCall → Reports x .active ∨ Reports x e.phase
  pods : x.call = j.podsCall → (SaysOutOfMemory x ↔ e.outOfMemory = true)
  logged : x.call = j.logCall → ∃ stderr ms, x.reply = .ended (.code 0) e.log stderr ms

/-- From a state of a run on, a part of it exchanges something and takes time, and it answers as
expected if every exchange is as assumed and the time of the run is not over. -/
structure Yields {α : Type} (j : Job) (A : Exchange → Prop) (p : Progress)
    (out : Outcome α × Progress) (expected : Outcome α → Prop) : Prop where
  later : p.elapsed ≤ out.2.elapsed
  answer : ∃ xs, out.2.connection.log = p.connection.log ++ xs ∧
    ((∀ x ∈ xs, A x) → out.2.elapsed < j.deadline → expected out.1)

namespace Yields

variable {α β : Type} {j : Job} {A : Exchange → Prop} {p : Progress} {out : Outcome α × Progress}
  {out' : Outcome β × Progress} {Q Q' : Outcome α → Prop} {R : Outcome β → Prop}

/-- What exchanges nothing and takes no time. -/
theorem of_answer {r : Outcome α} (h : p.elapsed < j.deadline → Q r) : Yields j A p (r, p) Q :=
  ⟨Nat.le_refl _, [], (List.append_nil _).symm, fun _ hearly => h hearly⟩

/-- What exchanges nothing and takes some time. -/
theorem of_wait {r : Outcome α} (ms : Nat) (h : p.elapsed + ms < j.deadline → Q r) :
    Yields j A p (r, { p with elapsed := p.elapsed + ms }) Q :=
  ⟨Nat.le_add_right _ _, [], (List.append_nil _).symm, fun _ hearly => h hearly⟩

theorem imp (h : Yields j A p out Q) (himp : Q out.1 → Q' out.1) : Yields j A p out Q' := by
  obtain ⟨hlater, xs, hlog, hanswer⟩ := h
  exact ⟨hlater, xs, hlog, fun hx hearly => himp (hanswer hx hearly)⟩

/-- What is said of every answer needs nothing of the exchanges. -/
theorem of_forall (h : Yields j A p out Q) {A' : Exchange → Prop} (hQ' : Q' out.1) :
    Yields j A' p out Q' := by
  obtain ⟨hlater, xs, hlog, -⟩ := h
  exact ⟨hlater, xs, hlog, fun _ _ => hQ'⟩

/-- One part behind another one, which may rely on the answer of the first. -/
theorem bind (h : Yields j A p out Q) (h' : Yields j A out.2 out' fun r => Q out.1 → R r) :
    Yields j A p out' R := by
  obtain ⟨hlater, xs, hlog, hanswer⟩ := h
  obtain ⟨hlater', ys, hlog', hanswer'⟩ := h'
  refine ⟨Nat.le_trans hlater hlater', xs ++ ys, ?_, fun hxs hearly => ?_⟩
  · rw [hlog', hlog, List.append_assoc]
  · obtain ⟨hxs, hys⟩ := List.forall_mem_append.mp hxs
    exact hanswer' hys hearly (hanswer hxs (Nat.lt_of_le_of_lt hlater' hearly))

end Yields

variable {j : Job} {e : JobEnd}

/-- A call that succeeds prints something. -/
theorem kubectl_yields {A : Exchange → Prop} (R : List UInt8 → Prop) (verb : String)
    (args : List String) (input : Option String)
    (hA : ∀ x, x.call = j.call (verb :: args) input → A x →
      ∃ stdout stderr ms, x.reply = .ended (.code 0) stdout stderr ms ∧ R stdout) (p : Progress) :
    Yields j A p (j.kubectl verb args input p) fun r =>
      ∃ stdout, r = .ok (Text.ofBytes stdout) ∧ R stdout := by
  obtain ⟨x, hcall, hkubectl⟩ := j.kubectl_eq verb args input p
  rw [hkubectl]
  refine ⟨Nat.le_add_right _ _, [x], rfl, fun hx hearly => ?_⟩
  obtain ⟨stdout, stderr, ms, hreply, hR⟩ := hA x hcall (hx x (List.mem_singleton_self x))
  refine ⟨stdout, ?_, hR⟩
  simp only at hearly ⊢
  rw [hreply] at hearly ⊢
  rw [readReply, if_neg (Nat.not_le.mpr hearly)]
  rfl

theorem apply_yields (manifest : Value) (p : Progress) :
    Yields j (j.Shows e) p (j.apply manifest p) (· = .ok ()) := by
  have hcall := kubectl_yields (j := j) (A := j.Shows e) (fun _ => True) "apply" ["-f", "-"]
    (some (manifestText manifest)) (fun x hx hshows => by
      obtain ⟨stdout, stderr, ms, hreply⟩ := hshows.applied (by rw [hx]; rfl)
      exact ⟨stdout, stderr, ms, hreply, trivial⟩) p
  rw [apply]
  rcases hkubectl : j.kubectl "apply" ["-f", "-"] (some (manifestText manifest)) p with ⟨r, q⟩
  rw [hkubectl] at hcall
  refine hcall.bind (.of_answer fun _ => ?_)
  rintro ⟨stdout, rfl, -⟩
  rfl

theorem guardNetwork_yields (p : Progress) :
    Yields j (j.Shows e) p (j.guardNetwork p) (· = .ok ()) := by
  unfold guardNetwork
  split
  · exact .of_answer fun _ => rfl
  · have happly := apply_yields (j := j) (e := e) (networkPolicy j.settings) p
    split <;> rename_i hr <;> rw [hr] at happly
    · exact ⟨happly.later, happly.answer⟩
    · exact happly

/-- A poll finds the job active or in its last phase. -/
theorem poll_yields (p : Progress) :
    Yields j (j.Shows e) p (j.poll p) fun r => r = .ok .active ∨ r = .ok e.phase := by
  have hcall := kubectl_yields (j := j) (A := j.Shows e)
    (fun stdout => ∃ v, Value.parse (Text.ofBytes stdout) = .ok v ∧
      (phaseOf v = .active ∨ phaseOf v = e.phase))
    "get" ["job", j.name, "-o", "json"] none (fun x hx hshows => by
      obtain ⟨stdout, stderr, ms, v, hreply, hparse, hphase⟩ |
        ⟨stdout, stderr, ms, v, hreply, hparse, hphase⟩ := hshows.polled hx
      · exact ⟨stdout, stderr, ms, hreply, v, hparse, .inl hphase⟩
      · exact ⟨stdout, stderr, ms, hreply, v, hparse, .inr hphase⟩) p
  rw [poll]
  rcases hkubectl : j.kubectl "get" ["job", j.name, "-o", "json"] none p with ⟨r, q⟩
  rw [hkubectl] at hcall
  cases r with
  | error f =>
    refine hcall.bind (.of_answer fun _ => ?_)
    rintro ⟨_, hr, -⟩
    cases hr
  | ok text =>
    simp only
    split
    · rename_i v hparse
      refine hcall.bind (.of_answer fun _ => ?_)
      rintro ⟨stdout, htext, v', hparse', hphase⟩
      obtain rfl := Except.ok.inj htext
      cases hparse.symm.trans hparse'
      exact hphase.imp (congrArg Except.ok) (congrArg Except.ok)
    · rename_i f hparse
      refine hcall.bind (.of_answer fun _ => ?_)
      rintro ⟨stdout, htext, v, hparse', -⟩
      obtain rfl := Except.ok.inj htext
      cases hparse.symm.trans hparse'

/-- Polling ends with the last phase of the job: every pause takes a millisecond at least, so the
polls do not run out before the time does. -/
theorem pollUntilDone_yields (polls : Nat) (p : Progress)
    (hpolls : j.deadline < p.elapsed + polls) :
    Yields j (j.Shows e) p (j.pollUntilDone polls p) (· = .ok e.phase) := by
  induction polls generalizing p with
  | zero => exact .of_answer fun hearly => absurd hpolls (Nat.lt_asymm hearly)
  | succ polls ih =>
    have hpoll := poll_yields (j := j) (e := e) p
    rw [pollUntilDone]
    split
    · rename_i q hactive
      rw [hactive] at hpoll
      have hpause : 1 ≤ j.pollPause := Nat.le_max_right _ _
      have hlater : p.elapsed ≤ q.elapsed := hpoll.later
      simp only
      split
      · rename_i hlate
        exact hpoll.bind (.of_wait j.pollPause fun hearly => absurd hlate (Nat.not_le.mpr hearly))
      · -- One poll less is left, but the run is older by a millisecond at least.
        have hrest := ih { q with elapsed := q.elapsed + j.pollPause } (by simp only; omega)
        have hwait : Yields j (j.Shows e) q
            ((.ok (), { q with elapsed := q.elapsed + j.pollPause }) : Outcome Unit × Progress)
            fun _ => True := .of_wait j.pollPause fun _ => trivial
        exact hpoll.bind (hwait.bind (hrest.imp fun hr _ _ => hr))
    · rename_i hactive
      refine hpoll.imp fun hr => hr.resolve_left fun hr => ?_
      exact hactive _ (Prod.ext hr rfl)

/-- A reply that came in time and is not believed is that of a call that did not succeed. -/
theorem readReply_eq_error {verb : String} {elapsed : Nat} {reply : Reply} {f : Failure}
    (hearly : elapsed < j.deadline) (h : j.readReply verb elapsed reply = .error f) :
    (∃ reason, f = .dispatch reason) ∧
      ∀ stdout stderr ms, reply ≠ .ended (.code 0) stdout stderr ms := by
  unfold readReply at h
  split at h
  · cases h
    exact ⟨⟨_, rfl⟩, nofun⟩
  · rename_i exit stdout stderr ms
    rw [if_neg (Nat.not_le.mpr hearly)] at h
    split at h
    · cases h
    · rename_i hfailed
      cases h
      refine ⟨⟨_, rfl⟩, ?_⟩
      rintro _ _ _ ⟨⟩
      exact hfailed rfl

/-- The pods say whether the job was killed for its use of memory. -/
theorem outOfMemory_yields (p : Progress) :
    Yields j (j.Shows e) p (j.outOfMemory p) (· = .ok e.outOfMemory) := by
  obtain ⟨x, hcall, hkubectl⟩ :=
    j.kubectl_eq "get" ["pods", "-l", "job-name=" ++ j.name, "-o", "json"] none p
  have hone {r : Outcome Bool}
      (h : p.elapsed + took x.reply < j.deadline → (SaysOutOfMemory x ↔ e.outOfMemory = true) →
        r = .ok e.outOfMemory) :
      Yields j (j.Shows e) p (r, ⟨p.connection.grown [x], p.elapsed + took x.reply⟩)
        (· = .ok e.outOfMemory) :=
    ⟨Nat.le_add_right _ _, [x], rfl, fun hx hearly =>
      h hearly ((hx x (List.mem_singleton_self x)).pods hcall)⟩
  rw [outOfMemory, hkubectl]
  cases hread : j.readReply "get" (p.elapsed + took x.reply) x.reply with
  | error f =>
    split <;> rename_i hout <;> cases hout
    · refine hone fun hearly _ => ?_
      obtain ⟨⟨_, hdispatch⟩, -⟩ := readReply_eq_error hearly hread
      cases hdispatch
    · -- A call that fails says nothing of the pods, and then the job was not killed.
      refine hone fun hearly hpods => ?_
      obtain ⟨-, hreply⟩ := readReply_eq_error hearly hread
      have hsilent : ¬ SaysOutOfMemory x := fun ⟨_, _, _, _, hkilled, _⟩ => hreply _ _ _ hkilled
      rw [hpods, Bool.not_eq_true] at hsilent
      rw [hsilent]
  | ok text =>
    refine hone fun _ hpods => ?_
    obtain ⟨stdout, stderr, ms, hreply, rfl, -⟩ := readReply_eq_ok hread
    have hkilled : SaysOutOfMemory x ↔
        (Value.parse (Text.ofBytes stdout)).toOption.any anyOutOfMemory = true := by
      constructor
      · rintro ⟨_, _, _, v, hkilled, hparse, hv⟩
        cases hreply.symm.trans hkilled
        rw [hparse]
        exact hv
      · intro hany
        cases hparse : Value.parse (Text.ofBytes stdout) with
        | error _ =>
          rw [hparse] at hany
          cases hany
        | ok v =>
          rw [hparse] at hany
          exact ⟨stdout, stderr, ms, v, hreply, hparse, hany⟩
    rw [Bool.eq_iff_iff.mpr (hkilled.symm.trans hpods)]

/-- The log is read for a result. -/
theorem readLog_yields (p : Progress) :
    Yields j (j.Shows e) p (j.readLog e.phase p) fun r => ReadIn (Text.ofBytes e.log) r ∧
      (e.phase = .succeeded → r = readResult (Text.ofBytes e.log)) := by
  have hprinted := kubectl_yields (j := j) (A := j.Shows e) (· = e.log) "logs"
    ["job/" ++ j.name, "-c", containerName] none (fun x hx hshows => by
      obtain ⟨stderr, ms, hreply⟩ := hshows.logged hx
      exact ⟨e.log, stderr, ms, hreply, rfl⟩) p
  have hcall : Yields j (j.Shows e) p
      (j.kubectl "logs" ["job/" ++ j.name, "-c", containerName] none p)
      (· = .ok (Text.ofBytes e.log)) :=
    hprinted.imp fun ⟨_, hr, hlog⟩ => hlog ▸ hr
  rw [readLog]
  rcases hkubectl : j.kubectl "logs" ["job/" ++ j.name, "-c", containerName] none p with ⟨r, q⟩
  rw [hkubectl] at hcall
  cases r with
  | error f => exact hcall.bind (.of_answer fun _ hr => by cases hr)
  | ok text =>
    simp only
    split
    · rename_i result hread
      refine hcall.bind (.of_answer fun _ htext => ?_)
      cases htext
      rw [← hread]
      exact ⟨.exactly, fun _ => rfl⟩
    · rename_i f hread
      split
      · rename_i hsucceeded
        refine hcall.bind (.of_answer fun _ htext => ?_)
        cases htext
        rw [← hread]
        exact ⟨.exactly, fun _ => rfl⟩
      · rename_i hfailed
        refine hcall.bind (.of_answer fun _ htext => ?_)
        cases htext
        exact ⟨.reworded hread _, fun hsucceeded => absurd hsucceeded hfailed⟩

/-- A job that is done is answered by its phase, its pods and its log. -/
theorem collect_yields (p : Progress) :
    Yields j (j.Shows e) p (j.collect e.phase p) e.Answered := by
  unfold collect
  split
  · rename_i hphase
    have hdeadline {reason : Option String} (h : e.phase = .failed reason) :
        reason = deadlineReason :=
      JobPhase.failed.inj (h.symm.trans hphase)
    refine .of_answer fun _ => ⟨fun h => ?_, fun _ h hreason => ?_, fun _ h hreason => ?_⟩
    · cases hphase.symm.trans h
    · exact absurd (hdeadline h) hreason
    · exact absurd (hdeadline h) hreason
  · rename_i reason hreason hphase
    have hpods := outOfMemory_yields (j := j) (e := e) p
    have hfailed {r : Outcome RunResult}
        (h : e.outOfMemory = false → ReadIn (Text.ofBytes e.log) r)
        (h' : e.outOfMemory = true → ∃ why, r = .error (.ceiling why)) : e.Answered r :=
      { succeeded := fun h => by cases hphase.symm.trans h
        failed := fun _ _ _ => h
        killed := fun _ _ _ => h' }
    split <;> rename_i q hout <;> rw [hout] at hpods
    · exact hpods.bind (.of_answer fun _ h => by cases h)
    · refine hpods.bind (.of_answer fun _ h => hfailed (fun hmemory => ?_) fun _ => ⟨_, rfl⟩)
      cases h.trans (congrArg Except.ok hmemory)
    · refine hpods.bind ((readLog_yields q).imp fun hlog h => hfailed (fun _ => hlog.1) ?_)
      intro hmemory
      cases h.trans (congrArg Except.ok hmemory)
  · rename_i hreason hfailed
    refine (readLog_yields p).imp fun hlog => ⟨hlog.2, ?_, ?_⟩
    · exact fun reason h => absurd h (hfailed reason)
    · exact fun reason h => absurd h (hfailed reason)

/-- **What a run answers.** -/
theorem run_yields (manifest : Value) (p : Progress) :
    Yields j (j.Shows e) p (j.run manifest p) e.Answered := by
  have hguard := guardNetwork_yields (j := j) (e := e) p
  rw [run]
  rcases hguarded : j.guardNetwork p with ⟨r, p₁⟩
  rw [hguarded] at hguard
  cases r with
  | error f => exact hguard.bind (.of_answer fun _ h => by cases h)
  | ok _ =>
  have happly := apply_yields (j := j) (e := e) manifest p₁
  simp only
  rcases happlied : j.apply manifest p₁ with ⟨r, p₂⟩
  rw [happlied] at happly
  cases r with
  | error f => exact hguard.bind (happly.bind (.of_answer fun _ h => by cases h))
  | ok _ =>
  have hwait := pollUntilDone_yields (j := j) (e := e) (j.deadline + 1) p₂ (by omega)
  rw [← await] at hwait
  simp only
  rcases hawaited : j.await p₂ with ⟨r, p₃⟩
  rw [hawaited] at hwait
  cases r with
  | error f => exact hguard.bind (happly.bind (hwait.bind (.of_answer fun _ h => by cases h)))
  | ok phase =>
  -- The phase is that of `e` only if the exchanges are as assumed, so what follows is looked at for
  -- the phase that was found.
  have hcollect := collect_yields (j := j) (e := { e with phase }) p₃
  by_cases hphase : phase = e.phase
  · subst hphase
    exact hguard.bind (happly.bind (hwait.bind (hcollect.imp fun h _ _ _ => h)))
  · exact hguard.bind (happly.bind (hwait.bind
      (hcollect.of_forall fun h => absurd (Except.ok.inj h) hphase)))

end Job

variable {t : Settings} {kubectl : Command} {name : String} {r : Request} {c : Connection}
  {e : JobEnd}

/-- A job that came to an end in time: every exchange of its dispatch shows that end, and the run
took less than the time that it may take. -/
structure Ended (t : Settings) (kubectl : Command) (name : String) (r : Request) (c : Connection)
    (e : JobEnd) : Prop where
  exchanges : ∀ x ∈ (dispatch t kubectl name r c).2.log.drop c.log.length,
    Job.Shows ⟨t, kubectl, name, r⟩ e x
  inTime : ∀ manifest, job t name r = .ok manifest →
    (Job.run ⟨t, kubectl, name, r⟩ manifest ⟨c, 0⟩).2.elapsed < r.seconds * 1000

/-- A job that came to an end in time is answered by that end. -/
theorem Ended.answered (h : Ended t kubectl name r c e)
    (hid : Naming.isDatasetId r.datasetId = true) :
    e.Answered (dispatch t kubectl name r c).1 := by
  obtain ⟨manifest, hmanifest⟩ := exists_job t name hid
  obtain ⟨-, xs, hlog, hanswer⟩ :=
    Job.run_yields (j := ⟨t, kubectl, name, r⟩) (e := e) manifest ⟨c, 0⟩
  have hdispatch : (dispatch t kubectl name r c).1
      = (Job.run ⟨t, kubectl, name, r⟩ manifest ⟨c, 0⟩).1 := by
    simp only [dispatch, hmanifest]
  rw [hdispatch]
  refine hanswer (fun x hx => h.exchanges x ?_) (h.inTime manifest hmanifest)
  -- The deletion is behind everything that the run exchanged.
  have hdropped : xs <+: (dispatch t kubectl name r c).2.log.drop c.log.length := by
    simp only [dispatch, hmanifest, Job.delete, Command.ask, hlog, List.append_assoc,
      List.drop_left]
    exact List.prefix_append _ _
  exact hdropped.subset hx

end Cluster

/-! ## One answer -/

namespace Settings

/-- Dispatches of one request that the caller cannot tell apart, on a container backend and on a
cluster backend. -/
structure Indistinguishable (s t : Settings) (docker kubectl : Command) (name name' : String)
    (r : Request) (c c' : Connection) (a b : Except Crash (Outcome RunResult)) : Prop where
  /-- A runner that succeeded is answered by its output: by the same result, or the same failure. -/
  succeeded : ∀ output memory, Container.Ended s docker name r c 0 output →
    Cluster.Ended t kubectl name' r c' ⟨.succeeded, memory, output⟩ →
    ∃ answer, a = .ok answer ∧ b = .ok answer ∧
      ((∃ result, answer = .ok result) ∨ ∃ why, answer = .error (.unreadable why))
  /-- A runner that failed is answered by its output as well, but a failure may be worded
  differently. -/
  failed : ∀ exit reason output, exit ≠ 0 → exit ∉ Container.killedExit :: Container.runtimeExits →
    reason ≠ Cluster.deadlineReason → Container.Ended s docker name r c exit output →
    Cluster.Ended t kubectl name' r c' ⟨.failed reason, false, output⟩ →
    (∃ result, a = .ok (.ok result) ∧ b = .ok (.ok result)) ∨
      ∃ why why', a = .ok (.error (.unreadable why)) ∧ b = .ok (.error (.unreadable why'))
  /-- A container that was killed failed at a ceiling, whatever it printed. -/
  killed : ∀ output, Container.Ended s docker name r c Container.killedExit output →
    ∃ why, a = .ok (.error (.ceiling why))
  /-- A job that was killed for its use of memory failed at a ceiling, whatever its log holds. -/
  outOfMemory : ∀ reason output, reason ≠ Cluster.deadlineReason →
    Cluster.Ended t kubectl name' r c' ⟨.failed reason, true, output⟩ →
    ∃ why, b = .ok (.error (.ceiling why))

variable {s t : Settings}

theorem dispatchAt_container (docker : Command) (hmode : s.mode = .container) (name : String)
    {startMs : Nat} {r : Request} (c : Connection) (h : beyondClock startMs r = false) :
    (s.dispatchAt docker name startMs r c).1 = .ok (Container.dispatch s docker name r c).1 := by
  rw [dispatchAt, h, if_neg (by decide), dispatch, hmode]

/-- **The two backends answer alike.** A caller cannot tell from the answer to a request whether it
was run in a container or as a job, as long as no time is over. A time that ends beyond the clock is
over before anything is run: both backends break off. -/
theorem dispatchAt_alike (hs : s.mode = .container) (ht : t.mode = .clusterJob)
    (docker kubectl : Command) (name name' : String) (startMs startMs' : Nat) (r : Request)
    (c c' : Connection) (hid : Naming.isDatasetId r.datasetId = true) :
    (beyondClock startMs r = false → beyondClock startMs' r = false →
      Indistinguishable s t docker kubectl name name' r c c'
        (s.dispatchAt docker name startMs r c).1 (t.dispatchAt kubectl name' startMs' r c').1) ∧
    (beyondClock startMs r = true → beyondClock startMs' r = true →
      (s.dispatchAt docker name startMs r c).1 = .error .deadlineBeyondClock ∧
        (t.dispatchAt kubectl name' startMs' r c').1 = .error .deadlineBeyondClock) := by
  refine ⟨fun hshown hshown' => ?_, fun hbeyond hbeyond' => ?_⟩
  · rw [dispatchAt_container docker hs name c hshown,
      dispatchAt_of_not_beyondClock kubectl ht name' c' hshown']
    refine ⟨fun output memory hdocker hjob => ?_,
      fun exit reason output _ hexit hreason hdocker hjob => ?_, fun output hdocker => ?_,
      fun reason output hreason hjob => ?_⟩
    · obtain ⟨stderr, hcontainer⟩ := Container.dispatch_of_ended hid hdocker
      rw [Container.interpret_zero] at hcontainer
      refine ⟨_, congrArg Except.ok hcontainer,
        congrArg Except.ok ((hjob.answered hid).succeeded rfl), ?_⟩
      exact (ReadIn.exactly.alike .exactly).imp (fun ⟨result, h, _⟩ => ⟨result, h⟩)
        fun ⟨why, _, h, _⟩ => ⟨why, h⟩
    · obtain ⟨stderr, hcontainer⟩ := Container.dispatch_of_ended hid hdocker
      rw [hcontainer]
      have hread := (hjob.answered hid).failed reason rfl hreason rfl
      exact ((Container.interpret_own hexit).alike hread).imp
        (fun ⟨result, h, h'⟩ => ⟨result, congrArg _ h, congrArg _ h'⟩)
        fun ⟨why, why', h, h'⟩ => ⟨why, why', congrArg _ h, congrArg _ h'⟩
    · obtain ⟨stderr, hcontainer⟩ := Container.dispatch_of_ended hid hdocker
      obtain ⟨why, hkilled⟩ := Container.interpret_killed s name (Text.ofBytes output) stderr
      exact ⟨why, congrArg _ (hcontainer.trans hkilled)⟩
    · obtain ⟨why, hkilled⟩ := (hjob.answered hid).killed reason rfl hreason rfl
      exact ⟨why, congrArg _ hkilled⟩
  · rw [dispatchAt_of_beyondClock hbeyond, dispatchAt_of_beyondClock hbeyond']
    exact ⟨rfl, rfl⟩

/-- A program that prints a text and exits. -/
def exitingCommand (exit : Nat) (text : String) : Command := fun _ _ =>
  .ended (.code exit) text.toUTF8.toList [] 5

/-- A cluster that prints a text about every job, one about the pods of every job, and a log. -/
def finishedCluster (status pods log : String) : Command := fun _ call =>
  let text := match call.args.drop 2 with
    | "get" :: "job" :: _ => status
    | "get" :: _ => pods
    | "logs" :: _ => log
    | _ => ""
  .ended (.code 0) text.toUTF8.toList [] 1

/-- A cluster shows the end that its texts tell of. -/
theorem shows_finishedCluster {j : Cluster.Job} {status pods log : String}
    {phase : Cluster.JobPhase} {memory : Bool} {x : Exchange}
    (hx : x.reply = finishedCluster status pods log [] x.call)
    (hstatus : (Json.Value.parse (Text.ofBytes status.toUTF8.toList)).toOption.map Cluster.phaseOf
      = some phase)
    (hpods : (Json.Value.parse (Text.ofBytes pods.toUTF8.toList)).toOption.any
      Cluster.anyOutOfMemory = memory) :
    j.Shows ⟨phase, memory, log.toUTF8.toList⟩ x where
  applied _ := ⟨_, _, _, hx⟩
  polled hcall := by
    rw [hcall] at hx
    cases hparse : Json.Value.parse (Text.ofBytes status.toUTF8.toList) with
    | error f =>
      rw [hparse] at hstatus
      cases hstatus
    | ok v =>
      rw [hparse] at hstatus
      exact .inr ⟨_, _, _, v, hx, hparse, Option.some.inj hstatus⟩
  pods hcall := by
    rw [hcall] at hx
    subst hpods
    constructor
    · rintro ⟨stdout, stderr, ms, v, hreply, hparse, hv⟩
      cases hx.symm.trans hreply
      have hprinted : Json.Value.parse (Text.ofBytes pods.toUTF8.toList) = .ok v := hparse
      rw [hprinted]
      exact hv
    · intro hany
      cases hparse : Json.Value.parse (Text.ofBytes pods.toUTF8.toList) with
      | error f =>
        rw [hparse] at hany
        cases hany
      | ok v =>
        rw [hparse] at hany
        exact ⟨_, _, _, v, hx, hparse, hany⟩
  logged hcall := by
    rw [hcall] at hx
    exact ⟨_, _, hx⟩

/-- A container of this program ends in time if the run may take longer than the program does. -/
theorem ended_exitingCommand (exit : Nat) (text : String) {r : Request}
    (h : 5 < r.seconds * 1000) :
    Container.Ended .default (exitingCommand exit text) "sqlsandbox-0" r .fresh exit
      text.toUTF8.toList :=
  fun _ _ => ⟨_, _, rfl, h⟩

theorem ended_finishedCluster (status pods log : String) (r : Request) {phase : Cluster.JobPhase}
    {memory : Bool}
    (hstatus : (Json.Value.parse (Text.ofBytes status.toUTF8.toList)).toOption.map Cluster.phaseOf
      = some phase)
    (hpods : (Json.Value.parse (Text.ofBytes pods.toUTF8.toList)).toOption.any
      Cluster.anyOutOfMemory = memory)
    (hreplies : ∀ x ∈ (Cluster.dispatch clusterSettings (finishedCluster status pods log)
      "sqlsandbox-1" r .fresh).2.log, x.reply = finishedCluster status pods log [] x.call)
    (htime : (Cluster.job clusterSettings "sqlsandbox-1" r).toOption.all (fun manifest =>
      (Cluster.Job.run ⟨clusterSettings, finishedCluster status pods log, "sqlsandbox-1", r⟩
        manifest ⟨.fresh, 0⟩).2.elapsed < r.seconds * 1000) = true) :
    Cluster.Ended clusterSettings (finishedCluster status pods log) "sqlsandbox-1" r .fresh
      ⟨phase, memory, log.toUTF8.toList⟩ where
  exchanges x hx := shows_finishedCluster (hreplies x hx) hstatus hpods
  inTime manifest hmanifest := by
    rw [hmanifest, Except.toOption, Option.all_some] at htime
    exact of_decide_eq_true htime

/-- A result of one row, as a runner prints it. -/
def oneRowText : String :=
  "\x7b\"status\":\"success\",\"columns\":[\"a\"],\"rows\":[[1]],\"row_count\":1\x7d"

def succeededStatus : String := "\x7b\"status\":\x7b\"succeeded\":1\x7d\x7d"

def failedStatus : String := "\x7b\"status\":\x7b\"failed\":1\x7d\x7d"

/-- A runner that succeeds is answered by one row, from either backend; one that fails without a
word is answered as unreadable. -/
theorem dispatchAt_alike_oneRow :
    (∃ answer, (Settings.default.dispatchAt (exitingCommand 0 oneRowText) "sqlsandbox-0" 0
        (errandOf 5).request .fresh).1 = .ok answer ∧ answer.isOk = true ∧
      (clusterSettings.dispatchAt (finishedCluster succeededStatus "" oneRowText) "sqlsandbox-1" 0
        (errandOf 5).request .fresh).1 = .ok answer) ∧
    ∃ why why', (Settings.default.dispatchAt (exitingCommand 1 "") "sqlsandbox-0" 0
        (errandOf 5).request .fresh).1 = .ok (.error (.unreadable why)) ∧
      (clusterSettings.dispatchAt (finishedCluster failedStatus "" "") "sqlsandbox-1" 0
        (errandOf 5).request .fresh).1 = .ok (.error (.unreadable why')) := by
  have halike (docker kubectl : Command) :=
    (dispatchAt_alike (s := .default) (t := clusterSettings) rfl rfl docker kubectl "sqlsandbox-0"
      "sqlsandbox-1" 0 0 (errandOf 5).request .fresh .fresh (by decide)).1 (by decide) (by decide)
  constructor
  · obtain ⟨answer, ha, hb, -⟩ := (halike _ _).succeeded _ false
      (ended_exitingCommand 0 oneRowText (by decide))
      (ended_finishedCluster succeededStatus "" oneRowText _ (by decide +kernel)
        (by decide +kernel) (by decide +kernel) (by decide +kernel))
    have hread : (Settings.default.dispatchAt (exitingCommand 0 oneRowText) "sqlsandbox-0" 0
        (errandOf 5).request .fresh).1.toOption.any Except.isOk = true := by
      decide +kernel
    rw [ha] at hread
    exact ⟨answer, ha, hread, hb⟩
  · have hfailed := (halike _ _).failed 1 none _ (by decide) (by decide) nofun
      (ended_exitingCommand 1 "" (by decide))
      (ended_finishedCluster failedStatus "" "" _ (by decide +kernel) (by decide +kernel)
        (by decide +kernel) (by decide +kernel))
    refine hfailed.resolve_left ?_
    rintro ⟨result, ha, -⟩
    have hread : (Settings.default.dispatchAt (exitingCommand 1 "") "sqlsandbox-0" 0
        (errandOf 5).request .fresh).1.toOption.any Except.isOk = false := by
      decide +kernel
    rw [ha] at hread
    cases hread

/-- A time that ends beyond the clock leaves neither backend a result, although a container would
end with one and a job would succeed with one. -/
theorem dispatchAt_beyondClock_oneRow :
    Naming.isDatasetId (errandOf (2 ^ 64 - 1)).request.datasetId = true ∧
      Container.Ended .default (exitingCommand 0 oneRowText) "sqlsandbox-0"
        (errandOf (2 ^ 64 - 1)).request .fresh 0 oneRowText.toUTF8.toList ∧
      Cluster.Ended clusterSettings (finishedCluster succeededStatus "" oneRowText) "sqlsandbox-1"
        (errandOf (2 ^ 64 - 1)).request .fresh ⟨.succeeded, false, oneRowText.toUTF8.toList⟩ ∧
      (Settings.default.dispatchAt (exitingCommand 0 oneRowText) "sqlsandbox-0" 0
        (errandOf (2 ^ 64 - 1)).request .fresh).1 = .error .deadlineBeyondClock ∧
      (clusterSettings.dispatchAt (finishedCluster succeededStatus "" oneRowText) "sqlsandbox-1" 0
        (errandOf (2 ^ 64 - 1)).request .fresh).1 = .error .deadlineBeyondClock := by
  have hbeyond : beyondClock 0 (errandOf (2 ^ 64 - 1)).request = true := by decide
  refine ⟨by decide, ended_exitingCommand 0 oneRowText (by decide), ?_,
    congrArg Prod.fst (dispatchAt_of_beyondClock hbeyond),
    congrArg Prod.fst (dispatchAt_of_beyondClock hbeyond)⟩
  exact ended_finishedCluster succeededStatus "" oneRowText _ (by decide +kernel)
    (by decide +kernel) (by decide +kernel) (by decide +kernel)

end Settings

end Enclave
