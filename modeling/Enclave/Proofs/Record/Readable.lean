import Enclave.Proofs.Record.Directory

/-!
# Finished runs in a directory

A call that finishes a run leaves the document of the finished capsule in the file of the run. No
later call changes a file whose capsule has come to an end (`Settled.visits`), so a later `get`
reads just this document. It gives back the capsule (`finalized_found`), unless the result has a
cell of more than `Capsule.cellDepth` levels. Then the document cannot be read. Such results exist,
since a result that is found in an output may be nested one level deeper than one that a capsule
holds.
-/

namespace Enclave

open Json (Value)

namespace DirectoryStore

variable {s s' : DirectoryStore} {name text : String}

/-! ## Finishing a run -/

/-- What a call that finishes a run does: it reads a pending capsule from the file of the run and
writes the finished one there. -/
theorem finalize_eq_ok {runId : String} {v : Verdict} {now : Instant} {c : Capsule}
    (h : ops.finalize runId v now s = (.ok c, s')) :
    ∃ name text b, fileName runId = .ok name ∧ s.file? name = some (.text text) ∧
      Json.decodeText Capsule.decoder text = .ok b ∧ b.status.isTerminal = false ∧
      v.status.isTerminal = true ∧ c = v.closed b now ∧ s' = s.write name c.toJson.pretty := by
  change committed (finalize runId v now s) s = _ at h
  unfold finalize at h
  cases hname : fileName runId with
  | error e => simp [hname, committed, bind, Except.bind] at h
  | ok name =>
    cases hread : s.read name runId with
    | error e => simp [hname, hread, committed, bind, Except.bind] at h
    | ok b =>
      have hcases := @Capsule.finish_cases (fun _ => some b) runId b rfl v now
      rcases hcases with ⟨e, he, -⟩ | ⟨hfinish, hpending, hv⟩
      · simp [hname, hread, he, committed, bind, Except.bind] at h
      · simp only [hname, hread, hfinish, committed, bind, Except.bind, pure, Except.pure,
          Prod.mk.injEq, Except.ok.injEq] at h
        obtain ⟨rfl, rfl⟩ := h
        obtain ⟨text, hfile, hdecode⟩ := read_eq_ok hread
        exact ⟨name, text, b, rfl, hfile, hdecode, hpending, hv, rfl, rfl⟩

/-! ## What happens later -/

/-- A file whose capsule, if one can be read from it, has come to an end. -/
structure Settled (s : DirectoryStore) (name text : String) : Prop where
  file : s.file? name = some (.text text)
  ended : ∀ c, Json.decodeText Capsule.decoder text = .ok c → c.status.isTerminal = true

theorem Settled.write_other (h : s.Settled name text) {other : String} (hother : other ≠ name)
    (t : String) : (s.write other t).Settled name text :=
  ⟨by rw [file?_write, if_neg hother.symm, h.file], h.ended⟩

/-- No call changes a settled file. -/
theorem Settled.answer (h : s.Settled name text) (x : TimedCall) :
    (ops.answer x s).2.Settled name text := by
  obtain ⟨now, call⟩ := x
  cases call with
  | get runId => exact h
  | create c =>
    change (committed (create c s) s).2.Settled name text
    unfold create
    cases hname : fileName c.runId with
    | error e => exact h
    | ok other =>
      simp only [bind, Except.bind]
      split
      · exact h
      · rename_i hfree
        refine h.write_other ?_ _
        rintro rfl
        exact hfree (by rw [h.file]; rfl)
  | finalize runId v =>
    change (ops.finalize runId v now s).2.Settled name text
    cases hanswer : ops.finalize runId v now s with
    | mk a after =>
      cases a with
      | error e =>
        have hsame : (ops.finalize runId v now s).2 = s :=
          committed_error (congrArg Prod.fst hanswer)
        rw [hanswer] at hsame
        rw [hsame]
        exact h
      | ok c =>
        obtain ⟨other, t, b, -, hfile, hdecode, hpending, -, -, rfl⟩ := finalize_eq_ok hanswer
        refine h.write_other ?_ _
        -- The file that was finished held a pending capsule, so it is another one.
        rintro rfl
        obtain rfl : text = t := by simpa using h.file.symm.trans hfile
        exact absurd (h.ended b hdecode) (by simp [hpending])

/-- What happens to a directory: a call, or it is opened anew. -/
inductive Visit where
  | call (x : TimedCall)
  | reopen

/-- A directory after a visit. -/
def visit (s : DirectoryStore) : Visit → DirectoryStore
  | .call x => (ops.answer x s).2
  | .reopen => s.reopened

/-- A directory after some visits. -/
def visits (s : DirectoryStore) (later : List Visit) : DirectoryStore := later.foldl visit s

theorem Settled.visits (h : s.Settled name text) (later : List Visit) :
    (s.visits later).Settled name text := by
  induction later generalizing s with
  | nil => exact h
  | cons x later ih =>
    cases x with
    | call x => exact ih (h.answer x)
    | reopen => exact ih ⟨h.file, h.ended⟩

theorem fileName_congr {id runId : String} (h : RunId.canonical? id = RunId.canonical? runId)
    (hname : fileName runId = .ok name) : fileName id = .ok name := by
  unfold fileName at hname ⊢
  rw [h]
  split at hname
  · exact hname
  · cases hname

/-- After a run was finished, a `get` reads the document that was written. -/
theorem get_finalized {runId : String} {v : Verdict} {now : Instant} {c : Capsule}
    (h : ops.finalize runId v now s = (.ok c, s'))
    (hend : ∀ d, Json.decodeText Capsule.decoder c.toJson.pretty = .ok d →
      d.status.isTerminal = true)
    (later : List Visit) {id : String} (hid : RunId.canonical? id = RunId.canonical? runId) :
    get id (s'.visits later) = match Json.decodeText Capsule.decoder c.toJson.pretty with
      | .ok d => .ok d
      | .error m => .error (.json m.message) := by
  obtain ⟨name, text, b, hname, -, -, -, -, -, rfl⟩ := finalize_eq_ok h
  -- A document that cannot be read settles its file as well.
  have hsettled : (s.write name c.toJson.pretty).Settled name c.toJson.pretty :=
    ⟨by rw [file?_write, if_pos rfl], hend⟩
  have hfile := (hsettled.visits later).file
  rw [get, fileName_congr hid hname]
  change ((s.write name c.toJson.pretty).visits later).read name id = _
  cases hdecode : Json.decodeText Capsule.decoder c.toJson.pretty with
  | ok d => exact read_of_decodeText hfile hdecode id
  | error m => exact read_of_misfit hfile hdecode id

end DirectoryStore

/-! ## Results of runs -/

/-- A result whose cells are nested so deep at most that a capsule with it can be read. -/
def RunResult.FitsCapsule (r : RunResult) : Prop :=
  ∀ row ∈ r.rows, ∀ cell ∈ row, cell.nesting ≤ Capsule.cellDepth

namespace DirectoryStore

variable {text runId : String} {r : RunResult} {v : Verdict} {now : Instant} {c : Capsule}
  {s s' : DirectoryStore}

/-- What a run was finished with can be written, and its result is the one that was found. -/
theorem written_of_finalize (hv : v.result = some r) (hnow : now.Valid)
    (h : ops.finalize runId v now s = (.ok c, s')) :
    c.Written ∧ c.result = some r ∧ c.status.isTerminal = true := by
  obtain ⟨_, _, b, -, -, hdecode, -, hend, rfl, -⟩ := finalize_eq_ok h
  exact ⟨(Capsule.written_of_decodeText hdecode).closed v hnow, hv, hend⟩

/-- A result that fits is found by every later `get`. -/
theorem get_of_fitsCapsule (hread : readResult text = .ok r) (hv : v.result = some r)
    (hnow : now.Valid) (h : ops.finalize runId v now s = (.ok c, s')) (hdoubles : c.DoublesSurvive)
    (hfits : r.FitsCapsule) (later : List Visit) {id : String}
    (hid : RunId.canonical? id = RunId.canonical? runId) :
    get id (s'.visits later) = .ok c := by
  obtain ⟨hwritten, hresult, hend⟩ := written_of_finalize hv hnow h
  have hdocument : Json.decodeText Capsule.decoder c.toJson.pretty = .ok c := by
    refine hwritten.read_pretty (fun r' hr' => ?_) hdoubles fun r' hr' => ?_
    all_goals
      obtain rfl : r = r' := Option.some.inj (hresult.symm.trans hr')
    · exact stored_of_readResult hread
    · exact hfits
  rw [get_finalized h (fun d hd => ?_) later hid, hdocument]
  rw [hdocument] at hd
  cases hd
  exact hend

/-- A result that does not fit makes every later `get` fail. -/
theorem get_of_not_fitsCapsule (hread : readResult text = .ok r) (hv : v.result = some r)
    (hnow : now.Valid) (h : ops.finalize runId v now s = (.ok c, s')) (hdoubles : c.DoublesSurvive)
    (hdeep : ¬ r.FitsCapsule) (later : List Visit) {id : String}
    (hid : RunId.canonical? id = RunId.canonical? runId) :
    get id (s'.visits later) = .error (.json Json.Fault.recursionLimit.message) := by
  obtain ⟨hwritten, hresult, -⟩ := written_of_finalize hv hnow h
  have hdocument : Json.decodeText Capsule.decoder c.toJson.pretty
      = .error (.fault .recursionLimit) := by
    refine hwritten.read_pretty_deep (fun r' hr' => ?_) hdoubles ⟨r, hresult, ?_⟩
    · obtain rfl : r = r' := Option.some.inj (hresult.symm.trans hr')
      exact stored_of_readResult hread
    · simpa [RunResult.FitsCapsule] using hdeep
  rw [get_finalized h (fun d hd => ?_) later hid, hdocument]
  · rfl
  · rw [hdocument] at hd
    cases hd

end DirectoryStore

/-! ## The deepest cells -/

/-- Lists nested so deep. -/
def nestedList : Nat → Value
  | 0 => .null
  | n + 1 => .arr [nestedList n]

theorem nesting_nestedList (n : Nat) : (nestedList n).nesting = n := by
  induction n with
  | zero => rfl
  | succ n ih => simp [nestedList, Value.nesting, Value.itemNesting, ih]

theorem canonical_nestedList (n : Nat) : (nestedList n).canonical = nestedList n := by
  induction n with
  | zero => rfl
  | succ n ih => simp [nestedList, Value.canonical, Value.canonicalItems, ih]

theorem numbers_nestedList (n : Nat) : (nestedList n).numbers = [] := by
  induction n with
  | zero => rfl
  | succ n ih => simp [nestedList, Value.numbers, Json.itemNumbers, ih]

/-- A table of one such cell. -/
def nestedResult (n : Nat) : RunResult := .success ["a"] [[nestedList n]] 0

theorem rows_nestedResult (n : Nat) : (nestedResult n).rows = [[nestedList n]] := rfl

theorem carried_nestedResult {n : Nat} (h : n ≤ RunResult.cellDepth) :
    (nestedResult n).Carried where
  shape := ⟨rfl, by simp [nestedResult, RunResult.success], by rintro ⟨⟩⟩
  count := by simp [nestedResult, RunResult.success]
  time := by simp [nestedResult, RunResult.success]
  cells := by
    rw [rows_nestedResult]
    simpa using (⟨canonical_nestedList n, by rwa [nesting_nestedList],
      by simp [numbers_nestedList]⟩ : RunResult.ReadCell (nestedList n))
  doubles := by simp [RunResult.DoublesSurvive, rows_nestedResult, numbers_nestedList]

/-- Such a table is found in its line. -/
theorem readResult_nestedResult {n : Nat} (h : n ≤ RunResult.cellDepth) :
    readResult (nestedResult n).toJson.compact = .ok (nestedResult n) := by
  have hlines : readResult ((nestedResult n).amongLines [] []) = .ok (nestedResult n) :=
    (carried_nestedResult h).readResult_amongLines (by simp) (by simp)
  exact hlines

theorem fitsCapsule_nestedResult (n : Nat) :
    (nestedResult n).FitsCapsule ↔ n ≤ Capsule.cellDepth := by
  simp [RunResult.FitsCapsule, rows_nestedResult, nesting_nestedList]

namespace DirectoryStore

/-- The end of a run with such a table. -/
def nestedVerdict (n : Nat) : Verdict := ⟨.succeeded, some (nestedResult n), none⟩

theorem doublesSurvive_nestedVerdict (n : Nat) (now : Instant) :
    ((nestedVerdict n).closed Capsule.waiting now).DoublesSurvive := by
  refine ⟨by simp [Verdict.closed, Capsule.literals_waiting], ?_⟩
  rintro _ ⟨⟩
  simp [RunResult.DoublesSurvive, rows_nestedResult, numbers_nestedList]

/-- A directory with the run that waits. -/
def waiting : DirectoryStore :=
  empty.write (filed Capsule.waiting.runId) Capsule.waiting.toJson.pretty

theorem finalize_waiting {v : Verdict} (hv : v.status.isTerminal = true) (now : Instant) :
    ops.finalize Capsule.waiting.runId v now waiting
      = (.ok (v.closed Capsule.waiting now), waiting.write (filed Capsule.waiting.runId)
          (v.closed Capsule.waiting now).toJson.pretty) := by
  have hfile : waiting.file? (filed Capsule.waiting.runId)
      = some (.text Capsule.waiting.toJson.pretty) := by
    rw [waiting, file?_write, if_pos rfl]
  exact finalize_of_read (fileName_of_isHyphenated RunId.isHyphenated_waiting)
    (read_of_decodeText hfile Capsule.read_waiting _) rfl hv

/-! ## Finished runs -/

/-- **A finished run is found by every later `get`**, whatever other calls there are and however
often the directory is opened anew, if its result fits into a capsule. If it does not, every later
`get` fails. -/
theorem finalized_found (hread : readResult text = .ok r) (hv : v.result = some r)
    (hnow : now.Valid) (h : ops.finalize runId v now s = (.ok c, s')) (hdoubles : c.DoublesSurvive)
    (later : List Visit) {id : String} (hid : RunId.canonical? id = RunId.canonical? runId) :
    (r.FitsCapsule → get id (s'.visits later) = .ok c) ∧
      (¬ r.FitsCapsule →
        get id (s'.visits later) = .error (.json Json.Fault.recursionLimit.message)) :=
  ⟨fun hfits => get_of_fitsCapsule hread hv hnow h hdoubles hfits later hid,
    fun hdeep => get_of_not_fitsCapsule hread hv hnow h hdoubles hdeep later hid⟩

/-- The deepest cell that a capsule holds. -/
theorem finalized_found_deepest :
    get Capsule.waiting.runId
        ((ops.finalize Capsule.waiting.runId (nestedVerdict Capsule.cellDepth)
          ⟨2024, 1, 1, 0, 0, 7, 0⟩ waiting).2.visits [.reopen])
      = .ok ((nestedVerdict Capsule.cellDepth).closed Capsule.waiting ⟨2024, 1, 1, 0, 0, 7, 0⟩) := by
  have hfinal := finalize_waiting (v := nestedVerdict Capsule.cellDepth) rfl ⟨2024, 1, 1, 0, 0, 7, 0⟩
  rw [hfinal]
  exact (finalized_found (readResult_nestedResult (by decide)) rfl (by constructor <;> decide) hfinal
    (doublesSurvive_nestedVerdict _ _) [.reopen] rfl).1
    ((fitsCapsule_nestedResult _).mpr (Nat.le_refl _))

/-- One level more: the result is found in its output and the run is finished, but no `get` finds
it. -/
theorem finalized_lost_deeper :
    readResult (nestedResult (Capsule.cellDepth + 1)).toJson.compact
        = .ok (nestedResult (Capsule.cellDepth + 1)) ∧
      ∃ c s', ops.finalize Capsule.waiting.runId (nestedVerdict (Capsule.cellDepth + 1))
          ⟨2024, 1, 1, 0, 0, 7, 0⟩ waiting = (.ok c, s') ∧
        get Capsule.waiting.runId s' = .error (.json "recursion limit exceeded") := by
  have hread := readResult_nestedResult (n := Capsule.cellDepth + 1) (by decide)
  have hfinal :=
    finalize_waiting (v := nestedVerdict (Capsule.cellDepth + 1)) rfl ⟨2024, 1, 1, 0, 0, 7, 0⟩
  refine ⟨hread, _, _, hfinal, ?_⟩
  exact get_of_not_fitsCapsule hread rfl (by constructor <;> decide) hfinal
    (doublesSurvive_nestedVerdict _ _) (by simp [fitsCapsule_nestedResult]) [] rfl

end DirectoryStore

end Enclave
