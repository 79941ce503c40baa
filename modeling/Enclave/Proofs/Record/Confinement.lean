import Enclave.Proofs.Json.Extent
import Enclave.Proofs.Json.Variant
import Enclave.Proofs.Record.Forms
import Enclave.Proofs.Record.Readable

/-!
# A directory that others write to

What a call of a store in a directory does depends on the file of its run alone, and it changes no
other file: `reply` says what is answered over what this file holds (`answer_of_spells`). The file
belongs to the digits of a name and not to their spelling. So whatever happens to the directory from
outside (`Happening`), as long as it leaves the file of a run alone, a run that was created is there
under every spelling of its name, and a run that was finished is finished under every spelling.

A finished run stays finished whatever its result is: even if the numbers in its document are not
the same after they were read, the document says that the run has come to its end, or it cannot be
read (`Capsule.status_of_decodeText`).
-/

namespace Enclave

open Json (Decoder Doc Scope)

/-! ## The end of a run in its document -/

namespace Capsule

/-- The fields of a capsule but one leave its status as it is. -/
theorem status_of_step {s : Scope} {k : String} {step : Capsule → Decoder Capsule} {d : Doc}
    {a a' : Capsule} (hk : k ≠ "final_status") (hset : shape.set k = some step)
    (h : step a s d = .ok a') : a'.status = a.status := by
  simp only [shape] at hset
  split at hset
  case h_7 => exact absurd rfl hk
  case h_10 => cases hset
  all_goals
    cases hset
    obtain ⟨v, -, rfl⟩ := map_eq_ok.mp h
    rfl

/-- What is read of a written capsule has its status, whatever else may have changed. -/
theorem status_of_decodeText {c d : Capsule}
    (h : Json.decodeText decoder c.toJson.pretty = .ok d) : d.status = c.status := by
  obtain ⟨fields, stop, hread, hmembers⟩ := Json.Doc.read_pretty_obj
    [("run_id", .str c.runId), ("backend", .str c.backend), ("request", c.request.toJson),
      ("created_at", .str c.createdAt.text), ("started_at", instantJson c.startedAt),
      ("finished_at", instantJson c.finishedAt), ("final_status", .str c.status.wire),
      ("result", (c.result.map RunResult.toJson).getD .null), ("error", .ofOption c.error)]
  have hdecoded := Json.decodeText_eq_ok h
  rw [toJson, hread] at hdecoded
  obtain ⟨_, -, hfields⟩ := bind_eq_ok.mp hdecoded
  obtain ⟨seen, htaken⟩ := Json.RecordShape.ofFields_taken hfields
  have hset : shape.set "final_status"
      = Json.field CapsuleStatus.decoder fun c v => { c with status := v } := rfl
  refine Json.takeFields_keeps hset (fun _ _ => rfl)
    (fun j step d a a' => status_of_step) (fun x hx hname b hb => ?_) htaken.take (by simp)
    (htaken.required "final_status" (by simp [shape]))
  obtain ⟨-, v, hv, htext⟩ := hmembers x hx
  obtain rfl : v = .str c.status.wire := by simpa [hname] using hv
  rw [htext _ rfl] at hb
  exact Except.ok.inj (hb.symm.trans (CapsuleStatus.decoder_ofValue _ c.status))

end Capsule

namespace DirectoryStore

open RunId (Spells grouped IsHyphenated)

variable {s t : DirectoryStore} {ds : List Char} {id id' name : String} {x : TimedCall}

/-! ## Files -/

/-- The file of the run whose name has these digits. -/
def recordFile (ds : List Char) : String := filed (String.ofList (grouped ds))

theorem fileName_of_spells (h : Spells ds id) : fileName id = .ok (recordFile ds) := by
  rw [fileName, h.canonical?]
  rfl

theorem fileName_of_not_spells (h : ∀ ds, ¬ Spells ds id) :
    fileName id = .error (.unknownRun id) := by
  have hnone : RunId.canonical? id = none := by
    rw [Option.eq_none_iff_forall_ne_some]
    intro u hu
    obtain ⟨ds, hds, -⟩ := RunId.canonical?_eq_some.mp hu
    exact h ds hds
  rw [fileName, hnone]

/-- There is no way out of the directory in the name of a file. -/
theorem separator_notMem_recordFile (h : Spells ds id) : '/' ∉ (recordFile ds).toList := by
  obtain ⟨es, -, hes, heq⟩ := h.isHyphenated
  have hdigit : '/' ∉ es := fun hmem => by
    rcases hes '/' hmem with h | h
    · cases h
    · exact absurd h.1 (by decide)
  have htake : ∀ i n, '/' ∉ (es.drop i).take n := fun i n hmem =>
    hdigit (List.mem_of_mem_drop (List.mem_of_mem_take hmem))
  have hfirst : '/' ∉ es.take 8 := htake 0 8
  have hlast : '/' ∉ es.drop 20 := fun hmem => hdigit (List.mem_of_mem_drop hmem)
  rw [recordFile, filed, heq]
  simp [grouped, htake, hfirst, hlast]

theorem file?_erase (s : DirectoryStore) (name other : String) :
    (s.erase name).file? other = if other = name then none else s.file? other := by
  obtain ⟨files⟩ := s
  simp only [erase, file?]
  induction files with
  | nil => simp
  | cons kv files ih =>
    obtain ⟨k, content⟩ := kv
    rw [List.filter_cons]
    by_cases hk : k = name
    · subst hk
      rw [if_neg (by simp), ih]
      by_cases hother : other = k
      · rw [if_pos hother, if_pos hother]
      · rw [if_neg hother, if_neg hother, List.lookup_cons, beq_eq_false_iff_ne.mpr hother]
    · rw [if_pos (bne_iff_ne.mpr hk), List.lookup_cons, List.lookup_cons, ih]
      by_cases hother : other = k
      · subst hother
        simp [hk]
      · rw [beq_eq_false_iff_ne.mpr hother]

/-! ## Calls -/

/-- The capsule in what a file holds. -/
def capsuleIn (runId : String) : Option FileContent → Outcome Capsule
  | none => .error (.unknownRun runId)
  | some (.unreadable _ reason) => .error (.io reason)
  | some (.text text) =>
    match Json.decodeText Capsule.decoder text with
    | .ok c => .ok c
    | .error m => .error (.json m.message)

theorem read_eq (s : DirectoryStore) (name runId : String) :
    s.read name runId = capsuleIn runId (s.file? name) := by
  rw [read]
  cases s.file? name with
  | none => rfl
  | some content => cases content <;> rfl

/-- What is answered to a call over what the file of its run holds. -/
def reply (x : TimedCall) (file : Option FileContent) : Outcome Capsule :=
  match x.call with
  | .create c =>
    if file.isSome then .error (.internal ("duplicate run id " ++ c.runId)) else .ok c
  | .finalize runId v => (capsuleIn runId file).bind fun c => c.finish runId v x.now
  | .get runId => capsuleIn runId file

/-- Whether a capsule that is answered to a call is written as well. -/
def writes : StoreCall → Bool
  | .create _ => true
  | .finalize _ _ => true
  | .get _ => false

/-- The directory after a call that was answered. -/
def written (s : DirectoryStore) (name : String) (call : StoreCall) :
    Outcome Capsule → DirectoryStore
  | .ok c => if writes call then s.write name c.toJson.pretty else s
  | .error _ => s

/-- **A call looks at the file of its run and changes no other one.** -/
theorem answer_of_spells (h : Spells ds x.call.runId) (s : DirectoryStore) :
    ops.answer x s = (reply x (s.file? (recordFile ds)),
      s.written (recordFile ds) x.call (reply x (s.file? (recordFile ds)))) := by
  obtain ⟨now, call⟩ := x
  have hname := fileName_of_spells h
  cases call with
  | create c =>
    change committed (create c s) s = _
    rw [create, show fileName c.runId = _ from hname]
    cases hfile : s.file? (recordFile ds) <;> simp [hfile, bind, Except.bind] <;> rfl
  | finalize runId v =>
    change committed (finalize runId v now s) s = _
    rw [finalize, show fileName runId = _ from hname]
    simp only [bind, Except.bind, read_eq, reply]
    cases capsuleIn runId (s.file? (recordFile ds)) with
    | error e => rfl
    | ok b =>
      simp only
      cases b.finish runId v now <;> rfl
  | get runId =>
    change (get runId s, s) = _
    rw [get, show fileName runId = _ from hname]
    simp only [bind, Except.bind, read_eq, reply]
    cases capsuleIn runId (s.file? (recordFile ds)) <;> rfl

/-- A call with what names no run is refused before it looks at any file. -/
theorem answer_of_not_spells (h : ∀ ds, ¬ Spells ds x.call.runId) (s : DirectoryStore) :
    ops.answer x s = (.error (.unknownRun x.call.runId), s) := by
  obtain ⟨now, call⟩ := x
  have hname := fileName_of_not_spells h
  cases call with
  | create c =>
    change committed (create c s) s = _
    rw [create, show fileName c.runId = _ from hname]
    rfl
  | finalize runId v =>
    change committed (finalize runId v now s) s = _
    rw [finalize, show fileName runId = _ from hname]
    rfl
  | get runId =>
    change (get runId s, s) = _
    rw [get, show fileName runId = _ from hname]
    rfl

theorem file?_written_ne {other : String} (h : other ≠ name) (call : StoreCall)
    (r : Outcome Capsule) : (s.written name call r).file? other = s.file? other := by
  cases r with
  | error e => rfl
  | ok c =>
    rw [written]
    split
    · rw [file?_write, if_neg h]
    · rfl

/-- A call that fails leaves the directory as it was. -/
theorem answer_error {e : Failure} (h : (ops.answer x s).1 = .error e) :
    (ops.answer x s).2 = s := by
  by_cases hspells : ∃ ds, Spells ds x.call.runId
  · obtain ⟨ds, hds⟩ := hspells
    rw [answer_of_spells hds] at h ⊢
    simp only at h ⊢
    rw [h]
    rfl
  · rw [answer_of_not_spells (not_exists.mp hspells)]

/-- Directories with the same in a file are alike for the calls of its run. -/
theorem answer_congr (hds : Spells ds x.call.runId)
    (hfile : t.file? (recordFile ds) = s.file? (recordFile ds)) :
    (ops.answer x t).1 = (ops.answer x s).1 ∧
      (ops.answer x t).2.file? (recordFile ds) = (ops.answer x s).2.file? (recordFile ds) := by
  rw [answer_of_spells hds, answer_of_spells hds, hfile]
  refine ⟨rfl, ?_⟩
  cases reply x (s.file? (recordFile ds)) with
  | error e => exact hfile
  | ok c =>
    simp only [written]
    split
    · rw [file?_write, file?_write, if_pos rfl, if_pos rfl]
    · exact hfile

/-! ## Spellings -/

/-- The same answer to two spellings of a name: a failure may repeat the name as it was spelt. -/
inductive SameAnswer (id id' : String) : Outcome Capsule → Outcome Capsule → Prop where
  | ok (c : Capsule) : SameAnswer id id' (.ok c) (.ok c)
  | error (e : Failure) : SameAnswer id id' (.error e) (.error e)
  | unknown : SameAnswer id id' (.error (.unknownRun id)) (.error (.unknownRun id'))
  | final : SameAnswer id id' (.error (.alreadyFinal id)) (.error (.alreadyFinal id'))

theorem SameAnswer.bind {a a' : Outcome Capsule} (h : SameAnswer id id' a a')
    {f g : Capsule → Outcome Capsule} (hfg : ∀ c, SameAnswer id id' (f c) (g c)) :
    SameAnswer id id' (a.bind f) (a'.bind g) := by
  cases h with
  | ok c => exact hfg c
  | error e => exact .error e
  | unknown => exact .unknown
  | final => exact .final

theorem SameAnswer.written {a a' : Outcome Capsule} (h : SameAnswer id id' a a')
    {call call' : StoreCall} (hwrites : writes call = writes call') (s : DirectoryStore)
    (name : String) : s.written name call a = s.written name call' a' := by
  cases h with
  | ok c => simp only [DirectoryStore.written, hwrites]
  | _ => rfl

theorem capsuleIn_sameAnswer (id id' : String) (file : Option FileContent) :
    SameAnswer id id' (capsuleIn id file) (capsuleIn id' file) := by
  match file with
  | none => exact .unknown
  | some (.unreadable _ reason) => exact .error _
  | some (.text text) =>
    simp only [capsuleIn]
    cases Json.decodeText Capsule.decoder text with
    | ok c => exact .ok c
    | error m => exact .error _

theorem finish_sameAnswer (c : Capsule) (id id' : String) (v : Verdict) (now : Instant) :
    SameAnswer id id' (c.finish id v now) (c.finish id' v now) := by
  unfold Capsule.finish
  split
  · exact .final
  · cases v.apply c now with
    | ok d => exact .ok d
    | error e => exact .error e

/-- A `get` reads the file of the run. -/
theorem get_eq (h : Spells ds id) (s : DirectoryStore) :
    get id s = capsuleIn id (s.file? (recordFile ds)) :=
  congrArg Prod.fst (answer_of_spells (x := ⟨⟨1970, 1, 1, 0, 0, 0, 0⟩, .get id⟩) h s)

/-- A run is finished alike under two spellings of its name. -/
theorem finalize_sameAnswer (h : Spells ds id) (h' : Spells ds id') (v : Verdict) (now : Instant)
    (s : DirectoryStore) :
    SameAnswer id id' (ops.finalize id v now s).1 (ops.finalize id' v now s).1 ∧
      (ops.finalize id v now s).2 = (ops.finalize id' v now s).2 := by
  have hanswer := answer_of_spells (x := ⟨now, .finalize id v⟩) h s
  have hanswer' := answer_of_spells (x := ⟨now, .finalize id' v⟩) h' s
  have hsame := (capsuleIn_sameAnswer id id' (s.file? (recordFile ds))).bind fun c =>
    finish_sameAnswer c id id' v now
  rw [show ops.finalize id v now s = _ from hanswer,
    show ops.finalize id' v now s = _ from hanswer']
  exact ⟨hsame, hsame.written rfl s (recordFile ds)⟩

/-- A run is created if its file is not there. -/
theorem create_eq {c : Capsule} (h : Spells ds c.runId) (s : DirectoryStore) :
    ops.create c s = if (s.file? (recordFile ds)).isSome
      then (.error (.internal ("duplicate run id " ++ c.runId)), s)
      else (.ok c, s.write (recordFile ds) c.toJson.pretty) := by
  have hanswer := answer_of_spells (x := ⟨⟨1970, 1, 1, 0, 0, 0, 0⟩, .create c⟩) h s
  rw [show ops.create c s = _ from hanswer]
  simp only [reply]
  split <;> rfl

/-! ## From outside -/

/-- What happens to a directory: a visit of the store, or something from outside. -/
inductive Happening where
  | visit (v : Visit)
  /-- A file is overwritten, or made. -/
  | overwritten (name : String) (content : FileContent)
  | removed (name : String)

/-- A directory after something happened to it. -/
def happen (s : DirectoryStore) : Happening → DirectoryStore
  | .visit v => s.visit v
  | .overwritten name content => s.put name content
  | .removed name => s.erase name

/-- A directory after all that happened to it. -/
def happenings (s : DirectoryStore) (hs : List Happening) : DirectoryStore := hs.foldl happen s

/-- Nothing from outside touches a file. -/
def Happening.Spares (name : String) : Happening → Prop
  | .visit _ => True
  | .overwritten other _ => other ≠ name
  | .removed other => other ≠ name

/-- What stays of a file at every call stays whatever happens, as long as nothing from outside
touches the file. -/
theorem happenings_induction {name : String} {P : Option FileContent → Prop}
    (hcall : ∀ (s : DirectoryStore) (x : TimedCall), P (s.file? name) →
      P ((ops.answer x s).2.file? name))
    {hs : List Happening} (hspares : ∀ h ∈ hs, h.Spares name) {s : DirectoryStore}
    (hs₀ : P (s.file? name)) : P ((s.happenings hs).file? name) := by
  induction hs generalizing s with
  | nil => exact hs₀
  | cons h hs ih =>
    obtain ⟨hspare, hspares⟩ := List.forall_mem_cons.mp hspares
    refine ih hspares ?_
    cases h with
    | visit v =>
      cases v with
      | call x => exact hcall s x hs₀
      | reopen => exact hs₀
    | overwritten other content => rwa [happen, file?_put, if_neg (Ne.symm hspare)]
    | removed other => rwa [happen, file?_erase, if_neg (Ne.symm hspare)]

/-- A file with the document of a capsule, or of one that came to its end. -/
def HoldsRun (c : Capsule) (file : Option FileContent) : Prop :=
  ∃ d, file = some (.text d.toJson.pretty) ∧ (d = c ∨ d.status.isTerminal = true)

/-- A call leaves the document of a run in its file, or puts that of the finished run there. -/
theorem holdsRun_answer {c : Capsule} (s : DirectoryStore) (x : TimedCall)
    (h : HoldsRun c (s.file? name)) : HoldsRun c ((ops.answer x s).2.file? name) := by
  obtain ⟨now, call⟩ := x
  cases hanswer : ops.answer ⟨now, call⟩ s with
  | mk a after =>
    cases a with
    | error e =>
      have hsame : after = s := by
        have hafter := answer_error (congrArg Prod.fst hanswer)
        rwa [hanswer] at hafter
      rwa [hsame]
    | ok d =>
      cases call with
      | get id =>
        obtain rfl : s = after := congrArg Prod.snd hanswer
        exact h
      | create made =>
        have hspells : ∃ ds, Spells ds made.runId := by
          by_contra hno
          rw [answer_of_not_spells (x := ⟨now, .create made⟩) (not_exists.mp hno)] at hanswer
          cases hanswer
        obtain ⟨ds, hds⟩ := hspells
        have hcreate := (create_eq hds s).symm.trans hanswer
        split at hcreate
        · cases hcreate
        · rename_i hfree
          obtain ⟨-, rfl⟩ := Prod.mk.inj hcreate
          have hother : name ≠ recordFile ds := by
            rintro rfl
            obtain ⟨d, hfile, -⟩ := h
            exact hfree (by rw [hfile]; rfl)
          rwa [file?_write, if_neg hother]
      | finalize id v =>
        obtain ⟨other, _, b, -, -, -, -, hv, hd, rfl⟩ := finalize_eq_ok hanswer
        rw [file?_write]
        split
        · exact ⟨d, rfl, .inr (hd ▸ hv)⟩
        · exact h

/-- A finished run stays in its file. -/
theorem finished_answer {c : Capsule} (hc : c.status.isTerminal = true) (s : DirectoryStore)
    (x : TimedCall) (h : s.file? name = some (.text c.toJson.pretty)) :
    (ops.answer x s).2.file? name = some (.text c.toJson.pretty) :=
  (Settled.answer ⟨h, fun d hd => by rw [Capsule.status_of_decodeText hd, hc]⟩ x).file

/-- Why a run with this document is not finished again: it has come to its end, or the document
cannot be read. -/
def whyFinished (id text : String) : Failure :=
  match Json.decodeText Capsule.decoder text with
  | .ok _ => .alreadyFinal id
  | .error m => .json m.message

/-- A run that was finished is not finished again. -/
theorem finalize_finished {c : Capsule} (hc : c.status.isTerminal = true) (h : Spells ds id)
    (hfile : s.file? (recordFile ds) = some (.text c.toJson.pretty)) (v : Verdict) (now : Instant) :
    ops.finalize id v now s = (.error (whyFinished id c.toJson.pretty), s) := by
  have hanswer := answer_of_spells (x := ⟨now, .finalize id v⟩) h s
  rw [show ops.finalize id v now s = _ from hanswer, hfile]
  simp only [reply, capsuleIn, whyFinished]
  cases hdecode : Json.decodeText Capsule.decoder c.toJson.pretty with
  | error m => rfl
  | ok d =>
    have hd : d.status.isTerminal = true := by rw [Capsule.status_of_decodeText hdecode, hc]
    have hfinish : d.finish id v now = .error (.alreadyFinal id) := by
      rw [Capsule.finish, hd, if_pos rfl]
    simp only [Except.bind, hfinish]
    rfl

/-! ## Confinement -/

/-- What is true of a directory at every moment, whatever happened to it. -/
structure Confined (s : DirectoryStore) : Prop where
  /-- What names no run is refused; this does not depend on the files and changes none. -/
  stray : ∀ x : TimedCall, (∀ ds, ¬ Spells ds x.call.runId) →
    ops.answer x s = (.error (.unknownRun x.call.runId), s)
  /-- The files of runs lie in the directory. -/
  inside : ∀ ds id, Spells ds id →
    IsHyphenated (String.ofList (grouped ds)) ∧ '/' ∉ (recordFile ds).toList
  /-- A call changes no file but that of its run. -/
  untouched : ∀ x ds, Spells ds x.call.runId → ∀ name, name ≠ recordFile ds →
    (ops.answer x s).2.file? name = s.file? name
  /-- What a call does depends on no file but that of its run. -/
  alone : ∀ x ds, Spells ds x.call.runId → ∀ t, t.file? (recordFile ds) = s.file? (recordFile ds) →
    (ops.answer x t).1 = (ops.answer x s).1 ∧
      (ops.answer x t).2.file? (recordFile ds) = (ops.answer x s).2.file? (recordFile ds)
  /-- A call that fails changes nothing. -/
  failed : ∀ x e, (ops.answer x s).1 = .error e → (ops.answer x s).2 = s
  /-- What is found of a run is what its file holds. -/
  reads : ∀ ds id, Spells ds id → get id s = capsuleIn id (s.file? (recordFile ds))
  /-- Two spellings of a name find the same. -/
  found : ∀ ds id id', Spells ds id → Spells ds id' → SameAnswer id id' (get id s) (get id' s)
  /-- They finish the same run, in the same way. -/
  finalized : ∀ ds id id', Spells ds id → Spells ds id' → ∀ v now,
    SameAnswer id id' (ops.finalize id v now s).1 (ops.finalize id' v now s).1 ∧
      (ops.finalize id v now s).2 = (ops.finalize id' v now s).2
  /-- A run that was created is there, and cannot be created again. -/
  created : ∀ c c' s' ds, ops.create c s = (.ok c', s') → Spells ds c.runId → ∀ later,
    (∀ h ∈ later, Happening.Spares (recordFile ds) h) →
    HoldsRun c ((s'.happenings later).file? (recordFile ds)) ∧
    ∀ d, Spells ds d.runId → ops.create d (s'.happenings later)
      = (.error (.internal ("duplicate run id " ++ d.runId)), s'.happenings later)
  /-- A run that was finished stays as it is, is what is found, and can be neither finished nor
  created again. -/
  finished : ∀ runId v now c s' ds, ops.finalize runId v now s = (.ok c, s') → Spells ds runId →
    ∀ later, (∀ h ∈ later, Happening.Spares (recordFile ds) h) →
    (s'.happenings later).file? (recordFile ds) = some (.text c.toJson.pretty) ∧
    ∀ id, Spells ds id →
      get id (s'.happenings later) = capsuleIn id (some (.text c.toJson.pretty)) ∧
      (∀ v' now', ops.finalize id v' now' (s'.happenings later)
        = (.error (whyFinished id c.toJson.pretty), s'.happenings later)) ∧
      ∀ d, d.runId = id → ops.create d (s'.happenings later)
        = (.error (.internal ("duplicate run id " ++ id)), s'.happenings later)

/-- A run whose file is there is not created. -/
theorem create_of_isSome {c : Capsule} (h : Spells ds c.runId)
    (hfile : (s.file? (recordFile ds)).isSome) :
    ops.create c s = (.error (.internal ("duplicate run id " ++ c.runId)), s) := by
  rw [create_eq h, if_pos hfile]

/-- **The calls of a run stay in its file**, whatever the store is asked for and whatever happens to
the directory from outside. -/
theorem happenings_confined (s₀ : DirectoryStore) (past : List Happening) :
    Confined (s₀.happenings past) := by
  generalize s₀.happenings past = s
  constructor
  case stray => exact fun x hx => answer_of_not_spells hx s
  case inside => exact fun ds id h => ⟨h.isHyphenated, separator_notMem_recordFile h⟩
  case untouched =>
    intro x ds hx name hname
    rw [answer_of_spells hx]
    exact file?_written_ne hname _ _
  case alone => exact fun x ds hx t => answer_congr hx
  case failed => exact fun x e => answer_error
  case reads => exact fun ds id h => get_eq h s
  case found =>
    intro ds id id' h h'
    rw [get_eq h, get_eq h']
    exact capsuleIn_sameAnswer _ _ _
  case finalized => exact fun ds id id' h h' v now => finalize_sameAnswer h h' v now s
  case created =>
    intro c c' s' ds hcreate hc later hspares
    have hfirst : HoldsRun c (s'.file? (recordFile ds)) := by
      rw [create_eq hc] at hcreate
      split at hcreate
      · cases hcreate
      · obtain ⟨-, rfl⟩ := Prod.mk.inj hcreate
        exact ⟨c, by rw [file?_write, if_pos rfl], .inl rfl⟩
    have hholds := happenings_induction (fun t x => holdsRun_answer t x) hspares hfirst
    refine ⟨hholds, fun d hd => create_of_isSome hd ?_⟩
    obtain ⟨e, hfile, -⟩ := hholds
    rw [hfile]
    rfl
  case finished =>
    intro runId v now c s' ds hfinalize hid later hspares
    obtain ⟨name, _, b, hname, -, -, -, hv, hc, rfl⟩ := finalize_eq_ok hfinalize
    obtain rfl : recordFile ds = name := Except.ok.inj ((fileName_of_spells hid).symm.trans hname)
    have hend : c.status.isTerminal = true := hc ▸ hv
    have hfile := happenings_induction (P := (· = some (.text c.toJson.pretty)))
      (fun t x => finished_answer hend t x) hspares
      (s := s.write (recordFile ds) c.toJson.pretty) (by rw [file?_write, if_pos rfl])
    refine ⟨hfile, fun id h => ⟨by rw [get_eq h, hfile], ?_, ?_⟩⟩
    · exact finalize_finished hend h hfile
    · rintro d rfl
      exact create_of_isSome h (by rw [hfile]; rfl)

end DirectoryStore

end Enclave
