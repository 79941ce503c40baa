import Enclave.Proofs.Record.Document
import Enclave.Proofs.Record.History
import Mathlib.Data.List.Basic

/-!
# The store in a directory

A run is filed under its name in the usual form, 32 small hexadecimal digits in five groups
(`RunId.IsHyphenated`), so runs of different names have different files. `DirectoryStore.Keeps` says
which capsules a directory holds: their documents are its files and read back as themselves. Such a
directory answers as any store may (`Keeps.answered`), and a file is made only for a run that is
created.
-/

namespace Enclave

/-! ## Names -/

namespace RunId

/-- A digit of a name in its usual form. -/
def IsSmallHex (d : Char) : Prop := d.isDigit = true ∨ ('a' ≤ d ∧ d ≤ 'f')

/-- A name in its usual form: 32 small hexadecimal digits in five groups with hyphens. -/
def IsHyphenated (id : String) : Prop :=
  ∃ ds : List Char, ds.length = 32 ∧ (∀ d ∈ ds, IsSmallHex d) ∧ id = String.ofList (grouped ds)

theorem IsSmallHex.isHex {d : Char} (h : IsSmallHex d) : isHex d = true := by
  rcases h with hd | ⟨ha, hf⟩
  · simp [RunId.isHex, hd]
  · simp [RunId.isHex, ha, hf]

theorem IsSmallHex.ne_hyphen {d : Char} (h : IsSmallHex d) : d ≠ '-' := by
  rintro rfl
  rcases h with hd | ⟨ha, _⟩
  · cases hd
  · exact absurd ha (by decide)

theorem IsSmallHex.toLower {d : Char} (h : IsSmallHex d) : d.toLower = d := by
  have hupper : ¬ ('A'.val ≤ d.val ∧ d.val ≤ 'Z'.val) := by
    rintro ⟨hA, hZ⟩
    rw [UInt32.le_iff_toNat_le] at hA hZ
    rcases h with hd | ⟨ha, _⟩
    · simp only [Char.isDigit, ge_iff_le, Bool.and_eq_true, decide_eq_true_eq,
        UInt32.le_iff_toNat_le] at hd
      exact absurd (Nat.le_trans hA hd.2) (by decide)
    · rw [Char.le_def, UInt32.le_iff_toNat_le] at ha
      exact absurd (Nat.le_trans ha hZ) (by decide)
  exact dif_neg hupper

/-- Only a row of groups with hyphens has 36 characters. -/
theorem digits?_of_length {cs : List Char} (h : cs.length = 36) : digits? cs = ungrouped? cs := by
  unfold digits?
  split <;> simp_all

theorem length_grouped {ds : List Char} (h : ds.length = 32) : (grouped ds).length = 36 := by
  simp [grouped, h]

theorem hyphens_grouped {ds : List Char} (h : ds.length = 32) :
    ([8, 13, 18, 23].all fun i => (grouped ds)[i]? == some '-') = true := by
  simp [grouped, h, List.getElem?_append, List.getElem?_cons]

theorem filter_grouped {ds : List Char} (h : ∀ d ∈ ds, d ≠ '-') :
    (grouped ds).filter (· != '-') = ds := by
  have hself : ∀ cs : List Char, (∀ c ∈ cs, c ∈ ds) → cs.filter (· != '-') = cs := fun cs hcs =>
    List.filter_eq_self.mpr fun c hc => by simpa using h c (hcs c hc)
  have htake : ∀ i, ∀ c ∈ (ds.drop i).take 4, c ∈ ds := fun i c hc =>
    List.mem_of_mem_drop (List.mem_of_mem_take hc)
  have hsplit : ∀ i, (ds.drop i).take 4 ++ ds.drop (i + 4) = ds.drop i := fun i => by
    rw [← List.drop_drop, List.take_append_drop]
  have hrest : ds.take 8 ++ ((ds.drop 8).take 4 ++ ((ds.drop 12).take 4 ++
      ((ds.drop 16).take 4 ++ ds.drop 20))) = ds := by
    rw [hsplit 16, hsplit 12, hsplit 8, List.take_append_drop]
  simp only [grouped, List.filter_append, List.filter_cons, List.append_assoc, List.cons_append]
  rw [hself _ fun c => List.mem_of_mem_take, hself _ (htake 8), hself _ (htake 12),
    hself _ (htake 16), hself _ fun c => List.mem_of_mem_drop]
  simpa using hrest

/-- A name in its usual form is the one under which its run is filed. -/
theorem IsHyphenated.canonical? {id : String} (h : IsHyphenated id) : canonical? id = some id := by
  obtain ⟨ds, hlength, hds, rfl⟩ := h
  have hdigits : digits? (grouped ds) = some ds := by
    have hfilter := filter_grouped fun d hd => (hds d hd).ne_hyphen
    rw [digits?_of_length (length_grouped hlength)]
    simp only [ungrouped?, length_grouped hlength, hyphens_grouped hlength, hfilter, hlength,
      and_self, if_true]
  have hall : ds.all isHex = true := List.all_eq_true.mpr fun d hd => (hds d hd).isHex
  have hlower : ds.map Char.toLower = ds := by
    rw [List.map_congr_left fun d hd => (hds d hd).toLower, List.map_id']
  rw [RunId.canonical?, String.toList_ofList, hdigits]
  simp only [hall, if_true, hlower]

instance (d : Char) : Decidable (IsSmallHex d) :=
  inferInstanceAs (Decidable (d.isDigit = true ∨ ('a' ≤ d ∧ d ≤ 'f')))

theorem isHyphenated_waiting : IsHyphenated Capsule.waiting.runId := by
  have hdigits : ("00000000000040008000000000000000".toList.all fun d => decide (IsSmallHex d))
      = true := by decide
  exact ⟨_, by decide, fun d hd => of_decide_eq_true (List.all_eq_true.mp hdigits d hd), by decide⟩

end RunId

namespace DirectoryStore

/-- The name of the file of a run. -/
def filed (runId : String) : String := runId ++ ".json"

theorem filed_injective : Function.Injective filed := fun a b h => by
  simpa [filed, ← String.toList_inj] using h

theorem fileName_of_isHyphenated {runId : String} (h : RunId.IsHyphenated runId) :
    fileName runId = .ok (filed runId) := by
  rw [fileName, h.canonical?]
  rfl

/-! ## Files -/

/-- The names of the files of a directory. -/
def names (s : DirectoryStore) : List String := s.files.map Prod.fst

theorem file?_put (s : DirectoryStore) (name other : String) (content : FileContent) :
    (s.put name content).file? other = if other = name then some content else s.file? other := by
  have h := lookup_putPair s.files name other content
  unfold put file?
  split <;> rename_i hk
  · rwa [if_pos hk] at h
  · rwa [if_neg hk] at h

theorem file?_write (s : DirectoryStore) (name other text : String) :
    (s.write name text).file? other = if other = name then some (.text text) else s.file? other :=
  s.file?_put name other (.text text)

/-- A text in a file that is there makes no new file. -/
theorem names_write_of_isSome {s : DirectoryStore} {name : String} (h : (s.file? name).isSome)
    (text : String) : (s.write name text).names = s.names := by
  rw [write, put, if_pos h, names, names, List.map_map]
  refine List.map_congr_left fun kv _ => ?_
  by_cases hk : kv.1 = name
  · simp [hk]
  · simp [hk]

theorem names_write_of_none {s : DirectoryStore} {name : String} (h : s.file? name = none)
    (text : String) : (s.write name text).names = s.names ++ [name] := by
  simp [write, put, h, names]

/-- The store that is opened on the directory of another one: nothing is left but the files. -/
def reopened (s : DirectoryStore) : DirectoryStore := ⟨s.files⟩

end DirectoryStore

/-! ## Finishing a run -/

namespace DirectoryStore

variable {s : DirectoryStore} {name runId : String} {v : Verdict} {now : Instant}

theorem read_of_decodeText {text : String} {c : Capsule} (hfile : s.file? name = some (.text text))
    (hdecode : Json.decodeText Capsule.decoder text = .ok c) (runId : String) :
    s.read name runId = .ok c := by
  rw [read, hfile]
  simp only [hdecode]

theorem read_of_misfit {text : String} {m : Json.Misfit} (hfile : s.file? name = some (.text text))
    (hdecode : Json.decodeText Capsule.decoder text = .error m) (runId : String) :
    s.read name runId = .error (.json m.message) := by
  rw [read, hfile]
  simp only [hdecode]

/-- A capsule that was read stands in the file as a text. -/
theorem read_eq_ok {c : Capsule} (h : s.read name runId = .ok c) :
    ∃ text, s.file? name = some (.text text) ∧ Json.decodeText Capsule.decoder text = .ok c := by
  unfold read at h
  split at h
  · cases h
  · cases h
  · rename_i text hfile
    split at h
    · rename_i hdecode
      cases h
      exact ⟨text, hfile, hdecode⟩
    · cases h

/-- A pending capsule in the file of a run is finished there. -/
theorem finalize_of_read {b : Capsule} (hname : fileName runId = .ok name)
    (hread : s.read name runId = .ok b) (hpending : b.status.isTerminal = false)
    (hv : v.status.isTerminal = true) :
    ops.finalize runId v now s
      = (.ok (v.closed b now), s.write name (v.closed b now).toJson.pretty) := by
  have hfinish := Capsule.finish_eq_ok hpending hv runId now
  simp [ops, finalize, committed, hname, hread, hfinish, bind, Except.bind, pure, Except.pure]

end DirectoryStore

/-! ## Documents -/

/-- The document of a capsule reads back as the capsule. -/
def Capsule.SurvivesJson (c : Capsule) : Prop :=
  Json.decodeText Capsule.decoder c.toJson.pretty = .ok c

namespace DirectoryStore

/-- A directory keeps these capsules, and it has the files of these runs, in this order. -/
structure Keeps (s : DirectoryStore) (held : String → Option Capsule) (runs : List String) :
    Prop where
  file : ∀ runId, RunId.IsHyphenated runId →
    s.file? (filed runId) = (held runId).map fun c => .text c.toJson.pretty
  survives : ∀ runId c, held runId = some c → c.SurvivesJson
  names : s.names = runs.map filed

theorem Keeps.empty : DirectoryStore.empty.Keeps (fun _ => none) [] :=
  ⟨fun _ _ => rfl, (fun _ _ h => by cases h), rfl⟩

namespace Keeps

variable {s : DirectoryStore} {held : String → Option Capsule} {runs : List String}
  {runId : String} {c : Capsule}

theorem file?_of_none (h : s.Keeps held runs) (hid : RunId.IsHyphenated runId)
    (hnone : held runId = none) : s.file? (filed runId) = none := by
  rw [h.file runId hid, hnone, Option.map_none]

theorem file?_of_some (h : s.Keeps held runs) (hid : RunId.IsHyphenated runId)
    (hsome : held runId = some c) : s.file? (filed runId) = some (.text c.toJson.pretty) := by
  rw [h.file runId hid, hsome, Option.map_some]

/-- What is read is what is kept. -/
theorem read (h : s.Keeps held runs) (hid : RunId.IsHyphenated runId) :
    s.read (filed runId) runId
      = match held runId with
        | none => .error (.unknownRun runId)
        | some c => .ok c := by
  cases hheld : held runId with
  | none =>
    rw [DirectoryStore.read, h.file?_of_none hid hheld]
  | some c => exact read_of_decodeText (h.file?_of_some hid hheld) (h.survives runId c hheld) runId

/-- The capsule of a run is written. -/
theorem write (h : s.Keeps held runs) (hc : c.SurvivesJson) {runs' : List String}
    (hnames : (s.write (filed runId) c.toJson.pretty).names = runs'.map filed) :
    (s.write (filed runId) c.toJson.pretty).Keeps (Function.update held runId (some c)) runs' where
  file id hid := by
    rw [file?_write, Function.update_apply, h.file id hid]
    by_cases hidRun : id = runId
    · rw [if_pos (congrArg filed hidRun), if_pos hidRun, Option.map_some]
    · rw [if_neg fun hf => hidRun (filed_injective hf), if_neg hidRun]
  survives id d hd := by
    rw [Function.update_apply] at hd
    split at hd
    · cases hd
      exact hc
    · exact h.survives id d hd
  names := hnames

/-- An answer that creates nothing leaves the list of runs as it was. -/
theorem of_silent (h : s.Keeps held runs) {es : List StoreEvent}
    (hes : StoreEvent.created es = []) :
    s.Keeps held (runs ++ (StoreEvent.created es).map Capsule.runId) := by
  rwa [hes, List.map_nil, List.append_nil]

theorem create_answered (h : s.Keeps held runs) (hid : RunId.IsHyphenated c.runId)
    (hc : c.SurvivesJson) (now : Instant) :
    ∃ held', Answered held ⟨now, .create c⟩ (ops.create c s).1 held' ∧
      (ops.create c s).2.Keeps held'
        (runs ++ (StoreEvent.created [.create c (ops.create c s).1]).map Capsule.runId) := by
  have hname := fileName_of_isHyphenated hid
  cases hheld : held c.runId with
  | none =>
    have hnone := h.file?_of_none hid hheld
    have hanswer : ops.create c s = (.ok c, s.write (filed c.runId) c.toJson.pretty) := by
      simp [ops, create, committed, hname, hnone, bind, Except.bind, pure, Except.pure]
    rw [hanswer]
    refine ⟨_, .created rfl hheld, h.write hc ?_⟩
    rw [names_write_of_none hnone, h.names, List.map_append]
    rfl
  | some d =>
    have hsome := h.file?_of_some hid hheld
    have hanswer : ops.create c s
        = (.error (.internal ("duplicate run id " ++ c.runId)), s) := by
      simp [ops, create, committed, hname, hsome, bind, Except.bind]
    rw [hanswer]
    exact ⟨_, .refused (.duplicate hheld), h.of_silent rfl⟩

theorem finalize_answered (h : s.Keeps held runs) (hid : RunId.IsHyphenated runId) {v : Verdict}
    {now : Instant} (hclosed : ∀ c, held runId = some c → c.status.isTerminal = false →
      v.status.isTerminal = true → (v.closed c now).SurvivesJson) :
    ∃ held', Answered held ⟨now, .finalize runId v⟩ (ops.finalize runId v now s).1 held' ∧
      (ops.finalize runId v now s).2.Keeps held' runs := by
  have hname := fileName_of_isHyphenated hid
  have hread := h.read hid
  cases hheld : held runId with
  | none =>
    rw [hheld] at hread
    have hanswer : ops.finalize runId v now s = (.error (.unknownRun runId), s) := by
      simp [ops, finalize, committed, hname, hread, bind, Except.bind]
    rw [hanswer]
    exact ⟨_, .refused (.unknown hheld), h⟩
  | some c =>
    rw [hheld] at hread
    rcases c.finish_cases hheld v now with ⟨e, he, hrefusal⟩ | ⟨hfinish, hpending, hv⟩
    · have hanswer : ops.finalize runId v now s = (.error e, s) := by
        simp [ops, finalize, committed, hname, hread, he, bind, Except.bind]
      rw [hanswer]
      exact ⟨_, .refused hrefusal, h⟩
    · rw [finalize_of_read hname hread hpending hv]
      refine ⟨_, .finished rfl hheld hpending hv, h.write (hclosed c hheld hpending hv) ?_⟩
      rw [names_write_of_isSome (by simp [h.file?_of_some hid hheld]), h.names]

theorem get_answered (h : s.Keeps held runs) (hid : RunId.IsHyphenated runId) (now : Instant) :
    Answered held ⟨now, .get runId⟩ (get runId s) held := by
  have hread := h.read hid
  simp only [get, fileName_of_isHyphenated hid, bind, Except.bind, hread]
  cases hheld : held runId with
  | none => exact .refused (.missing hheld)
  | some c => exact .found rfl hheld

/-- **A directory answers as a store may**, and a file is made for what is created. -/
theorem answered (h : s.Keeps held runs) (x : TimedCall) (hid : RunId.IsHyphenated x.call.runId)
    (hcreate : ∀ c, x.call = .create c → c.SurvivesJson)
    (hfinalize : ∀ runId v c, x.call = .finalize runId v → held runId = some c →
      c.status.isTerminal = false → v.status.isTerminal = true → (v.closed c x.now).SurvivesJson) :
    ∃ held', Answered held x (ops.answer x s).1 held' ∧
      (ops.answer x s).2.Keeps held'
        (runs ++ (StoreEvent.created [x.call.event (ops.answer x s).1]).map Capsule.runId) := by
  obtain ⟨now, call⟩ := x
  cases call with
  | create c => exact h.create_answered hid (hcreate c rfl) now
  | finalize runId v =>
    obtain ⟨held', hanswered, hkeeps⟩ := h.finalize_answered hid fun c => hfinalize runId v c rfl
    exact ⟨held', hanswered, hkeeps.of_silent rfl⟩
  | get runId => exact ⟨held, h.get_answered hid now, h.of_silent rfl⟩

end Keeps

end DirectoryStore

end Enclave
