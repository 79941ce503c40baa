import Enclave.Proofs.Plan.Document
import Enclave.Proofs.Record.Store
import Enclave.Proofs.Run.Stored
import Enclave.Proofs.Time.Instant

/-!
# Capsules as documents

The document of a capsule reads back as the capsule (`Capsule.Written.read_pretty`), except for one
thing: a result stands one level further down in a capsule than in the output that it was found in,
and a text may not be nested deeper than `Json.maxDepth`. A cell of more than `Capsule.cellDepth`
levels makes the document of its capsule unreadable (`Capsule.Written.read_pretty_deep`).
-/

namespace Enclave

open Json (Decoder RecordShape Value Doc Misfit Scope Numeral field docFields takeFields)

/-! ## Budgets -/

namespace Budget

/-- A budget whose numbers fit into words. -/
structure Fits (b : Budget) : Prop where
  seconds : b.seconds < 2 ^ 64
  rows : b.rows < 2 ^ 64
  outputBytes : b.outputBytes < 2 ^ 64

theorem fits_of_decoder {s : Scope} {d : Doc} {b : Budget} (h : decoder s d = .ok b) : b.Fits := by
  refine RecordShape.decode_preserves (P := fun _ => True) ?_ ⟨by decide, by decide, by decide⟩
    (fun _ _ => trivial) h
  intro k step d acc acc' hset _ hstep hacc
  simp only at hset
  split at hset
  case h_4 => cases hset
  all_goals
    cases hset
    obtain ⟨n, hn, rfl⟩ := map_eq_ok.mp hstep
  · exact ⟨Json.word_eq_ok hn, hacc.rows, hacc.outputBytes⟩
  · exact ⟨hacc.seconds, Json.word_eq_ok hn, hacc.outputBytes⟩
  · exact ⟨hacc.seconds, hacc.rows, Json.word_eq_ok hn⟩

theorem Fits.decoder_ofValue {s : Scope} (hguard : Json.guardDepth s = .ok ()) {b : Budget}
    (h : b.Fits) : decoder s (Doc.ofValue b.toJson) = .ok b := by
  refine RecordShape.decode_fields ["max_output_bytes", "max_rows", "timeout_seconds"]
    hguard ?_ (by simp)
  simp only [docFields]
  rw [Json.takeFields_cons rfl rfl (Json.word_ofValue 64 "u64" _ h.seconds),
    Json.takeFields_cons rfl rfl (Json.word_ofValue 64 "u64" _ h.rows),
    Json.takeFields_cons rfl rfl (Json.word_ofValue 64 "u64" _ h.outputBytes)]
  rfl

theorem Fits.numbers {b : Budget} (h : b.Fits) : ∀ n ∈ b.toJson.numbers, n.Carried := by
  obtain ⟨hseconds, hrows, hbytes⟩ := h
  intro n hn
  simp only [toJson, Value.numbers, Json.fieldNumbers, Value.nat, List.append_nil,
    List.cons_append, List.nil_append, List.mem_cons, List.not_mem_nil, or_false] at hn
  rcases hn with rfl | rfl | rfl
  all_goals constructor <;> omega

end Budget

/-! ## Requests -/

theorem TaskKind.decoder_ofValue (s : Scope) (k : TaskKind) :
    decoder s (Doc.ofValue (.str k.wire)) = .ok k := by
  cases k <;> rfl

theorem CapsuleStatus.decoder_ofValue (s : Scope) (status : CapsuleStatus) :
    decoder s (Doc.ofValue (.str status.wire)) = .ok status := by
  cases status <;> rfl

namespace RequestRecord

/-- The literals of the plan of a request. -/
def literals (r : RequestRecord) : List Literal := (r.plan.map Plan.literals).getD []

/-- A request whose plan and budget fit into their documents, the plan in a text with so many levels
left. -/
structure Fits (depth : Nat) (r : RequestRecord) : Prop where
  plan : ∀ p ∈ r.plan, p.Fits depth
  budget : r.budget.Fits

theorem fits_of_decoder {s : Scope} (hs : s.origin = .text) {d : Doc} {r : RequestRecord}
    (h : decoder s d = .ok r) : r.Fits s.inner.inner.depth := by
  refine RecordShape.decode_preserves (P := fun _ => True) (Q := Fits s.inner.inner.depth) ?_
    ⟨by simp, by decide, by decide, by decide⟩ (fun _ _ => trivial) h
  intro k step d acc acc' hset _ hstep hacc
  simp only at hset
  split at hset
  case h_3 =>
    cases hset
    obtain ⟨v, hv, rfl⟩ := map_eq_ok.mp hstep
    refine ⟨fun p hp => ?_, hacc.budget⟩
    obtain rfl : v = some p := hp
    exact Plan.fits_of_decoder (s := s.inner) hs (Json.optional_eq_ok hv)
  case h_6 =>
    cases hset
    obtain ⟨b, hb, rfl⟩ := map_eq_ok.mp hstep
    exact ⟨hacc.plan, Budget.fits_of_decoder hb⟩
  case h_7 => cases hset
  all_goals
    cases hset
    obtain ⟨v, -, rfl⟩ := map_eq_ok.mp hstep
    exact ⟨hacc.plan, hacc.budget⟩

theorem Fits.decoder_ofValue {s : Scope} {r : RequestRecord} (h : r.Fits s.inner.inner.depth)
    (hlevels : 4 ≤ s.depth) (hdoubles : ∀ l ∈ r.literals, l.Survives) :
    decoder s (Doc.ofValue r.toJson) = .ok r := by
  obtain ⟨datasetId, kind, plan, rawText, compiled, budget⟩ := r
  have hinner : 3 ≤ s.inner.depth := by simp only [Scope.inner]; omega
  refine RecordShape.decode_fields ("budget" :: "compiled" ::
    met rawText.isSome "raw_text" (met plan.isSome "plan" ["query_type", "dataset_id"]))
    (Json.guardDepth_of_pos (by omega)) ?_ (by simp)
  have hplan : ∀ p ∈ plan, Plan.decoder s.inner (Doc.ofValue p.toJson) = .ok p ∧
      p.toJson ≠ .null := by
    rintro p rfl
    exact ⟨(h.plan p rfl).decoder_ofValue hinner hdoubles, by simp [Plan.toJson]⟩
  simp only [Json.docFields_append, List.append_assoc]
  simp only [docFields, List.cons_append, List.nil_append]
  rw [Json.takeFields_cons rfl rfl (Json.text_ofValue _ datasetId),
    Json.takeFields_cons rfl rfl (TaskKind.decoder_ofValue _ kind),
    takeFields_optionalMember rfl rfl rfl hplan,
    takeFields_optionalMember rfl (by simp) rfl (text_of_optional s.inner),
    Json.takeFields_cons rfl (by simp) (Json.text_ofValue _ compiled),
    Json.takeFields_cons rfl (by simp)
      (h.budget.decoder_ofValue (Json.guardDepth_of_pos (by omega)))]
  rfl

theorem Fits.numbers {depth : Nat} {r : RequestRecord} (h : r.Fits depth)
    (hdoubles : ∀ l ∈ r.literals, l.Survives) : ∀ n ∈ r.toJson.numbers, n.Carried := by
  obtain ⟨datasetId, kind, plan, rawText, compiled, budget⟩ := r
  intro n hn
  obtain ⟨kv, hkv, hn⟩ := Json.mem_fieldNumbers.mp hn
  simp only [List.mem_append, List.mem_cons, List.not_mem_nil, or_false] at hkv
  rcases hkv with (((rfl | rfl) | hkv) | hkv) | (rfl | rfl)
  · cases hn
  · cases hn
  · obtain ⟨v, hv, rfl⟩ := mem_optionalMember.mp hkv
    obtain ⟨p, rfl, rfl⟩ := Option.map_eq_some_iff.mp hv
    exact (h.plan p rfl).numbers_toJson hdoubles n hn
  · obtain ⟨v, hv, rfl⟩ := mem_optionalMember.mp hkv
    obtain ⟨t, rfl, rfl⟩ := Option.map_eq_some_iff.mp hv
    cases hn
  · cases hn
  · exact h.budget.numbers n hn

end RequestRecord

/-! ## Moments -/

namespace Capsule

theorem instantDecoder_ofValue (s : Scope) {i : Instant} (h : i.Valid) :
    instantDecoder s (Doc.ofValue (.str i.text)) = .ok i := by
  have htext : Json.textAs "an RFC 3339 formatted date and time string" s
      (Doc.ofValue (.str i.text)) = .ok i.text := rfl
  rw [instantDecoder, htext]
  simp only [h.ofText_text]

theorem valid_of_instantDecoder {s : Scope} {d : Doc} {i : Instant}
    (h : instantDecoder s d = .ok i) : i.Valid := by
  unfold instantDecoder at h
  split at h
  · cases h
  split at h
  · rename_i hread
    cases h
    exact Instant.valid_of_ofText hread
  · cases h

theorem optionalInstant_ofValue (s : Scope) {i : Option Instant} (h : ∀ j ∈ i, j.Valid) :
    Json.optional instantDecoder s (Doc.ofValue (instantJson i)) = .ok i := by
  cases i with
  | none => rfl
  | some j =>
    exact Json.optional_ofValue_of_ne (by simp [instantJson, Value.ofOption])
      (instantDecoder_ofValue s (h j rfl))

/-! ## Capsules -/

/-- How deep a cell of a result may be nested, so that a capsule with the result can be read: it lies
in a row, in the table, in the object of the result, in that of the capsule. -/
def cellDepth : Nat := Json.maxDepth - 4

/-- How many levels are left for the plan of a capsule. -/
def planDepth : Nat := Json.maxDepth - 3

/-- A capsule whose parts can be written, whatever its result is. -/
structure Written (c : Capsule) : Prop where
  request : c.request.Fits planDepth
  created : c.createdAt.Valid
  started : ∀ i ∈ c.startedAt, i.Valid
  finished : ∀ i ∈ c.finishedAt, i.Valid

/-- The doubles in the plan and in the result of a capsule are the same after they were written and
read. -/
structure DoublesSurvive (c : Capsule) : Prop where
  plan : ∀ l ∈ c.request.literals, l.Survives
  result : ∀ r ∈ c.result, r.DoublesSurvive

/-- **What is read from a text can be written.** -/
theorem written_of_decodeText {t : String} {c : Capsule} (h : Json.decodeText decoder t = .ok c) :
    c.Written := by
  refine RecordShape.decode_preserves (P := fun _ => True) (Q := Written) ?_
    ⟨⟨by simp [shape], by decide, by decide, by decide⟩, by constructor <;> decide, by simp [shape],
      by simp [shape]⟩
    (fun _ _ => trivial) (Json.decodeText_eq_ok h)
  intro k step d acc acc' hset _ hstep hacc
  have hpart : ∀ i : Option Instant,
      Json.optional instantDecoder Scope.ofText.inner d = .ok i → ∀ j ∈ i, j.Valid := by
    rintro _ hi j rfl
    exact valid_of_instantDecoder (Json.optional_eq_ok hi)
  simp only [shape] at hset
  split at hset
  case h_3 =>
    cases hset
    obtain ⟨r, hr, rfl⟩ := map_eq_ok.mp hstep
    exact ⟨RequestRecord.fits_of_decoder (s := Scope.ofText.inner) rfl hr, hacc.created,
      hacc.started, hacc.finished⟩
  case h_4 =>
    cases hset
    obtain ⟨i, hi, rfl⟩ := map_eq_ok.mp hstep
    exact ⟨hacc.request, valid_of_instantDecoder hi, hacc.started, hacc.finished⟩
  case h_5 =>
    cases hset
    obtain ⟨i, hi, rfl⟩ := map_eq_ok.mp hstep
    exact ⟨hacc.request, hacc.created, hpart i hi, hacc.finished⟩
  case h_6 =>
    cases hset
    obtain ⟨i, hi, rfl⟩ := map_eq_ok.mp hstep
    exact ⟨hacc.request, hacc.created, hacc.started, hpart i hi⟩
  case h_10 => cases hset
  all_goals
    cases hset
    obtain ⟨v, -, rfl⟩ := map_eq_ok.mp hstep
    exact ⟨hacc.request, hacc.created, hacc.started, hacc.finished⟩

variable {c : Capsule}

theorem Written.numbers (h : c.Written) (hresult : ∀ r ∈ c.result, r.Stored)
    (hdoubles : c.DoublesSurvive) : ∀ n ∈ c.toJson.numbers, n.Carried := by
  have hflat : ∀ t : Option String, (Value.ofOption t).numbers = [] := fun t => by
    cases t <;> rfl
  have hrequest := h.request.numbers hdoubles.plan
  have hresultNumbers : ∀ n ∈ ((c.result.map RunResult.toJson).getD .null).numbers, n.Carried := by
    obtain ⟨-, hdoubles⟩ := hdoubles
    cases hr : c.result with
    | none => exact fun n hn => (List.not_mem_nil hn).elim
    | some r => exact (hresult r hr).numbers (hdoubles r hr)
  intro n hn
  simp only [toJson, instantJson, Value.numbers, Json.fieldNumbers, hflat, List.nil_append,
    List.append_nil, List.mem_append] at hn
  exact hn.elim (hrequest n) (hresultNumbers n)

/-- The members of a capsule in front of its result are put into the record. -/
theorem Written.takeFields_front (h : c.Written) (hdoubles : c.DoublesSurvive)
    (rest : List (String × Value)) :
    takeFields shape.set Scope.ofText.inner [] shape.start (docFields
      (("run_id", .str c.runId) :: ("backend", .str c.backend) :: ("request", c.request.toJson) ::
        ("created_at", .str c.createdAt.text) :: ("started_at", instantJson c.startedAt) ::
        ("finished_at", instantJson c.finishedAt) :: ("final_status", .str c.status.wire) :: rest))
      = takeFields shape.set Scope.ofText.inner ["final_status", "finished_at", "started_at",
          "created_at", "request", "backend", "run_id"]
        { c with result := none, error := none } (docFields rest) := by
  have hrequest : RequestRecord.decoder Scope.ofText.inner (Doc.ofValue c.request.toJson)
      = .ok c.request :=
    RequestRecord.Fits.decoder_ofValue (s := Scope.ofText.inner) h.request (by decide) hdoubles.plan
  simp only [docFields]
  rw [Json.takeFields_cons rfl rfl (Json.text_ofValue _ c.runId),
    Json.takeFields_cons rfl rfl (Json.text_ofValue _ c.backend),
    Json.takeFields_cons rfl rfl hrequest,
    Json.takeFields_cons rfl rfl (instantDecoder_ofValue _ h.created),
    Json.takeFields_cons rfl rfl (optionalInstant_ofValue _ h.started),
    Json.takeFields_cons rfl rfl (optionalInstant_ofValue _ h.finished),
    Json.takeFields_cons rfl rfl (CapsuleStatus.decoder_ofValue _ c.status)]
  rfl

/-- **The document of a capsule reads back**, if the cells of its result are not nested too deep. -/
theorem Written.read_pretty (h : c.Written) (hresult : ∀ r ∈ c.result, r.Stored)
    (hdoubles : c.DoublesSurvive)
    (hcells : ∀ r ∈ c.result, ∀ row ∈ r.rows, ∀ cell ∈ row, cell.nesting ≤ cellDepth) :
    Json.decodeText decoder c.toJson.pretty = .ok c := by
  have hdecoded : Json.optional RunResult.decoder Scope.ofText.inner
      (Doc.ofValue ((c.result.map RunResult.toJson).getD .null)) = .ok c.result := by
    cases hr : c.result with
    | none => rfl
    | some r =>
      have hstored := hresult r hr
      refine Json.optional_ofValue_of_ne (by simp [RunResult.toJson]) ?_
      refine RunResult.decoder_ofValue (by decide) hstored.count hstored.time hstored.order
        fun row hrow cell hcell => ?_
      exact Nat.add_le_add_right (hcells r hr row hrow cell hcell) 3
  have hdocument : decoder .ofText (Doc.ofValue c.toJson) = .ok c := by
    refine RecordShape.decode_fields ["error", "result", "final_status", "finished_at",
      "started_at", "created_at", "request", "backend", "run_id"] rfl ?_ (by decide)
    rw [h.takeFields_front hdoubles]
    simp only [docFields]
    rw [Json.takeFields_cons rfl rfl hdecoded,
      Json.takeFields_cons rfl rfl (Json.optional_ofValue _ c.error)]
    rfl
  rw [Json.decodeText_pretty (h.numbers hresult hdoubles), hdocument]

/-- One cell that is nested deeper makes the document unreadable. -/
theorem Written.read_pretty_deep (h : c.Written) (hresult : ∀ r ∈ c.result, r.Stored)
    (hdoubles : c.DoublesSurvive)
    (hcells : ∃ r ∈ c.result, ∃ row ∈ r.rows, ∃ cell ∈ row, cellDepth < cell.nesting) :
    Json.decodeText decoder c.toJson.pretty = .error (.fault .recursionLimit) := by
  obtain ⟨r, hr, hdeep⟩ := hcells
  have hrefused : RunResult.decoder Scope.ofText.inner (Doc.ofValue r.toJson)
      = .error (.fault .recursionLimit) := by
    obtain ⟨row, hrow, cell, hcell, hdeep⟩ := hdeep
    refine RunResult.decoder_ofValue_deep (by decide) (hresult r hr).order
      ⟨row, hrow, cell, hcell, ?_⟩
    exact Nat.add_lt_add_right hdeep 3
  have hdecoded : Json.optional RunResult.decoder Scope.ofText.inner
      (Doc.ofValue ((c.result.map RunResult.toJson).getD .null))
        = .error (.fault .recursionLimit) := by
    have hsome : c.result = some r := hr
    rw [hsome]
    exact congrArg (Except.map some) hrefused
  have hdocument : decoder .ofText (Doc.ofValue c.toJson) = .error (.fault .recursionLimit) := by
    refine RecordShape.decode_fields_error rfl ?_
    rw [h.takeFields_front hdoubles]
    simp only [docFields]
    rw [Json.takeFields_cons_error rfl rfl hdecoded]
  rw [Json.decodeText_pretty (h.numbers hresult hdoubles), hdocument]

/-! ## The ends of a run -/

theorem Written.closed {b : Capsule} (h : b.Written) (v : Verdict) {now : Instant}
    (hnow : now.Valid) : (v.closed b now).Written where
  request := h.request
  created := h.created
  started := h.started
  finished := by
    rintro _ ⟨⟩
    exact hnow

theorem written_pending (runId backend : String) {request : RequestRecord}
    (hrequest : request.Fits planDepth) {now : Instant} (hnow : now.Valid) :
    (pending runId backend request now).Written where
  request := hrequest
  created := hnow
  started := by
    rintro _ ⟨⟩
    exact hnow
  finished := by simp [pending]

/-- A run that waits for its result. -/
def waiting : Capsule :=
  pending "00000000-0000-4000-8000-000000000000" "container"
    ⟨"tickets", .sql, none, some "SELECT 1", "SELECT 1", .default⟩ ⟨2024, 1, 1, 0, 0, 0, 0⟩

theorem written_waiting : waiting.Written :=
  written_pending _ _ ⟨by simp, by constructor <;> decide⟩ (by constructor <;> decide)

theorem literals_waiting : waiting.request.literals = [] := rfl

theorem read_waiting : Json.decodeText decoder waiting.toJson.pretty = .ok waiting := by
  refine written_waiting.read_pretty ?_ ⟨by simp [literals_waiting], ?_⟩ ?_
  all_goals simp [waiting, pending]

end Capsule

end Enclave
