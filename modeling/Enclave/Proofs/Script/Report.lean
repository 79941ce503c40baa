import Enclave.Script.Report
import Enclave.Proofs.Json.Passage
import Enclave.Proofs.Run.Result

/-!
# Cells of a report

Whatever an interpreter prints, the cells of the report that is found in it are values as the reader
of JSON gives them: in order, with numbers that fit into words, and three levels less deep than a
text may be nested. The other way round, the tree of a report is decoded to the report exactly if
its cells are `Shallow` (`Report.decode_toJson_iff`).
-/

namespace Enclave

open Json (Value Doc Scope)
open RunResult (ReadCell)

/-- What holds of the numbers of a tree holds of those of its children. -/
theorem numbers_of_child {P : Json.Numeral → Prop} {d d' : Doc} (hd' : d' ∈ d.children)
    (h : ∀ n ∈ d.numbers, P n) : ∀ n ∈ d'.numbers, P n := by
  intro n hn
  cases d with
  | arr items stop => exact h n (Json.mem_itemNumerals hd' hn)
  | obj fields stop =>
    obtain ⟨x, hx, rfl⟩ := List.mem_map.mp hd'
    exact h n (Json.mem_fieldNumerals hx hn)
  | _ => cases hd'

namespace Script.Report

/-- The report with its cells in order. -/
def inOrder (r : Report) : Report := { r with rows := r.rows.map (List.map Value.canonical) }

/-- No cell is nested deeper than the containers around it leave room for. -/
def Shallow (r : Report) : Prop :=
  ∀ row ∈ r.rows, ∀ cell ∈ row, cell.nesting ≤ RunResult.cellDepth

theorem admits_ofText : RunResult.Admits Scope.ofText := RunResult.admits_of_depth (by decide)

/-- A written report is decoded, its cells in order, if they are not nested too deep. -/
theorem decode_toJson {r : Report} (h : r.Shallow) :
    shape.decode Scope.ofText (Doc.ofValue r.toJson) = .ok r.inOrder := by
  have hrows := (RunResult.rows_ofValue_iff admits_ofText).mpr ⟨h, rfl⟩
  refine Json.RecordShape.decode_fields ["stderr", "stdout", "error", "rows", "columns"]
    admits_ofText.result ?_ (by decide)
  rw [Json.docFields, Json.docFields, Json.docFields, Json.docFields, Json.docFields,
    Json.takeFields_cons rfl rfl (RunResult.columns_ofValue admits_ofText r.columns),
    Json.takeFields_cons rfl rfl hrows,
    Json.takeFields_cons rfl rfl (Json.optional_ofValue _ r.error),
    Json.takeFields_cons rfl rfl (Json.text_ofValue _ r.stdout),
    Json.takeFields_cons rfl rfl (Json.text_ofValue _ r.stderr)]
  rfl

theorem decode_toJson_deep {r : Report} (h : ¬r.Shallow) :
    ∃ e, shape.decode Scope.ofText (Doc.ofValue r.toJson) = .error e := by
  cases hrows : Json.list (Json.list Json.anyValue) Scope.ofText.inner
      (Doc.ofValue (.arr (r.rows.map Value.arr))) with
  | ok rows => exact absurd ((RunResult.rows_ofValue_iff admits_ofText).mp hrows).1 h
  | error e =>
    refine ⟨e, Json.RecordShape.decode_fields_error admits_ofText.result ?_⟩
    rw [Json.docFields, Json.docFields,
      Json.takeFields_cons rfl rfl (RunResult.columns_ofValue admits_ofText r.columns),
      Json.takeFields_cons_error rfl rfl hrows]

/-- What is decoded of a written report is the report, its cells in order. -/
theorem decode_toJson_iff {r r' : Report} :
    shape.decode Scope.ofText (Doc.ofValue r.toJson) = .ok r' ↔ r.Shallow ∧ r' = r.inOrder := by
  by_cases h : r.Shallow
  · simp [decode_toJson h, h, eq_comm]
  · obtain ⟨e, hdecode⟩ := decode_toJson_deep h
    simp [hdecode, h]

theorem shape_thorough : Json.Thorough shape.decode := by
  refine Json.RecordShape.decode_thorough fun k step hset acc => ?_
  have hfield : ∀ {β} {item : Json.Decoder β} {put : Report → β → Report}, Json.Thorough item →
      Json.field item put = some step → Json.Thorough (step acc) := by
    rintro β item put hitem ⟨⟩ s d a h
    obtain ⟨b, hb, -⟩ := map_eq_ok.mp h
    exact hitem s d b hb
  simp only [shape] at hset
  split at hset
  · exact hfield (Json.list_thorough Json.text_thorough) hset
  · exact hfield (Json.list_thorough (Json.list_thorough Json.anyValue_thorough)) hset
  · exact hfield (Json.optional_thorough Json.text_thorough) hset
  · exact hfield Json.text_thorough hset
  · exact hfield Json.text_thorough hset
  · cases hset

end Script.Report

end Enclave
