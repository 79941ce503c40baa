import Enclave.Run.Output
import Enclave.Proofs.Json.RoundTrip
import Enclave.Proofs.Json.Decode

/-!
# Results as documents

The document of a result decodes to the result (`decodeValue_toJson`): its members come in the order
of their names (`canonical_toJson`), and each is decoded from what it was written as. The check of a
result passes exactly what is `WellShaped`.

Not every value may stand in a cell. `ReadCell` says which values the reader of JSON gives; those
come back when a result was written and read. Every `Scalar` is such a value.
-/

namespace Enclave

open Json (Value Doc Fields Numeral)

namespace RunResult

/-- The document of a result with its members in order. -/
theorem canonical_toJson (r : RunResult) (h : ∀ row ∈ r.rows, ∀ cell ∈ row, cell.canonical = cell) :
    r.toJson.canonical = .obj [("columns", .strings r.columns), ("error", .ofOption r.error),
      ("exec_time_ms", .nat r.timeMs), ("row_count", .nat r.rowCount),
      ("rows", .arr (r.rows.map Value.arr)), ("status", .str r.status.wire),
      ("stderr_trunc", .str r.stderr), ("stdout_trunc", .str r.stdout),
      ("truncated", .bool r.truncated)] := by
  rw [toJson, Value.canonical, Value.canonicalFields_eq_ofList]
  have hcolumns : (Value.strings r.columns).canonical = .strings r.columns := by
    simp [Value.strings, Value.canonical, Value.canonicalItems_eq, Function.comp_def]
  have herror : (Value.ofOption r.error).canonical = .ofOption r.error := by
    cases r.error <;> rfl
  have hrows : (Value.arr (r.rows.map Value.arr)).canonical = .arr (r.rows.map Value.arr) := by
    rw [Value.canonical, Value.canonicalItems_eq, List.map_map]
    refine congrArg _ (List.map_congr_left fun row hrow => ?_)
    rw [Function.comp_apply, Value.canonical, Value.canonicalItems_eq]
    exact congrArg _ ((List.map_congr_left (h row hrow)).trans (List.map_id row))
  simp only [List.map_cons, List.map_nil, hcolumns, herror, hrows]
  simp only [Value.canonical, Value.nat, Fields.ofList, Fields.insert, List.foldl_cons, List.foldl_nil,
    String.reduceEq, String.reduceLT, ↓reduceIte]

theorem statusDecoder_ofValue (s : Json.Scope) (status : RunStatus) :
    RunStatus.decoder s (Doc.ofValue (.str status.wire)) = .ok status := by
  cases status <;> rfl

/-- A place with levels left for a result, its table and the rows of the table. -/
structure Admits (s : Json.Scope) : Prop where
  result : Json.guardDepth s = .ok ()
  table : Json.guardDepth s.inner = .ok ()
  row : Json.guardDepth s.inner.inner = .ok ()

theorem admits_of_depth {s : Json.Scope} (h : 3 ≤ s.depth) : Admits s where
  result := Json.guardDepth_of_pos (by omega)
  table := Json.guardDepth_of_pos (by simp only [Json.Scope.inner]; omega)
  row := Json.guardDepth_of_pos (by simp only [Json.Scope.inner]; omega)

theorem admits_of_tree {s : Json.Scope} (h : s.origin = .tree) : Admits s where
  result := Json.guardDepth_of_tree h
  table := Json.guardDepth_of_tree h
  row := Json.guardDepth_of_tree h

section Parts

variable {s : Json.Scope} (hadmits : Admits s)
include hadmits

theorem columns_ofValue (columns : List String) :
    Json.list Json.text s.inner (Doc.ofValue (.strings columns)) = .ok columns :=
  Json.list_ofValues hadmits.table fun c _ => Json.text_ofValue s.inner.inner c

/-- A row is decoded, its cells in order, if they are nested no deeper than is left for them. -/
theorem row_ofValue_iff {row row' : List Value} :
    Json.list Json.anyValue s.inner.inner (Doc.ofValue (.arr row)) = .ok row' ↔
      (∀ cell ∈ row, cell.nesting ≤ s.inner.inner.inner.depth) ∧
        row' = row.map Value.canonical := by
  have hcells : Json.list Json.anyValue s.inner.inner (Doc.ofValue (.arr (row.map id))) = .ok row' ↔
      (∀ cell ∈ row, cell.nesting ≤ s.inner.inner.inner.depth) ∧
        row' = row.map Value.canonical :=
    Json.list_ofValues_iff hadmits.row fun _ _ _ => Json.anyValue_ofValue_iff
  rwa [List.map_id] at hcells

theorem rows_ofValue_iff {rows rows' : List (List Value)} :
    Json.list (Json.list Json.anyValue) s.inner (Doc.ofValue (.arr (rows.map Value.arr))) =
        .ok rows' ↔
      (∀ row ∈ rows, ∀ cell ∈ row, cell.nesting ≤ s.inner.inner.inner.depth) ∧
        rows' = rows.map (List.map Value.canonical) :=
  Json.list_ofValues_iff hadmits.table fun _ _ _ => row_ofValue_iff hadmits

theorem row_ofValue {row : List Value} (h : ∀ cell ∈ row, cell.canonical = cell)
    (hdepth : ∀ cell ∈ row, cell.nesting ≤ s.inner.inner.inner.depth) :
    Json.list Json.anyValue s.inner.inner (Doc.ofValue (.arr row)) = .ok row :=
  (row_ofValue_iff hadmits).mpr
    ⟨hdepth, ((List.map_congr_left h).trans (List.map_id row)).symm⟩

/-- One cell that is nested deeper is enough for a row to be refused. -/
theorem row_ofValue_deep {row : List Value} (h : ∀ cell ∈ row, cell.canonical = cell)
    (hdepth : ∃ cell ∈ row, s.inner.inner.inner.depth < cell.nesting) :
    Json.list Json.anyValue s.inner.inner (Doc.ofValue (.arr row))
      = .error (.fault .recursionLimit) := by
  have hcell : ∀ cell : Value, s.inner.inner.inner.depth < cell.nesting →
      Json.anyValue s.inner.inner.inner (Doc.ofValue cell) = .error (.fault .recursionLimit) :=
    fun cell hdeep => by rw [Json.anyValue, cell.toValue_ofValue_deep _ hdeep, Json.ofFault]
  obtain ⟨cell, hmem, hdeep⟩ := hdepth
  have hcells : Json.list Json.anyValue s.inner.inner (Doc.ofValue (.arr (row.map id)))
      = .error (.fault .recursionLimit) := by
    refine Json.list_ofValues_error hadmits.row (fun c hc => ?_) ⟨cell, hmem, hcell cell hdeep⟩
    rcases Nat.lt_or_ge s.inner.inner.inner.depth c.nesting with hlt | hle
    · exact .inr (hcell c hlt)
    · exact .inl (Json.anyValue_ofValue hle (h c hc))
  rwa [List.map_id] at hcells

theorem rows_ofValue {rows : List (List Value)}
    (h : ∀ row ∈ rows, ∀ cell ∈ row, cell.canonical = cell)
    (hdepth : ∀ row ∈ rows, ∀ cell ∈ row, cell.nesting ≤ s.inner.inner.inner.depth) :
    Json.list (Json.list Json.anyValue) s.inner (Doc.ofValue (.arr (rows.map Value.arr)))
      = .ok rows :=
  Json.list_ofValues hadmits.table fun row hrow =>
    row_ofValue hadmits (h row hrow) (hdepth row hrow)

/-- One cell that is nested too deep is enough for a table to be refused. -/
theorem rows_ofValue_deep {rows : List (List Value)}
    (h : ∀ row ∈ rows, ∀ cell ∈ row, cell.canonical = cell)
    (hdepth : ∃ row ∈ rows, ∃ cell ∈ row, s.inner.inner.inner.depth < cell.nesting) :
    Json.list (Json.list Json.anyValue) s.inner (Doc.ofValue (.arr (rows.map Value.arr)))
      = .error (.fault .recursionLimit) := by
  obtain ⟨row, hrow, hdeep⟩ := hdepth
  -- The rows in front of it may be decoded or fail likewise: the failure is the same.
  refine Json.list_ofValues_error hadmits.table (fun other hother => ?_)
    ⟨row, hrow, row_ofValue_deep hadmits (h row hrow) hdeep⟩
  by_cases hotherDeep : ∃ cell ∈ other, s.inner.inner.inner.depth < cell.nesting
  · exact .inr (row_ofValue_deep hadmits (h other hother) hotherDeep)
  · simp only [not_exists, not_and, Nat.not_lt] at hotherDeep
    exact .inl (row_ofValue hadmits (h other hother) hotherDeep)

end Parts

/-- How deep a cell lies within a table. -/
theorem nesting_cell_le {rows : List (List Value)} {row : List Value} {cell : Value}
    (hrow : row ∈ rows) (hcell : cell ∈ row) :
    cell.nesting + 2 ≤ (Value.arr (rows.map Value.arr)).nesting := by
  have hinner := Value.itemNesting_le_iff.mp (Nat.le_refl _) cell hcell
  have houter := Value.itemNesting_le_iff.mp (Nat.le_refl _) _
    (List.mem_map_of_mem (f := Value.arr) hrow)
  rw [Value.nesting] at houter ⊢
  omega

/-- The document of a result decodes to the result. -/
theorem decodeValue_toJson {r : RunResult} (hcount : r.rowCount < 2 ^ 64)
    (htime : r.timeMs < 2 ^ 64) (hcells : ∀ row ∈ r.rows, ∀ cell ∈ row, cell.canonical = cell) :
    Json.decodeValue decoder r.toJson.canonical = .ok r := by
  rw [Json.decodeValue, Value.canonical_canonical]
  have hdepth : ∀ row ∈ r.rows, ∀ cell ∈ row,
      cell.nesting ≤ (Json.Scope.ofTree r.toJson.canonical).inner.inner.inner.depth := by
    intro row hrow cell hcell
    have hrows := nesting_cell_le hrow hcell
    have hfields : (Value.arr (r.rows.map Value.arr)).nesting + 1 ≤ r.toJson.canonical.nesting := by
      rw [canonical_toJson r hcells]
      generalize Value.arr (r.rows.map Value.arr) = table
      simp only [Value.nesting, Value.fieldNesting]
      omega
    simp only [Json.Scope.ofTree, Json.Scope.inner]
    omega
  generalize hscope : Json.Scope.ofTree r.toJson.canonical = scope at hdepth ⊢
  have horigin : scope.origin = .tree := by
    rw [← hscope]
    rfl
  have hadmits := admits_of_tree horigin
  have hrows := rows_ofValue hadmits hcells hdepth
  rw [canonical_toJson r hcells]
  have hseen : ∀ n ∈ shape.required, n ∈ ["truncated", "stdout_trunc", "stderr_trunc", "status",
      "rows", "row_count", "exec_time_ms", "error", "columns"] := by
    decide
  refine Json.RecordShape.decode_fields _ hadmits.result ?_ hseen
  simp only [Json.docFields]
  rw [Json.takeFields_cons rfl rfl (columns_ofValue hadmits r.columns),
    Json.takeFields_cons rfl rfl (Json.optional_ofValue _ r.error),
    Json.takeFields_cons rfl rfl (Json.word_ofValue 64 "u64" _ htime),
    Json.takeFields_cons rfl rfl (Json.word_ofValue 64 "u64" _ hcount),
    Json.takeFields_cons rfl rfl hrows,
    Json.takeFields_cons rfl rfl (statusDecoder_ofValue _ r.status),
    Json.takeFields_cons rfl rfl (Json.text_ofValue _ r.stderr),
    Json.takeFields_cons rfl rfl (Json.text_ofValue _ r.stdout),
    Json.takeFields_cons rfl rfl (Json.flag_ofValue _ r.truncated)]
  rfl

/-- The document of a result decodes to the result as it stands in another document, if its cells
are nested no deeper than is left for them. -/
theorem decoder_ofValue {r : RunResult} {s : Json.Scope} (hlevels : 3 ≤ s.depth)
    (hcount : r.rowCount < 2 ^ 64) (htime : r.timeMs < 2 ^ 64)
    (hcells : ∀ row ∈ r.rows, ∀ cell ∈ row, cell.canonical = cell)
    (hdepth : ∀ row ∈ r.rows, ∀ cell ∈ row, cell.nesting + 3 ≤ s.depth) :
    decoder s (Doc.ofValue r.toJson) = .ok r := by
  have hadmits := admits_of_depth hlevels
  have hrows := rows_ofValue hadmits hcells fun row hrow cell hcell => by
    have hcell := hdepth row hrow cell hcell
    simp only [Json.Scope.inner]
    omega
  refine Json.RecordShape.decode_fields ["truncated", "error", "stderr_trunc", "stdout_trunc",
    "exec_time_ms", "row_count", "rows", "columns", "status"] hadmits.result ?_ (by decide)
  simp only [Json.docFields]
  rw [Json.takeFields_cons rfl rfl (statusDecoder_ofValue _ r.status),
    Json.takeFields_cons rfl rfl (columns_ofValue hadmits r.columns),
    Json.takeFields_cons rfl rfl hrows,
    Json.takeFields_cons rfl rfl (Json.word_ofValue 64 "u64" _ hcount),
    Json.takeFields_cons rfl rfl (Json.word_ofValue 64 "u64" _ htime),
    Json.takeFields_cons rfl rfl (Json.text_ofValue _ r.stdout),
    Json.takeFields_cons rfl rfl (Json.text_ofValue _ r.stderr),
    Json.takeFields_cons rfl rfl (Json.optional_ofValue _ r.error),
    Json.takeFields_cons rfl rfl (Json.flag_ofValue _ r.truncated)]
  rfl

/-- With a cell that is nested deeper, it is refused. -/
theorem decoder_ofValue_deep {r : RunResult} {s : Json.Scope} (hlevels : 3 ≤ s.depth)
    (hcells : ∀ row ∈ r.rows, ∀ cell ∈ row, cell.canonical = cell)
    (hdepth : ∃ row ∈ r.rows, ∃ cell ∈ row, s.depth < cell.nesting + 3) :
    decoder s (Doc.ofValue r.toJson) = .error (.fault .recursionLimit) := by
  have hadmits := admits_of_depth hlevels
  obtain ⟨row, hrow, cell, hcell, hdeep⟩ := hdepth
  have hrows := rows_ofValue_deep hadmits hcells
    ⟨row, hrow, cell, hcell, by simp only [Json.Scope.inner]; omega⟩
  refine Json.RecordShape.decode_fields_error hadmits.result ?_
  simp only [Json.docFields]
  rw [Json.takeFields_cons rfl rfl (statusDecoder_ofValue _ r.status),
    Json.takeFields_cons rfl rfl (columns_ofValue hadmits r.columns),
    Json.takeFields_cons_error rfl rfl hrows]

/-! ## Shapes and cells -/

/-- A result whose parts fit together: the count is that of the rows, the rows of a success are as
wide as its columns, and a timeout has no rows. -/
structure WellShaped (r : RunResult) : Prop where
  count : r.rowCount = r.rows.length
  width : r.status = .success → ∀ row ∈ r.rows, row.length = r.columns.length
  timeout : r.status = .timeout → r.rows = []

/-- How deep a cell of a result may be nested, so that the result can be read: it lies in a row, in
the table, in the object of the result. -/
def cellDepth : Nat := Json.maxDepth - 3

/-- A cell as the reader of JSON gives it: a value in order, not nested too deep, whose integers fit
into words. -/
structure ReadCell (cell : Value) : Prop where
  canonical : cell.canonical = cell
  nesting : cell.nesting ≤ cellDepth
  numbers : ∀ n ∈ cell.numbers, n.InWord

/-- What passes the check fits together. -/
theorem wellShaped_of_checkShape {r r' : RunResult} (h : r.checkShape = .ok r') :
    r'.WellShaped := by
  unfold checkShape at h
  split at h
  · cases h
  rename_i hcount
  rw [ne_eq, not_not] at hcount
  cases hstatus : r.status with
  | success =>
    simp only [hstatus] at h
    split at h
    · cases h
    · rename_i hwidth
      cases h
      refine ⟨hcount, fun _ row hrow => ?_, fun htimeout => ?_⟩
      · simpa using List.find?_eq_none.mp hwidth row hrow
      · rw [hstatus] at htimeout
        cases htimeout
  | timeout =>
    simp only [hstatus] at h
    cases h
    exact ⟨rfl, fun _ row hrow => (List.not_mem_nil hrow).elim, fun _ => rfl⟩
  | error =>
    simp only [hstatus] at h
    cases h
    refine ⟨hcount, fun hsuccess => ?_, fun htimeout => ?_⟩
    · rw [hstatus] at hsuccess
      cases hsuccess
    · rw [hstatus] at htimeout
      cases htimeout

/-- What fits together passes the check as it is. -/
theorem WellShaped.checkShape {r : RunResult} (h : r.WellShaped) : r.checkShape = .ok r := by
  unfold RunResult.checkShape
  rw [if_neg (by simpa using h.count)]
  split
  · rename_i hsuccess
    have hwidth : (r.rows.find? fun row => row.length != r.columns.length) = none := by
      rw [List.find?_eq_none]
      intro row hrow
      simpa using h.width hsuccess row hrow
    simp only [hwidth]
  · rename_i htimeout
    have hrows := h.timeout htimeout
    have hcount := h.count
    rw [hrows, List.length_nil] at hcount
    rw [← hrows, ← hcount]
  · rfl

end RunResult

/-- A value that is no list and no object, its integer one of 64 bits: what an engine puts into a
cell. -/
def Json.Value.Scalar : Value → Prop
  | .null => True
  | .bool _ => True
  | .str _ => True
  | .int n => (Numeral.int n).InWord
  | .float _ => True
  | .arr _ => False
  | .obj _ => False

theorem Json.Value.Scalar.readCell {cell : Value} (h : cell.Scalar) : RunResult.ReadCell cell := by
  cases cell with
  | int n =>
    refine ⟨rfl, Nat.zero_le _, fun m hm => ?_⟩
    rw [Value.numbers, List.mem_singleton] at hm
    rw [hm]
    exact h
  | float f =>
    refine ⟨rfl, Nat.zero_le _, fun m hm => ?_⟩
    rw [Value.numbers, List.mem_singleton] at hm
    rw [hm]
    exact trivial
  | arr items => cases h
  | obj fields => cases h
  | _ => exact ⟨rfl, Nat.zero_le _, by simp [Value.numbers]⟩

end Enclave
