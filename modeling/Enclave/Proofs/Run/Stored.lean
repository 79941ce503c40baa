import Enclave.Proofs.Run.Output
import Enclave.Proofs.Script.Literal
import Enclave.Proofs.Script.Report

/-!
# Results in records

Every result that is found in an output is one whose document can be written and read again
(`stored_of_readResult`), as far as its cells are not nested too deep for the reader. How deep they
may be nested depends on the document that the result stands in.
-/

namespace Enclave

open Json (Value Doc Numeral Scope)

namespace RunResult

/-- A result as it stands in a document: its counts fit into words, and its cells are values in
order whose integers do. -/
structure Stored (r : RunResult) : Prop where
  count : r.rowCount < 2 ^ 64
  time : r.timeMs < 2 ^ 64
  order : ∀ row ∈ r.rows, ∀ cell ∈ row, cell.canonical = cell
  words : ∀ row ∈ r.rows, ∀ cell ∈ row, ∀ n ∈ cell.numbers, n.InWord

variable {r : RunResult}

theorem Stored.numbers (h : r.Stored) (hdoubles : r.DoublesSurvive) :
    ∀ n ∈ r.toJson.numbers, n.Carried := by
  refine numbers_toJson (carried_nat h.count) (carried_nat h.time) fun row hrow cell hcell n hn => ?_
  cases n with
  | int n => exact h.words row hrow cell hcell (.int n) hn
  | float f => exact hdoubles row hrow cell hcell f hn
  | tooLarge => exact (Json.tooLarge_notMem_numbers cell hn).elim

end RunResult

/-! ## Numbers of a decoded result -/

namespace RunResult

/-- A result that was decoded: its cells are in order, and all its numbers stood in what it was
decoded from, so what held of those holds of them. -/
structure Decoded (P : Numeral → Prop) (r : RunResult) : Prop where
  count : P (.int r.rowCount)
  time : P (.int r.timeMs)
  order : ∀ row ∈ r.rows, ∀ cell ∈ row, cell.canonical = cell
  cells : ∀ row ∈ r.rows, ∀ cell ∈ row, ∀ n ∈ cell.numbers, P n

variable {P : Numeral → Prop} {r : RunResult}

/-- The fields of a result keep it decoded, each from a tree with such numbers. -/
theorem decoded_preserves (s : Scope) :
    Json.Preserves shape.set s (fun d => ∀ n ∈ d.numbers, P n) (Decoded P) := by
  intro k step d acc acc' hset hd hstep hacc
  have hword : ∀ {n : Nat}, Json.word64 s d = .ok n → P (.int n) := by
    intro n hn
    refine hd _ ?_
    rw [Json.word_eq_num hn]
    exact List.mem_singleton.mpr rfl
  simp only [shape] at hset
  split at hset
  case h_3 =>
    cases hset
    obtain ⟨rows, hrows, rfl⟩ := map_eq_ok.mp hstep
    have hcell : ∀ row ∈ rows, ∀ cell ∈ row, cell.canonical = cell ∧ ∀ n ∈ cell.numbers, P n := by
      intro row hrow cell hcell
      obtain ⟨drow, hdrow, hrow⟩ := Json.list_eq_ok hrows row hrow
      obtain ⟨dcell, hdcell, hcell⟩ := Json.list_eq_ok hrow cell hcell
      have hvalue := Json.comesFrom_toValue dcell _ cell (Json.anyValue_eq_ok hcell)
      have hnumbers := numbers_of_child hdcell (numbers_of_child hdrow hd)
      exact ⟨hvalue.canonical, fun n hn => hnumbers n (hvalue.numbers n hn)⟩
    exact ⟨hacc.count, hacc.time, fun row hrow cell hc => (hcell row hrow cell hc).1,
      fun row hrow cell hc => (hcell row hrow cell hc).2⟩
  case h_4 =>
    cases hset
    obtain ⟨n, hn, rfl⟩ := map_eq_ok.mp hstep
    exact ⟨hword hn, hacc.time, hacc.order, hacc.cells⟩
  case h_5 =>
    cases hset
    obtain ⟨n, hn, rfl⟩ := map_eq_ok.mp hstep
    exact ⟨hacc.count, hword hn, hacc.order, hacc.cells⟩
  case h_10 => cases hset
  all_goals
    cases hset
    obtain ⟨v, -, rfl⟩ := map_eq_ok.mp hstep
    exact ⟨hacc.count, hacc.time, hacc.order, hacc.cells⟩

theorem decoded_of_decoder (hzero : P (.int 0)) {s : Scope} {d : Doc} (hd : ∀ n ∈ d.numbers, P n)
    (h : decoder s d = .ok r) : r.Decoded P :=
  Json.RecordShape.decode_preserves (decoded_preserves s.inner)
    ⟨hzero, hzero, by simp [shape], by simp [shape]⟩ (fun _ hd' => numbers_of_child hd' hd) h

theorem Decoded.checkShape (hzero : P (.int 0)) {r' : RunResult} (h : r.Decoded P)
    (hcheck : r.checkShape = .ok r') : r'.Decoded P := by
  unfold RunResult.checkShape at hcheck
  split at hcheck
  · cases hcheck
  split at hcheck
  · split at hcheck <;> cases hcheck
    exact h
  · cases hcheck
    exact ⟨hzero, h.time, by simp, by simp⟩
  · cases hcheck
    exact h

theorem Decoded.stored (h : r.Decoded Numeral.InWord) : r.Stored := by
  have hword : ∀ {n : Nat}, (Numeral.int n).InWord → n < 2 ^ 64 := by
    intro n hn
    have hlt : (n : Int) < 2 ^ 64 := hn.2
    omega
  exact ⟨hword h.count, hword h.time, h.order, h.cells⟩

end RunResult

/-- A mapping that is a result has all the numbers of the result. -/
theorem decoded_of_resultOfValue {P : Numeral → Prop} (hzero : P (.int 0)) {v : Value}
    (hv : ∀ n ∈ v.numbers, P n) {r : RunResult} (h : resultOfValue v = .ok r) : r.Decoded P := by
  unfold resultOfValue at h
  split at h
  · cases h
  split at h
  · cases h
  rename_i hdecode
  split at h
  · rename_i hshape
    cases h
    refine (RunResult.decoded_of_decoder hzero (fun n hn => ?_) hdecode).checkShape hzero hshape
    rw [Json.numbers_ofValue] at hn
    exact hv n (Json.mem_numbers_canonical hn)
  · cases h

/-- **What is found in an output can be stored.** -/
theorem stored_of_readResult {text : String} {r : RunResult} (h : readResult text = .ok r) :
    r.Stored := by
  obtain ⟨v, hv, c, hc⟩ := resultOfValue_of_readResult h
  have hwords : ∀ n ∈ v.numbers, n.InWord := by
    rcases hc with hparse | hliteral
    · obtain ⟨d, hread, hvalue⟩ := Value.parse_eq_ok hparse
      have hd := Doc.read_inWord c
      rw [hread] at hd
      exact fun n hn => hd n ((Json.comesFrom_toValue _ _ _ hvalue).numbers n hn)
    · exact fun n hn => (Script.Literal.signedWords_of_read hliteral n hn).inWord
  have hzero : (Numeral.int 0).InWord := ⟨by decide, by decide⟩
  exact (decoded_of_resultOfValue hzero hwords hv).stored

end Enclave
