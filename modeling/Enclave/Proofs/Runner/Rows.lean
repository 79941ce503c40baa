import Enclave.Proofs.Runner.Confinement
import Enclave.Query.Engine

/-!
# The rows of an answer

A runner asks its engine for one row more than its request wants, and cuts the answer then, so that
it knows whether there was more. What it asks for has to be a word of 32 bits. `run_firstRows` says
that this goes well for every answer that such a word can count: the runner answers with its first
rows, as many as are wanted, and tells of a cut exactly where there is one.

This is about engines that answer with the first rows of one whole answer, however many they are
asked for (`Engine.AnswersFrom`). The engine over files is one of them
(`Query.engine_answersFrom`).
-/

namespace Enclave

open Json (Value)
open Table (Cell Column Frame)

/-! ## The first rows of a table -/

theorem Table.Frame.rows_take (f : Frame) (n : Nat) : (f.take n).rows = f.rows.take n := by
  obtain ⟨columns, height⟩ := f
  simp only [Frame.rows, Frame.take]
  induction columns with
  | nil => rw [List.map_nil, List.foldr_nil, List.foldr_nil, List.take_replicate]
  | cons c columns ih => rw [List.map_cons, List.foldr_cons, List.foldr_cons, ih, List.take_zipWith]

/-- An engine that answers a statement with the first rows of one whole answer, as many as it is
asked for. -/
def Engine.AnswersFrom (e : Engine) (tables : List TableFile) (statement : String)
    (names : List String) (whole : List (List Value)) : Prop :=
  ∀ limit ≤ Runner.maxFetch, e tables statement limit = .table names (whole.take limit)

namespace Query

variable {files : Path.Tree} {tables : List TableFile} {statement : String}

/-- The whole answer of a statement over tables in files. -/
def whole (files : Path.Tree) (tables : List TableFile) (statement : String) : Result Frame := do
  let tables ← tables.mapM (readTable files)
  let (q, bound) ← parse statement
  answer bound tables q

theorem run_eq_take (files : Path.Tree) (tables : List TableFile) (statement : String)
    (limit : Nat) :
    run files tables statement limit =
      (whole files tables statement).map fun f => f.take limit := by
  unfold run whole
  cases tables.mapM (readTable files) with
  | error e => rfl
  | ok frames =>
    cases parse statement with
    | error e => rfl
    | ok parsed => rfl

/-- The engine over files answers with the first rows of the whole answer, if there is one. -/
theorem engine_answersFrom {f : Frame} (h : whole files tables statement = .ok f) :
    (engine files).AnswersFrom tables statement (f.columns.map Column.name)
      (f.rows.map fun row => row.map Cell.toJson) := by
  intro limit _
  have hrun : run files tables statement limit = .ok (f.take limit) := by
    rw [run_eq_take, h]
    rfl
  have hnames : (f.take limit).columns.map Column.name = f.columns.map Column.name := by
    rw [Frame.take, List.map_map]
    rfl
  simp only [engine, hrun]
  rw [hnames, Frame.rows_take, List.map_take]

end Query

/-! ## The rows that are fetched -/

namespace Runner

/-- What is fetched in exact numbers: the number asked for is small beside the largest word. -/
theorem fetchRows_eq (maxRows : Nat) : fetchRows maxRows = min (maxRows + 1) maxFetch := by
  have hsmall : maxFetch ≤ Word.largest := by decide
  rw [fetchRows, Word.addSat, Nat.min_assoc, Nat.min_eq_right hsmall]

theorem fetchRows_le (maxRows : Nat) : fetchRows maxRows ≤ maxFetch := Nat.min_le_right _ _

section Fetched

variable {α : Type} {whole : List α} {maxRows : Nat}

/-- What is fetched begins with all rows that are wanted, if the rows of the answer can be counted
or fewer are wanted than can be asked for. -/
theorem take_fetched (h : whole.length ≤ maxFetch ∨ maxRows < maxFetch) :
    (whole.take (fetchRows maxRows)).take maxRows = whole.take maxRows := by
  rw [List.take_take, fetchRows_eq]
  by_cases hwanted : maxRows ≤ maxFetch
  · rw [show min maxRows (min (maxRows + 1) maxFetch) = maxRows by omega]
  · rw [List.take_of_length_le (by omega), List.take_of_length_le (by omega)]

/-- Under the same condition, one row more than wanted is fetched exactly if there is one. -/
theorem lt_length_fetched (h : whole.length ≤ maxFetch ∨ maxRows < maxFetch) :
    maxRows < (whole.take (fetchRows maxRows)).length ↔ maxRows < whole.length := by
  rw [List.length_take, fetchRows_eq]
  omega

end Fetched

/-! ## Results -/

/-- A result with the first rows of a whole answer, as many as are wanted, that tells whether there
were more. -/
structure FirstRows (names : List String) (whole : List (List Value)) (maxRows : Nat)
    (x : RunResult) : Prop where
  status : x.status = .success
  columns : x.columns = names
  rows : x.rows = whole.take (min whole.length maxRows)
  count : x.rowCount = min whole.length maxRows
  truncated : x.truncated = true ↔ maxRows < whole.length

theorem resultOf_firstRows {names : List String} {whole : List (List Value)} {r : Request}
    (h : whole.length ≤ maxFetch ∨ r.maxRows < maxFetch) (timeMs : Nat) :
    FirstRows names whole r.maxRows
      (resultOf r timeMs (.table names (whole.take (fetchRows r.maxRows)))) where
  status := rfl
  columns := rfl
  rows := by
    rw [Nat.min_comm, ← List.take_eq_take_min]
    exact take_fetched h
  count := by
    calc min (whole.take (fetchRows r.maxRows)).length r.maxRows
        = ((whole.take (fetchRows r.maxRows)).take r.maxRows).length := by
          rw [Nat.min_comm]
          exact List.length_take.symm
      _ = (whole.take r.maxRows).length := by rw [take_fetched h]
      _ = min whole.length r.maxRows := by rw [List.length_take, Nat.min_comm]
  truncated := by
    have htruncated :
        (resultOf r timeMs (.table names (whole.take (fetchRows r.maxRows)))).truncated =
          decide (r.maxRows < (whole.take (fetchRows r.maxRows)).length) := rfl
    rw [htruncated, decide_eq_true_iff, lt_length_fetched h]

/-! ## Runs -/

section Run

variable {s : RunnerSettings} {tools : RunnerTools} {r : Request} {tables : List TableFile}
  {statement : String}

/-- A cleared statement is answered by what the engine answers. -/
theorem run_of_cleared (htask : r.task = .sql statement)
    (hcleared : TaskCleared s tools.files r tables) (time : RunTime) :
    (run s tools r time).result =
      .ok (resultOf r time.tookMs (tools.engine tables statement (fetchRows r.maxRows))) := by
  have hcourse := run_course s tools r time
  generalize run s tools r time = ran at hcourse ⊢
  cases hcourse with
  | refused message hcause =>
    obtain ⟨code, hcode⟩ := (hcause tables hcleared).script
    cases htask.symm.trans hcode
  | queried tables' statement' htask' hcleared' =>
    obtain rfl := hcleared.tables_unique hcleared'
    cases htask.symm.trans htask'
    rfl
  | crashed _ code hcode => cases htask.symm.trans hcode
  | scripted _ code _ hcode => cases htask.symm.trans hcode

/-- **A runner answers a statement with its first rows**, as many as are wanted, and tells of a cut
exactly where there is one, if a word of 32 bits can count the rows of the whole answer. -/
theorem run_firstRows {names : List String} {whole : List (List Value)}
    (htask : r.task = .sql statement) (hcleared : TaskCleared s tools.files r tables)
    (hengine : tools.engine.AnswersFrom tables statement names whole)
    (hcountable : whole.length ≤ 2 ^ 32 - 1) (time : RunTime) :
    ∃ x, (run s tools r time).result = .ok x ∧ FirstRows names whole r.maxRows x := by
  refine ⟨_, run_of_cleared htask hcleared time, ?_⟩
  rw [hengine _ (fetchRows_le r.maxRows)]
  exact resultOf_firstRows (.inl hcountable) time.tookMs

/-- A file of four tickets below the data root. -/
def ticketFiles : Path.Tree :=
  ⟨[(["data"], .directory), (["data", "support"], .directory),
    (["data", "support", "tickets.csv"], .file "id,hours\n1,7\n2,5\n3,6\n4,8\n")]⟩

def ticketTable : TableFile := ⟨"tickets", "/data/support/tickets.csv"⟩

/-- The tickets that took long: all but one. -/
def ticketStatement : String := "SELECT id FROM tickets WHERE hours > 5"

/-- A request for two of them. -/
def ticketRequest : Request :=
  ⟨"support", [⟨"Tickets.csv", "/data/support/tickets.csv"⟩], .sql ticketStatement, 30, 2, 4096⟩

theorem run_firstRows_tickets : ∃ names whole,
    TaskCleared .default ticketFiles ticketRequest [ticketTable] ∧
      (Query.engine ticketFiles).AnswersFrom [ticketTable] ticketStatement names whole ∧
      whole.length = 3 ∧
      ∃ x, (run .default ⟨ticketFiles, Query.engine ticketFiles, none⟩ ticketRequest ⟨0, 7⟩).result
          = .ok x ∧ FirstRows names whole 2 x := by
  have htables : Runner.tables ticketFiles "/data" ticketRequest = .ok [ticketTable] := by
    decide +kernel
  have hpolicy : Sql.check ticketStatement = .ok () := eq_ok_of_isOk (by decide +kernel)
  have hcleared : TaskCleared .default ticketFiles ticketRequest [ticketTable] := by
    constructor
    case files => exact tables_eq_ok.mp htables
    case statement =>
      intro statement htask
      cases htask
      exact hpolicy
    case script =>
      intro code htask
      cases htask
  have hheight : (Query.whole ticketFiles [ticketTable] ticketStatement).toOption.map
      (fun f => f.rows.length) = some 3 := by
    decide +kernel
  obtain ⟨f, hwhole, hlength⟩ := Option.map_eq_some_iff.mp hheight
  have hengine := Query.engine_answersFrom (eq_ok_of_toOption hwhole)
  have hthree : (f.rows.map fun row => row.map Cell.toJson).length = 3 := by
    rw [List.length_map, hlength]
  refine ⟨_, _, hcleared, hengine, hthree, ?_⟩
  exact run_firstRows rfl hcleared hengine (by rw [hthree]; decide) ⟨0, 7⟩

end Run

end Runner

end Enclave
