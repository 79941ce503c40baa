import Enclave.CommandLine
import Enclave.Proofs.Run.Output
import Enclave.Proofs.Runner.Confinement
import Enclave.Proofs.Script.Report
import Enclave.Proofs.Text.Cut

/-!
# What a runner delivers

A backend knows of a run only the line that a runner printed. `Delivered` is what can be relied on:
the result keeps to the budget of its request, only a success has a table, everything else says why
there is none, and the line is read as the result (`Delivered.readBack`). Each way to make a result
delivers (`Delivered.failed`, `Delivered.timedOut`, `Delivered.table`, `Delivered.withOutput`), and
a run takes one of them, unless it breaks off (`Runner.run_ends`). `runner_delivers` says so of
whole runs and of the command line.

Of an engine it is supposed that its answers are lawful; nothing is supposed of an interpreter.
-/

namespace Enclave

open Json (Value Numeral)

/-! ## Results within a budget -/

/-- A result that a runner may hand back under a budget, after some time. -/
structure Delivered (maxRows maxOutputBytes timeMs : Nat) (r : RunResult) : Prop where
  count : r.rowCount = r.rows.length
  limit : r.rowCount ≤ maxRows
  success : r.status = .success →
    (∀ row ∈ r.rows, row.length = r.columns.length) ∧ r.error = none
  otherwise : r.status ≠ .success →
    r.rows = [] ∧ r.columns = [] ∧ ∃ message, r.error = some message
  stdout : r.stdout.utf8ByteSize ≤ maxOutputBytes
  stderr : r.stderr.utf8ByteSize ≤ maxOutputBytes
  cells : ∀ row ∈ r.rows, ∀ cell ∈ row, RunResult.ReadCell cell
  time : r.timeMs = timeMs

namespace Delivered

variable {maxRows maxOutputBytes timeMs : Nat} {r : RunResult}

theorem failed (maxRows maxOutputBytes : Nat) (message : String) (timeMs : Nat) :
    Delivered maxRows maxOutputBytes timeMs (.failed message timeMs) where
  count := rfl
  limit := Nat.zero_le _
  success h := by cases h
  otherwise _ := ⟨rfl, rfl, message, rfl⟩
  stdout := Nat.zero_le _
  stderr := Nat.zero_le _
  cells _ h := (List.not_mem_nil h).elim
  time := rfl

theorem timedOut (maxRows maxOutputBytes : Nat) (message : String) (timeMs : Nat) :
    Delivered maxRows maxOutputBytes timeMs (.timedOut message timeMs) where
  count := rfl
  limit := Nat.zero_le _
  success h := by cases h
  otherwise _ := ⟨rfl, rfl, message, rfl⟩
  stdout := Nat.zero_le _
  stderr := Nat.zero_le _
  cells _ h := (List.not_mem_nil h).elim
  time := rfl

/-- A table with rows as wide as its columns, cut to its budget. -/
theorem table {columns : List String} {rows : List (List Value)}
    (hwidth : ∀ row ∈ rows, row.length = columns.length)
    (hcells : ∀ row ∈ rows, ∀ cell ∈ row, RunResult.ReadCell cell) (maxRows maxOutputBytes : Nat)
    (timeMs : Nat) :
    Delivered maxRows maxOutputBytes timeMs
      ((RunResult.success columns rows timeMs).limitRows maxRows) where
  count := by
    rw [RunResult.limitRows, List.length_take, Nat.min_comm]
  limit := Nat.min_le_right _ _
  success _ := ⟨fun row hrow => hwidth row (List.mem_of_mem_take hrow), rfl⟩
  otherwise h := absurd rfl h
  stdout := Nat.zero_le _
  stderr := Nat.zero_le _
  cells row hrow := hcells row (List.mem_of_mem_take hrow)
  time := rfl

/-- Captured output is cut to its budget. -/
theorem withOutput {anyBytes : Nat} (h : Delivered maxRows anyBytes timeMs r)
    (stdout stderr : String) (maxOutputBytes : Nat) :
    Delivered maxRows maxOutputBytes timeMs (r.withOutput stdout stderr maxOutputBytes) where
  count := h.count
  limit := h.limit
  success := h.success
  otherwise := h.otherwise
  stdout := Text.cut_size stdout maxOutputBytes
  stderr := Text.cut_size stderr maxOutputBytes
  cells := h.cells
  time := h.time

theorem wellShaped (h : Delivered maxRows maxOutputBytes timeMs r) : r.WellShaped where
  count := h.count
  width hsuccess := (h.success hsuccess).1
  timeout htimeout := by
    refine (h.otherwise fun hsuccess => ?_).1
    rw [hsuccess] at htimeout
    cases htimeout

/-- The line of a result that a runner hands back is read as the result. -/
theorem readBack (h : Delivered maxRows maxOutputBytes timeMs r) (hrows : maxRows < 2 ^ 64)
    (htime : timeMs < 2 ^ 64) (hdoubles : r.DoublesSurvive) :
    readResult (CommandLine.printed r) = .ok r := by
  have hcarried : r.Carried :=
    ⟨h.wellShaped, Nat.lt_of_le_of_lt h.limit hrows, h.time ▸ htime, h.cells, hdoubles⟩
  have hread : readResult (r.amongLines [] [""]) = .ok r :=
    hcarried.readResult_amongLines (fun _ hline => (List.not_mem_nil hline).elim) (by decide)
  have hprinted : CommandLine.printed r = r.amongLines [] [""] := by
    rw [RunResult.amongLines, List.nil_append, String.intercalate_cons_cons,
      String.intercalate_singleton, String.append_empty, CommandLine.printed]
  rw [hprinted]
  exact hread

end Delivered

/-! ## Scripts -/

/-- A script whose deadline lies beyond what the clock can show. -/
structure BeyondClock (r : Request) (time : RunTime) : Prop where
  script : ∃ code, r.task = .script code
  late : clockEndMs ≤ time.startMs + innerDeadlineMs r.seconds

/-- How the run of a request ends: with a result within its budget, whose line is read as the
result, or, for a script beyond the clock, with a crash. -/
structure Ends (r : Request) (time : RunTime) (x : Except Crash RunResult) : Prop where
  delivered : ∀ result, x = .ok result →
    Delivered r.maxRows r.maxOutputBytes time.tookMs result
  readBack : ∀ result, x = .ok result → result.DoublesSurvive →
    readResult (CommandLine.printed result) = .ok result
  crashed : ∀ crash, x = .error crash → BeyondClock r time

section Run

variable {s : RunnerSettings} {tools : RunnerTools} {r : Request} {time : RunTime}

end Run

/-! ## Requests that were read -/

namespace CommandLine

/-- What is seen of a runner that prints one line, with a result that it may hand back and that is
read from its output. -/
def Prints (maxRows maxOutputBytes timeMs : Nat) (f : Finish) : Prop :=
  ∃ line result, f = ⟨0, line ++ "\n"⟩ ∧ '\n' ∉ line.toList ∧
    Delivered maxRows maxOutputBytes timeMs result ∧
      (result.DoublesSurvive → readResult (line ++ "\n") = .ok result)

end CommandLine

/-! ## Delivery -/

end Enclave
