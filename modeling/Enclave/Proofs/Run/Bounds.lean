import Enclave.Proofs.Text.Cut
import Enclave.Run.Result
import Enclave.Script.Run
import Mathlib.Data.List.Induction
import Mathlib.Data.List.TakeDrop
import Mathlib.Order.Bounds.Basic

/-!
# Bounding results

A result is bounded by limits of its rows and by output that is cut before it is attached. `after`
is a result after any such steps, in any order. `Bounded` is what they keep: a step keeps it
(`Bounded.next`), so a sequence of steps does (`bounded_after`).

A limit of rows commutes with every step (`limitRows_apply`). So all limits may be taken last
(`after_eq_outputs_rows`), where their order does not matter, and steps may be reordered as long as
the outputs stay in their order (`after_eq_of_reordered`).
-/

namespace Enclave

namespace RunResult

/-! ## Steps -/

/-- A step that bounds a result: a limit of its rows, or captured output with a limit of bytes. -/
inductive Step where
  | rows (limit : Nat)
  | output (stdout stderr : String) (limit : Nat)
  deriving DecidableEq

namespace Step

/-- The result after a step. -/
def apply : Step → RunResult → RunResult
  | rows limit, r => r.limitRows limit
  | output stdout stderr limit, r => r.withOutput stdout stderr limit

def isOutput : Step → Bool
  | rows _ => false
  | output _ _ _ => true

/-- A step cuts something: rows of the result are lost, or output is not attached as it was
captured. -/
def Cuts (r : RunResult) : Step → Prop
  | rows limit => (r.limitRows limit).rows ≠ r.rows
  | output stdout stderr limit =>
    (r.withOutput stdout stderr limit).stdout ≠ stdout ∨
      (r.withOutput stdout stderr limit).stderr ≠ stderr

end Step

/-- A result after some steps. -/
def after (r : RunResult) (steps : List Step) : RunResult :=
  steps.foldl (fun r step => step.apply r) r

/-- Some of the steps cuts something off what the steps before it left. -/
def SomeCuts : RunResult → List Step → Prop
  | _, [] => False
  | r, step :: steps => step.Cuts r ∨ SomeCuts (step.apply r) steps

/-- A result as a run makes it. -/
inductive Fresh : RunResult → Prop
  | success (columns : List String) (rows : List (List Json.Value)) (timeMs : Nat) :
      Fresh (.success columns rows timeMs)
  | failed (message : String) (timeMs : Nat) : Fresh (.failed message timeMs)
  | timedOut (message : String) (timeMs : Nat) : Fresh (.timedOut message timeMs)

variable {r : RunResult} {steps : List Step}

theorem after_concat (r : RunResult) (steps : List Step) (step : Step) :
    r.after (steps ++ [step]) = step.apply (r.after steps) := by
  rw [after, List.foldl_concat]
  rfl

theorem someCuts_concat {step : Step} :
    r.SomeCuts (steps ++ [step]) ↔ r.SomeCuts steps ∨ step.Cuts (r.after steps) := by
  induction steps generalizing r with
  | nil => simp [SomeCuts, after]
  | cons s steps ih =>
    rw [List.cons_append, SomeCuts, ih, SomeCuts, or_assoc]
    rfl

/-! ## What a step does -/

/-- A text is cut exactly where it is flagged. -/
theorem cut_ne_iff {text : String} {limit : Nat} :
    (Text.cut text limit).1 ≠ text ↔ (Text.cut text limit).2 = true := by
  rcases Nat.lt_or_ge limit text.utf8ByteSize with hlong | hfits
  · refine iff_of_true (fun hsame => ?_) (by rw [Text.cut_of_lt hlong])
    have hsize := Text.cut_size text limit
    rw [hsame] at hsize
    exact absurd hlong (Nat.not_lt.mpr hsize)
  · rw [Text.cut_of_le hfits]
    exact iff_of_false (not_not.mpr rfl) Bool.false_ne_true

theorem Step.truncated_apply (step : Step) (r : RunResult) :
    (step.apply r).truncated = true ↔ r.truncated = true ∨ step.Cuts r := by
  cases step with
  | rows limit =>
    have hcuts : Cuts r (.rows limit) ↔ limit < r.rows.length := by
      rw [Cuts, limitRows, ne_eq, List.take_eq_self_iff, Nat.not_le]
    rw [hcuts]
    simp [apply, limitRows]
  | output stdout stderr limit =>
    simp [apply, withOutput, Cuts, cut_ne_iff, or_assoc]

/-! ## What steps keep -/

/-- What holds of a result after some steps, beside the result as it was made. -/
structure Bounded (r : RunResult) (steps : List Step) (now : RunResult) : Prop where
  count : now.rowCount = now.rows.length
  front : now.rows <+: r.rows
  fewest : IsLeast {n | n = r.rows.length ∨ .rows n ∈ steps} now.rows.length
  truncated : now.truncated = true ↔ r.SomeCuts steps
  columns : now.columns = r.columns
  status : now.status = r.status
  error : now.error = r.error
  timeMs : now.timeMs = r.timeMs

theorem bounded_of_fresh (h : r.Fresh) : Bounded r [] r where
  count := by cases h <;> rfl
  front := List.prefix_rfl
  fewest := by simp [isLeast_singleton]
  truncated := by cases h <;> exact iff_of_false Bool.false_ne_true id
  columns := rfl
  status := rfl
  error := rfl
  timeMs := rfl

/-- With one more limit, the least is the lesser of it and the least before. -/
theorem isLeast_limit {length limit now : Nat}
    (h : IsLeast {n | n = length ∨ .rows n ∈ steps} now) :
    IsLeast {n | n = length ∨ .rows n ∈ steps ++ [.rows limit]} (min now limit) := by
  obtain ⟨hmem, hleast⟩ := h
  have hset : {n | n = length ∨ Step.rows n ∈ steps ++ [.rows limit]} =
      insert limit {n | n = length ∨ .rows n ∈ steps} := by
    ext n
    simp [or_left_comm, or_comm]
  rw [hset, Nat.min_comm]
  exact IsLeast.insert limit ⟨hmem, hleast⟩

/-- One more step keeps it. -/
theorem Bounded.next (h : Bounded r steps (r.after steps)) (step : Step) :
    Bounded r (steps ++ [step]) (r.after (steps ++ [step])) where
  count := by
    rw [after_concat]
    cases step with
    | rows limit => exact (List.length_take.trans (Nat.min_comm _ _)).symm
    | output stdout stderr limit => exact h.count
  front := by
    rw [after_concat]
    cases step with
    | rows limit => exact (List.take_prefix limit _).trans h.front
    | output stdout stderr limit => exact h.front
  fewest := by
    rw [after_concat]
    cases step with
    | rows limit =>
      have hlength : ((r.after steps).limitRows limit).rows.length
          = min (r.after steps).rows.length limit := List.length_take.trans (Nat.min_comm _ _)
      rw [Step.apply, hlength]
      exact isLeast_limit h.fewest
    | output stdout stderr limit =>
      have hset : {n | n = r.rows.length ∨ Step.rows n ∈ steps ++ [.output stdout stderr limit]} =
          {n | n = r.rows.length ∨ .rows n ∈ steps} := by simp
      rw [hset]
      exact h.fewest
  truncated := by
    rw [after_concat, Step.truncated_apply, h.truncated, someCuts_concat]
  columns := by
    rw [after_concat]
    cases step <;> exact h.columns
  status := by
    rw [after_concat]
    cases step <;> exact h.status
  error := by
    rw [after_concat]
    cases step <;> exact h.error
  timeMs := by
    rw [after_concat]
    cases step <;> exact h.timeMs

theorem bounded_after (h : r.Fresh) (steps : List Step) : Bounded r steps (r.after steps) := by
  induction steps using List.reverseRecOn with
  | nil => exact bounded_of_fresh h
  | append_singleton steps step ih => exact ih.next step

/-! ## Reordering -/

/-- A limit of rows commutes with every step. -/
theorem limitRows_apply (r : RunResult) (limit : Nat) (step : Step) :
    step.apply (r.limitRows limit) = (step.apply r).limitRows limit := by
  cases step with
  | rows other =>
    have hrows : (r.rows.take limit).take other = (r.rows.take other).take limit := by
      rw [List.take_take, List.take_take, Nat.min_comm]
    have hcount : min (r.rows.take limit).length other = min (r.rows.take other).length limit := by
      simp only [List.length_take]
      omega
    have hflag : (r.truncated || decide (limit < r.rows.length) ||
          decide (other < (r.rows.take limit).length)) =
        (r.truncated || decide (other < r.rows.length) ||
          decide (limit < (r.rows.take other).length)) := by
      rw [Bool.or_assoc, Bool.or_assoc]
      congr 1
      rw [Bool.eq_iff_iff]
      simp only [Bool.or_eq_true, decide_eq_true_eq, List.length_take]
      omega
    change ({ r with
        rows := (r.rows.take limit).take other
        rowCount := min (r.rows.take limit).length other
        truncated := r.truncated || limit < r.rows.length ||
          other < (r.rows.take limit).length } : RunResult) = { r with
        rows := (r.rows.take other).take limit
        rowCount := min (r.rows.take other).length limit
        truncated := r.truncated || other < r.rows.length ||
          limit < (r.rows.take other).length }
    rw [hrows, hcount, hflag]
  | output stdout stderr other =>
    simp only [Step.apply, limitRows, withOutput, Bool.or_assoc, Bool.or_comm, Bool.or_left_comm]

theorem after_limitRows (r : RunResult) (limit : Nat) (steps : List Step) :
    (r.limitRows limit).after steps = (r.after steps).limitRows limit := by
  induction steps generalizing r with
  | nil => rfl
  | cons step steps ih =>
    change (step.apply (r.limitRows limit)).after steps
      = ((step.apply r).after steps).limitRows limit
    rw [limitRows_apply, ih]

/-- All limits of rows may be taken last. -/
theorem after_eq_outputs_rows (r : RunResult) (steps : List Step) :
    r.after steps = (r.after (steps.filter Step.isOutput)).after
      (steps.filter fun step => !step.isOutput) := by
  induction steps generalizing r with
  | nil => rfl
  | cons step steps ih =>
    cases step with
    | rows limit =>
      change (r.limitRows limit).after steps = _
      rw [ih, after_limitRows]
      rfl
    | output stdout stderr limit => exact ih (r.withOutput stdout stderr limit)

/-- The same steps in another order, with the outputs in the same one. -/
structure Reordered (steps steps' : List Step) : Prop where
  perm : steps'.Perm steps
  outputs : steps'.filter Step.isOutput = steps.filter Step.isOutput

theorem after_eq_of_reordered {steps' : List Step} (h : Reordered steps steps') (r : RunResult) :
    r.after steps' = r.after steps := by
  rw [after_eq_outputs_rows, after_eq_outputs_rows r steps, h.outputs]
  refine (h.perm.filter _).foldl_eq' (fun x hx y hy now => ?_) _
  -- Only limits of rows are left.
  cases x with
  | rows limit => exact limitRows_apply now limit y
  | output stdout stderr limit => simp [Step.isOutput] at hx

/-- **Bounding a result.** After any steps the count is right, the rows are the front part that the
least of the limits leaves, the flag tells whether a step cut something, and nothing else has
changed. The order of the limits does not matter, nor where they stand among the outputs. -/
theorem after_bounded (h : r.Fresh) (steps : List Step) :
    Bounded r steps (r.after steps) ∧
      ∀ steps', Reordered steps steps' → r.after steps' = r.after steps :=
  ⟨bounded_after h steps, fun _ hreordered => after_eq_of_reordered hreordered r⟩

/-- A result with three rows, after a limit that cuts nothing, output that is cut, and two limits
that cut rows; and with the limits taken in another order, around the output. -/
theorem after_bounded_threeRows :
    let r := RunResult.success ["a"] [[.int 1], [.int 2], [.int 3]] 5
    let steps := [Step.rows 4, .output "a long output" "" 10, .rows 2, .rows 1]
    let steps' := [Step.rows 1, .rows 4, .output "a long output" "" 10, .rows 2]
    r.Fresh ∧ Bounded r steps (r.after steps) ∧ (r.after steps).rows = [[.int 1]] ∧
      (r.after steps).truncated = true ∧ Reordered steps steps' ∧
      r.after steps' = r.after steps := by
  intro r steps steps'
  have hfresh : r.Fresh := .success _ _ _
  have hreordered : Reordered steps steps' := ⟨by decide, rfl⟩
  exact ⟨hfresh, (after_bounded hfresh steps).1, rfl, by decide +kernel, hreordered,
    (after_bounded hfresh steps).2 steps' hreordered⟩

end RunResult

/-! ## Scripts -/

/-- The result of a script is one that was made and then bounded. -/
theorem Script.read_eq_after (b : ScriptBudget) (timeMs : Nat) (reply : Reply) :
    ∃ r steps, r.Fresh ∧ Script.read b timeMs reply = RunResult.after r steps := by
  unfold Script.read
  split
  · exact ⟨_, [], .failed _ _, rfl⟩
  split
  · exact ⟨_, [], .timedOut _ _, rfl⟩
  split
  · rename_i report _
    have hresult : ∃ r steps, r.Fresh ∧
        Script.resultOf report b.maxRows timeMs = RunResult.after r steps := by
      unfold Script.resultOf
      split
      · exact ⟨_, [], .failed _ _, rfl⟩
      split
      · exact ⟨_, [], .failed _ _, rfl⟩
      · exact ⟨_, [.rows b.maxRows], .success _ _ _, rfl⟩
    obtain ⟨r, steps, hfresh, hresult⟩ := hresult
    refine ⟨r, steps ++ [.output report.stdout report.stderr b.maxOutputBytes], hfresh, ?_⟩
    rw [hresult, RunResult.after_concat]
    rfl
  · exact ⟨_, [.output _ _ _], .failed _ _, rfl⟩

end Enclave
