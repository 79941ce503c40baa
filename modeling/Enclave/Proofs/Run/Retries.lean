import Enclave.Proofs.Json.Decode
import Enclave.Proofs.Run.Execution
import Mathlib.Order.Bounds.Basic

/-!
# Retries

An execution obeys its policy (`Execution.Obeys`): it ends at the first answer that is final or at
the last attempt, only a failed dispatch is ever followed by another one, and the waits in between
double up to their ceiling. The waits are computed in words, and the largest word stands for a
product that is none; since the ceiling is a word, too, that never shows
(`RetryPolicy.backoffMs_eq`).

A backend with states has a sequence of answers like any other (`answersOf`), so what holds of
`execute` holds of `executeOn` (`executeOn_eq_execute`).
-/

namespace Enclave

/-! ## Waits -/

namespace RetryPolicy

variable {p : RetryPolicy}

/-- The numbers of a policy are words, the attempts one of 32 bits. -/
structure OfWords (p : RetryPolicy) : Prop where
  attempts : p.attempts < 2 ^ 32
  initialMs : p.initialMs < 2 ^ 64
  maxMs : p.maxMs < 2 ^ 64

/-- A policy that was read is one of words. -/
theorem ofWords_of_decode {scope : Json.Scope} {d : Json.Doc} (h : decoder scope d = .ok p) :
    p.OfWords := by
  have hdefault : default.OfWords := ⟨by decide, by decide, by decide⟩
  refine Json.RecordShape.decode_preserves (P := fun _ => True) ?_ hdefault (fun _ _ => trivial) h
  intro k step d acc acc' hset _ hstep hacc
  simp only at hset
  split at hset <;> cases hset <;> obtain ⟨x, hx, rfl⟩ := map_eq_ok.mp hstep
  · exact ⟨Json.word_eq_ok hx, hacc.initialMs, hacc.maxMs⟩
  · exact ⟨hacc.attempts, Json.word_eq_ok hx, hacc.maxMs⟩
  · exact ⟨hacc.attempts, hacc.initialMs, Json.word_eq_ok hx⟩

theorem backoffMs_le_maxMs (p : RetryPolicy) (retry : Nat) : p.backoffMs retry ≤ p.maxMs :=
  Nat.min_le_right _ _

/-- The wait in exact numbers: where the largest word stands for a product, the ceiling is below
it. -/
theorem backoffMs_eq (hp : p.OfWords) (retry : Nat) :
    p.backoffMs retry = min p.maxMs (p.initialMs * 2 ^ min (retry - 1) 16) := by
  have hmax : p.maxMs ≤ Word.largest := Nat.le_sub_one_of_lt hp.maxMs
  rw [backoffMs, Word.mulSat, Nat.one_shiftLeft, Nat.min_assoc, Nat.min_eq_right hmax, Nat.min_comm]

theorem backoffMs_mono (p : RetryPolicy) {retry later : Nat} (h : retry ≤ later) :
    p.backoffMs retry ≤ p.backoffMs later := by
  have hshift : min (retry - 1) 16 ≤ min (later - 1) 16 := by omega
  have hfactor : 1 <<< min (retry - 1) 16 ≤ 1 <<< min (later - 1) 16 := by
    rw [Nat.one_shiftLeft, Nat.one_shiftLeft]
    exact Nat.pow_le_pow_right (by decide) hshift
  have hproduct := Nat.mul_le_mul_left p.initialMs hfactor
  simp only [backoffMs, Word.mulSat]
  omega

end RetryPolicy

/-! ## Executions -/

/-- An answer that is worth another dispatch is a dispatch that failed. -/
theorem isRetryable_iff {r : Outcome RunResult} :
    isRetryable r = true ↔ ∃ reason, r = .error (.dispatch reason) := by
  constructor
  · intro h
    cases r with
    | ok _ => cases h
    | error e =>
      cases e with
      | dispatch reason => exact ⟨reason, rfl⟩
      | _ => cases h
  · rintro ⟨reason, rfl⟩
    rfl

/-- The dispatches of an execution are the fewest that end with a final answer or use up the
attempts. -/
theorem OneExecution.isLeast {p : RetryPolicy} {replies : Nat → Outcome RunResult} {n : Nat}
    (h : OneExecution p replies n) :
    IsLeast {n | 1 ≤ n ∧ (isRetryable (replies (n - 1)) = false ∨ p.attempts ≤ n)} n := by
  refine ⟨⟨h.positive, ?_⟩, ?_⟩
  · by_cases hlast : n < p.attempts
    · left
      exact h.final hlast
    · right
      omega
  -- An earlier end would be a final answer that was followed by another dispatch.
  · rintro m ⟨hpositive, hends⟩
    by_contra! hearlier
    rcases hends with hfinal | hattempts
    · have hretried := h.retried (m - 1) (by omega)
      rw [hfinal] at hretried
      cases hretried
    · have hbounded := h.bounded
      omega

/-- There is a wait between any two dispatches, by the number of the earlier one. -/
theorem executeFrom_waits (p : RetryPolicy) (replies : Nat → Outcome RunResult) (left n : Nat) :
    (executeFrom p replies left n).waits =
      (List.range ((executeFrom p replies left n).dispatches - 1)).map
        fun k => p.backoffMs (n + k + 1) := by
  induction left generalizing n with
  | zero => rfl
  | succ left ih =>
    by_cases hretry : isRetryable (replies n) = true
    · obtain ⟨m, hm, -⟩ := executeFrom_spec p replies left (n + 1)
      have hshift : ∀ k, n + 1 + k + 1 = n + (k + 1) + 1 := by
        intro k
        omega
      simp only [executeFrom, if_pos hretry, ih (n + 1), hm, Nat.add_sub_cancel, hshift]
      rw [List.range_succ_eq_map, List.map_cons, List.map_map]
      rfl
    · rw [executeFrom, if_neg hretry]
      rfl

/-- What a policy asks of an execution, `replies k` being the answer of the dispatch `k + 1`. -/
structure Execution.Obeys (p : RetryPolicy) (replies : Nat → Outcome RunResult)
    (e : Execution) : Prop where
  dispatches :
    IsLeast {n | 1 ≤ n ∧ (isRetryable (replies (n - 1)) = false ∨ p.attempts ≤ n)} e.dispatches
  outcome : e.outcome = replies (e.dispatches - 1)
  repeated : ∀ k, k + 1 < e.dispatches → ∃ reason, replies k = .error (.dispatch reason)
  /-- The number of an attempt is a word. -/
  counted : e.dispatches < 2 ^ 32
  /-- One wait behind each dispatch but the last, in exact numbers. -/
  waits : e.waits =
    (List.range (e.dispatches - 1)).map fun k => min p.maxMs (p.initialMs * 2 ^ min k 16)
  ascending : e.waits.Pairwise (· ≤ ·)
  ceiling : ∀ wait ∈ e.waits, wait ≤ p.maxMs

theorem execute_obeys {p : RetryPolicy} (hp : p.OfWords) (replies : Nat → Outcome RunResult) :
    (execute p replies).Obeys p replies := by
  have hone := execute_dispatches p replies
  have hwaits : (execute p replies).waits =
      (List.range ((execute p replies).dispatches - 1)).map fun k => p.backoffMs (k + 1) := by
    rw [execute, executeFrom_waits]
    simp only [Nat.zero_add]
  constructor
  case dispatches => exact hone.isLeast
  case outcome => exact execute_outcome p replies
  case repeated =>
    intro k hk
    exact isRetryable_iff.mp (hone.retried k hk)
  case counted =>
    have hbounded := hone.bounded
    have hattempts := hp.attempts
    omega
  case waits =>
    rw [hwaits]
    apply List.map_congr_left
    intro k _
    rw [RetryPolicy.backoffMs_eq hp, Nat.add_sub_cancel]
  case ascending =>
    rw [hwaits, List.pairwise_map]
    apply List.pairwise_lt_range.imp
    intro k later hlt
    exact p.backoffMs_mono (by omega)
  case ceiling =>
    rw [hwaits, List.forall_mem_map]
    intro k _
    exact p.backoffMs_le_maxMs (k + 1)

/-! ## Backends with states -/

section States

variable {σ : Type} (dispatch : Nat → σ → Outcome RunResult × σ) (state : σ)

/-- The state in front of each dispatch, if all of them are made. -/
def stateAt : Nat → σ
  | 0 => state
  | n + 1 => (dispatch n (stateAt n)).2

/-- The answer of each dispatch, if all of them are made. -/
def answersOf (n : Nat) : Outcome RunResult := (dispatch n (stateAt dispatch state n)).1

theorem executeOnFrom_eq_executeFrom (p : RetryPolicy) (left n : Nat) :
    (executeOnFrom p dispatch left n (stateAt dispatch state n)).1 =
      executeFrom p (answersOf dispatch state) left n := by
  induction left generalizing n with
  | zero => rfl
  | succ left ih =>
    have hrest := ih (n + 1)
    rw [stateAt] at hrest
    rw [executeFrom, answersOf]
    by_cases hr : isRetryable (dispatch n (stateAt dispatch state n)).1 = true
    · simp only [executeOnFrom, if_pos hr, hrest]
    · simp only [executeOnFrom, if_neg hr]

theorem executeOn_eq_execute (p : RetryPolicy) :
    (executeOn p dispatch state).1 = execute p (answersOf dispatch state) :=
  executeOnFrom_eq_executeFrom dispatch state p (p.attempts - 1) 0

end States

/-- **Executions obey their policy**, whatever the dispatches answer and however the answers depend
on the states of a backend. -/
theorem executions_obey {p : RetryPolicy} (hp : p.OfWords) :
    (∀ replies, (execute p replies).Obeys p replies) ∧
      ∀ {σ : Type} (dispatch : Nat → σ → Outcome RunResult × σ) (state : σ),
        (executeOn p dispatch state).1.Obeys p (answersOf dispatch state) := by
  refine ⟨execute_obeys hp, ?_⟩
  intro σ dispatch state
  rw [executeOn_eq_execute]
  exact execute_obeys hp (answersOf dispatch state)

/-- A policy of the largest words. -/
def largestPolicy : RetryPolicy := ⟨2 ^ 32 - 1, 2 ^ 63, 2 ^ 64 - 1⟩

/-- A backend that counts its dispatches. The first two do not reach it, and the third takes too
long. -/
def reachedThird (n before : Nat) : Outcome RunResult × Nat :=
  (if n < 2 then .error (.dispatch "daemon unavailable") else .error (.timedOut before), before + 1)

theorem executions_obey_largest :
    largestPolicy.OfWords ∧
      (executeOn largestPolicy reachedThird 0).1.Obeys largestPolicy (answersOf reachedThird 0) ∧
      (executeOn largestPolicy reachedThird 0).1.waits = [2 ^ 63, 2 ^ 64 - 1] := by
  have hwords : largestPolicy.OfWords := ⟨by decide, by decide, by decide⟩
  exact ⟨hwords, (executions_obey hwords).2 reachedThird 0, by decide +kernel⟩

end Enclave
