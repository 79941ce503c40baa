import Enclave.Run.Execution
import Mathlib.Data.List.Basic

/-!
# How often a request is dispatched

`execute` is described by one number: how often it dispatches. `OneExecution` says which number that
is for given answers: every dispatch but the last was worth another one, and the last one was not,
or was the last that the policy allows. The answer is the one to the last dispatch.
-/

namespace Enclave

/-- `n` dispatches are one execution: it ends with the first answer that is final, or with the last
attempt. -/
structure OneExecution (p : RetryPolicy) (replies : Nat → Outcome RunResult) (n : Nat) : Prop where
  positive : 0 < n
  bounded : n ≤ max 1 p.attempts
  retried : ∀ k, k + 1 < n → isRetryable (replies k) = true
  final : n < p.attempts → isRetryable (replies (n - 1)) = false

/-- The dispatches from the `n`-th on: all but the last are worth another one, the last is not or
uses up what is left, and its answer is the outcome. -/
theorem executeFrom_spec (p : RetryPolicy) (replies : Nat → Outcome RunResult) (left n : Nat) :
    ∃ m, (executeFrom p replies left n).dispatches = m + 1 ∧ m ≤ left ∧
      (executeFrom p replies left n).outcome = replies (n + m) ∧
      (∀ k, k < m → isRetryable (replies (n + k)) = true) ∧
      (m < left → isRetryable (replies (n + m)) = false) := by
  induction left generalizing n with
  | zero => exact ⟨0, rfl, Nat.le_refl 0, rfl, by simp, by simp⟩
  | succ left ih =>
    by_cases hr : isRetryable (replies n) = true
    · obtain ⟨m, hm, hle, hout, hbefore, hlast⟩ := ih (n + 1)
      have hstep : n + 1 + m = n + (m + 1) := by omega
      refine ⟨m + 1, ?_, by omega, ?_, ?_, ?_⟩
      · simp [executeFrom, hr, hm]
      · simp [executeFrom, hr, hout, hstep]
      · intro k hk
        match k with
        | 0 => exact hr
        | k + 1 =>
          have := hbefore k (by omega)
          rwa [show n + 1 + k = n + (k + 1) from by omega] at this
      · intro hlt
        rw [← hstep]
        exact hlast (by omega)
    · refine ⟨0, ?_, by omega, ?_, by simp, fun _ => by simpa using hr⟩
      · simp [executeFrom, hr]
      · simp [executeFrom, hr]

/-- The dispatches of an execution are one execution by the answers. -/
theorem execute_dispatches (p : RetryPolicy) (replies : Nat → Outcome RunResult) :
    OneExecution p replies (execute p replies).dispatches := by
  obtain ⟨m, hm, hle, -, hbefore, hlast⟩ := executeFrom_spec p replies (p.attempts - 1) 0
  rw [execute, hm]
  refine ⟨by omega, by omega, ?_, ?_⟩
  · intro k hk
    simpa using hbefore k (by omega)
  · intro hlt
    simpa using hlast (by omega)

/-- The outcome of an execution is the answer to its last dispatch. -/
theorem execute_outcome (p : RetryPolicy) (replies : Nat → Outcome RunResult) :
    (execute p replies).outcome = replies ((execute p replies).dispatches - 1) := by
  obtain ⟨m, hm, -, hout, -, -⟩ := executeFrom_spec p replies (p.attempts - 1) 0
  rw [execute, hm, hout]
  simp

/-! ## Backends that may break off -/

section Crashing

variable {σ τ : Type} (p : RetryPolicy)

/-- What every dispatch keeps, an execution keeps. -/
theorem executeCrashingOnFrom_preserves {P : σ → Prop}
    {dispatch : Nat → σ → Except Crash (Outcome RunResult) × σ}
    (hdispatch : ∀ n state, P state → P (dispatch n state).2) (left n : Nat) (state : σ)
    (h : P state) : P (executeCrashingOnFrom p dispatch left n state).2 := by
  induction left generalizing n state with
  | zero => exact hdispatch n state h
  | succ left ih =>
    have hstep := hdispatch n state h
    rw [executeCrashingOnFrom]
    split
    · rename_i hcrashed
      rwa [hcrashed] at hstep
    · rename_i r after hanswered
      rw [hanswered] at hstep
      split
      · exact ih (n + 1) after hstep
      · exact hstep

/-- A backend that is seen through a projection of its states executes alike. -/
theorem executeCrashingOnFrom_map (f : τ → σ)
    (dispatch : Nat → σ → Except Crash (Outcome RunResult) × σ)
    {fine : Nat → τ → Except Crash (Outcome RunResult) × τ}
    (hfine : ∀ n state, (fine n state).map id f = dispatch n (f state)) (left n : Nat) (state : τ) :
    (executeCrashingOnFrom p fine left n state).map id f
      = executeCrashingOnFrom p dispatch left n (f state) := by
  induction left generalizing n state with
  | zero =>
    have hstep := hfine n state
    rw [executeCrashingOnFrom, executeCrashingOnFrom, ← hstep]
    rfl
  | succ left ih =>
    have hstep := hfine n state
    rw [executeCrashingOnFrom, executeCrashingOnFrom, ← hstep]
    cases hfinest : fine n state with
    | mk answer after =>
      cases answer with
      | error crash => rfl
      | ok r =>
        simp only [Prod.map, id]
        split
        · rw [← ih (n + 1) after]
          rfl
        · rfl

/-- An execution that does not break off is one on a backend that never does, if the two agree where
this one does not. -/
theorem executeCrashingOnFrom_eq_ok {dispatch : Nat → σ → Except Crash (Outcome RunResult) × σ}
    {safe : Nat → σ → Outcome RunResult × σ}
    (hsafe : ∀ n state r after, dispatch n state = (.ok r, after) → safe n state = (r, after))
    {left n : Nat} {state after : σ} {e : Execution}
    (h : executeCrashingOnFrom p dispatch left n state = (.ok e, after)) :
    executeOnFrom p safe left n state = (e, after) := by
  induction left generalizing n state e with
  | zero =>
    rw [executeCrashingOnFrom] at h
    cases hfirst : dispatch n state with
    | mk answer next =>
      rw [hfirst] at h
      cases answer with
      | error crash => cases h
      | ok r =>
        cases h
        rw [executeOnFrom, hsafe n state r _ hfirst]
  | succ left ih =>
    rw [executeCrashingOnFrom] at h
    cases hfirst : dispatch n state with
    | mk answer next =>
      rw [hfirst] at h
      cases answer with
      | error crash => cases h
      | ok r =>
        simp only at h
        rw [executeOnFrom, hsafe n state r _ hfirst]
        simp only
        split at h
        · rename_i hretry
          rw [if_pos hretry]
          cases hrest : executeCrashingOnFrom p dispatch left (n + 1) next with
          | mk rest last =>
            rw [hrest] at h
            cases rest with
            | error crash => cases h
            | ok e' =>
              cases h
              rw [ih hrest]
        · rename_i hfinal
          cases h
          rw [if_neg hfinal]

end Crashing

end Enclave
