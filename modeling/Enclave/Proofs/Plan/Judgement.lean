import Enclave.Plan.Check
import Enclave.Proofs.Outcome

/-!
# Checks that report the first offence

The checks of a plan go through lists and stop at the first item that does not hold up. `First` is
such an item with its number. `Judges` is what a caller wants to know of a check: it accepts exactly
what is sound, and the failure it reports otherwise is that of the first offence. A check made of
two checks, or of one check for every item of a list, judges if its parts do.
-/

namespace Enclave

/-! ## The first of a list -/

/-- The first item of a list with a property, and its number. -/
structure First {α : Type} (P : α → Prop) (xs : List α) (i : Nat) (a : α) : Prop where
  item : xs[i]? = some a
  holds : P a
  earlier : ∀ j < i, ∀ b, xs[j]? = some b → ¬ P b

namespace First

variable {α : Type} {P : α → Prop} {xs : List α} {a b : α} {i : Nat}

theorem head (h : P a) : First P (a :: xs) 0 a :=
  ⟨List.getElem?_cons_zero, h, fun _ hj => absurd hj (Nat.not_lt_zero _)⟩

theorem tail (ha : ¬ P a) (h : First P xs i b) : First P (a :: xs) (i + 1) b where
  item := by rw [List.getElem?_cons_succ, h.item]
  holds := h.holds
  earlier j hj c hc := by
    cases j with
    | zero =>
      obtain rfl := Option.some.inj hc
      exact ha
    | succ j => exact h.earlier j (Nat.lt_of_succ_lt_succ hj) c (List.getElem?_cons_succ ▸ hc)

theorem mem (h : First P xs i a) : a ∈ xs := List.mem_of_getElem? h.item

/-- There is one first item only. -/
theorem unique {j : Nat} (h : First P xs i a) (h' : First P xs j b) : a = b := by
  obtain hij | rfl | hji := Nat.lt_trichotomy i j
  · exact absurd h.holds (h'.earlier i hij a h.item)
  · exact Option.some.inj (h.item.symm.trans h'.item)
  · exact absurd h'.holds (h.earlier j hji b h'.item)

end First

/-- What a search finds is the first item with the property that it tests for. -/
theorem find?_eq_some_iff_first {α : Type} {p : α → Bool} {P : α → Prop} {xs : List α} {a : α}
    (hp : ∀ a, p a = true ↔ P a) : xs.find? p = some a ↔ ∃ i, First P xs i a := by
  rw [List.find?_eq_some_iff_getElem]
  constructor
  · rintro ⟨ha, i, hi, hitem, hearlier⟩
    refine ⟨i, by rw [List.getElem?_eq_getElem hi, hitem], (hp a).mp ha, fun j hj b hb hb' => ?_⟩
    obtain ⟨_, rfl⟩ := List.getElem?_eq_some_iff.mp hb
    have hnot := hearlier j hj
    rw [(hp _).mpr hb'] at hnot
    cases hnot
  · rintro ⟨i, h⟩
    obtain ⟨hi, hitem⟩ := List.getElem?_eq_some_iff.mp h.item
    refine ⟨(hp a).mpr h.holds, i, hi, hitem, fun j hj => ?_⟩
    have hnot := h.earlier j hj xs[j] (List.getElem?_eq_getElem (Nat.lt_trans hj hi))
    rw [Bool.not_eq_true', ← Bool.not_eq_true]
    exact mt (hp _).mp hnot

/-! ## Checks -/

/-- A check that accepts what is sound, and otherwise reports a first failure. -/
inductive Judges (sound : Prop) (first : Failure → Prop) : Outcome Unit → Prop
  | accepts (h : sound) : Judges sound first (.ok ())
  | rejects {e : Failure} (h : ¬ sound) (he : first e) : Judges sound first (.error e)

namespace Judges

variable {s s' : Prop} {f f' : Failure → Prop} {x y : Outcome Unit} {e : Failure}

theorem eq_ok_iff (h : Judges s f x) : x = .ok () ↔ s := by
  cases h with
  | accepts h => simp [h]
  | rejects h he => simp [h]

theorem of_error (h : Judges s f x) (hx : x = .error e) : ¬ s ∧ f e := by
  cases h with
  | accepts h => cases hx
  | rejects h he =>
    cases hx
    exact ⟨h, he⟩

theorem imp (h : Judges s f x) (hs : s ↔ s') (hf : ∀ e, f e → f' e) : Judges s' f' x := by
  cases h with
  | accepts h => exact .accepts (hs.mp h)
  | rejects h he => exact .rejects (mt hs.mpr h) (hf _ he)

/-- A second check is made only of what the first accepts. -/
theorem andThen (hx : Judges s f x) (hy : Judges s' f' y) :
    Judges (s ∧ s') (fun e => ¬ s ∧ f e ∨ s ∧ ¬ s' ∧ f' e) (x >>= fun _ => y) := by
  cases hx with
  | rejects h he => exact .rejects (fun hs => h hs.1) (.inl ⟨h, he⟩)
  | accepts h =>
    cases hy with
    | accepts h' => exact .accepts ⟨h, h'⟩
    | rejects h' he => exact .rejects (fun hs => h' hs.2) (.inr ⟨h, h', he⟩)

end Judges

/-! ## Checks of lists -/

section Each

variable {α β : Type}

/-- A check that judges items judges a list of them by the first item that is not sound. -/
theorem checkEach_judges {check : Nat → α → Outcome Unit} {sound : α → Prop}
    {first : Nat → α → Failure → Prop} (h : ∀ i a, Judges (sound a) (first i a) (check i a))
    (i : Nat) (xs : List α) :
    Judges (∀ a ∈ xs, sound a)
      (fun e => ∃ j a, First (fun a => ¬ sound a) xs j a ∧ first (i + j) a e)
      (checkEach check i xs) := by
  induction xs generalizing i with
  | nil => exact .accepts (by simp)
  | cons a xs ih =>
    rw [checkEach]
    cases hcheck : check i a with
    | error e =>
      obtain ⟨hsound, hfirst⟩ := (h i a).of_error hcheck
      exact .rejects (fun hall => hsound (hall a List.mem_cons_self)) ⟨0, a, .head hsound, hfirst⟩
    | ok u =>
      have hsound : sound a := (h i a).eq_ok_iff.mp hcheck
      refine (ih (i + 1)).imp (by simp [hsound]) ?_
      -- The numbers of the other items are counted from the next one on.
      rintro e ⟨j, b, hb, hfirst⟩
      refine ⟨j + 1, b, hb.tail (not_not.mpr hsound), ?_⟩
      rwa [Nat.add_right_comm, Nat.add_assoc] at hfirst

/-- A check that does not look at numbers gives the same from every number on. -/
theorem checkEach_from (check : α → Outcome Unit) (i : Nat) (xs : List α) :
    checkEach (fun _ => check) i xs = checkEach (fun _ => check) 0 xs := by
  induction xs generalizing i with
  | nil => rfl
  | cons a xs ih =>
    rw [checkEach, checkEach]
    cases check a with
    | error e => rfl
    | ok u => rw [ih (i + 1), ih (0 + 1)]

theorem checkEach_singleton (check : α → Outcome Unit) (a : α) :
    checkEach (fun _ => check) 0 [a] = check a := by
  rw [checkEach]
  cases check a <;> rfl

theorem checkEach_cons_of_ok {check : α → Outcome Unit} {a : α} (h : check a = .ok ())
    (xs : List α) :
    checkEach (fun _ => check) 0 (a :: xs) = checkEach (fun _ => check) 0 xs := by
  rw [checkEach, h]
  exact checkEach_from check (0 + 1) xs

theorem checkEach_map (check : β → Outcome Unit) (g : α → β) (i : Nat) (xs : List α) :
    checkEach (fun _ => check) i (xs.map g) = checkEach (fun _ a => check (g a)) i xs := by
  induction xs generalizing i with
  | nil => rfl
  | cons a xs ih =>
    rw [List.map_cons, checkEach, checkEach]
    cases check (g a) with
    | error e => rfl
    | ok u => exact ih (i + 1)

theorem checkEach_append (check : α → Outcome Unit) (xs ys : List α) :
    checkEach (fun _ => check) 0 (xs ++ ys) =
      (checkEach (fun _ => check) 0 xs >>= fun _ => checkEach (fun _ => check) 0 ys) := by
  induction xs with
  | nil => rfl
  | cons a xs ih =>
    rw [List.cons_append, checkEach, checkEach, checkEach_from, checkEach_from check (0 + 1) xs]
    cases check a with
    | error e => rfl
    | ok u => exact ih

end Each

end Enclave
