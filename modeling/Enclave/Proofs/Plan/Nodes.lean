import Enclave.Proofs.Decimal.Numeral
import Enclave.Plan.Check
import Enclave.Proofs.Plan.Statement

/-!
# The conditions within a condition

A condition is a tree. `Condition.at?` follows steps into it, and `Condition.nodes` lists all the
conditions that can be reached, from the top down and from left to right, each with the steps to it
(`mem_nodes`). The text of steps determines them (`placeFrom_injective`), so a place in
a report is the place of one condition only.
-/

namespace Enclave.Condition

open Decimal (natText digitChars)

/-! ## Steps and nodes -/

/-- A step from a condition to one of its parts. -/
inductive Step where
  | all (i : Nat)
  | any (i : Nat)
  | inner
  deriving Repr, DecidableEq

/-- The condition to which steps lead. -/
def at? : Condition → List Step → Option Condition
  | c, [] => some c
  | .all parts, .all i :: steps => parts[i]?.bind fun p => p.at? steps
  | .any parts, .any i :: steps => parts[i]?.bind fun p => p.at? steps
  | .not inner, .inner :: steps => inner.at? steps
  | _, _ :: _ => none

/-- A node behind a step. -/
def behind (step : Step) (n : List Step × Condition) : List Step × Condition := (step :: n.1, n.2)

mutual

/-- The conditions within a condition with the steps to them: a condition in front of its parts, and
the parts from left to right. -/
def nodes : Condition → List (List Step × Condition)
  | .compare column how value => [([], .compare column how value)]
  | .isNull column => [([], .isNull column)]
  | .isNotNull column => [([], .isNotNull column)]
  | .all parts => ([], .all parts) :: partNodes .all 0 parts
  | .any parts => ([], .any parts) :: partNodes .any 0 parts
  | .not inner => ([], .not inner) :: (nodes inner).map (behind .inner)

def partNodes (step : Nat → Step) (i : Nat) : List Condition → List (List Step × Condition)
  | [] => []
  | p :: ps => (nodes p).map (behind (step i)) ++ partNodes step (i + 1) ps

end

theorem mem_map_behind {step : Step} {steps : List Step} {n : Condition}
    {ns : List (List Step × Condition)} :
    (steps, n) ∈ ns.map (behind step) ↔ ∃ rest, steps = step :: rest ∧ (rest, n) ∈ ns := by
  rw [List.mem_map]
  constructor
  · rintro ⟨⟨rest, _⟩, hmem, ⟨⟩⟩
    exact ⟨rest, rfl, hmem⟩
  · rintro ⟨rest, rfl, hmem⟩
    exact ⟨(rest, n), hmem, rfl⟩

theorem mem_partNodes {step : Nat → Step} {i : Nat} {ps : List Condition} {steps : List Step}
    {n : Condition} : (steps, n) ∈ partNodes step i ps ↔
      ∃ j p rest, ps[j]? = some p ∧ steps = step (i + j) :: rest ∧ (rest, n) ∈ p.nodes := by
  induction ps generalizing i with
  | nil => simp [partNodes]
  | cons p ps ih =>
    rw [partNodes, List.mem_append, mem_map_behind, ih]
    constructor
    · rintro (⟨rest, hsteps, hmem⟩ | ⟨j, q, rest, hq, hsteps, hmem⟩)
      · exact ⟨0, p, rest, rfl, hsteps, hmem⟩
      · refine ⟨j + 1, q, rest, hq, ?_, hmem⟩
        rw [hsteps, Nat.add_right_comm, Nat.add_assoc]
    · rintro ⟨_ | j, q, rest, hq, hsteps, hmem⟩
      · obtain rfl := Option.some.inj hq
        exact .inl ⟨rest, hsteps, hmem⟩
      · refine .inr ⟨j, q, rest, hq, ?_, hmem⟩
        rw [hsteps, Nat.add_right_comm, Nat.add_assoc]

/-- The nodes of the parts of a junction, if the nodes of every part are what steps lead to. -/
theorem mem_partNodes_iff {step : Nat → Step} {ps : List Condition}
    (ih : ∀ p ∈ ps, ∀ {n} {steps : List Step}, (steps, n) ∈ p.nodes ↔ p.at? steps = some n)
    {steps : List Step} {n : Condition} : (steps, n) ∈ partNodes step 0 ps ↔
      ∃ j rest, steps = step j :: rest ∧ (ps[j]?.bind fun p => p.at? rest) = some n := by
  rw [mem_partNodes]
  constructor
  · rintro ⟨j, p, rest, hp, hsteps, hmem⟩
    rw [Nat.zero_add] at hsteps
    exact ⟨j, rest, hsteps, Option.bind_eq_some_iff.mpr
      ⟨p, hp, (ih p (List.mem_of_getElem? hp)).mp hmem⟩⟩
  · rintro ⟨j, rest, hsteps, hat⟩
    obtain ⟨p, hp, hat⟩ := Option.bind_eq_some_iff.mp hat
    refine ⟨j, p, rest, hp, by rwa [Nat.zero_add], ?_⟩
    exact (ih p (List.mem_of_getElem? hp)).mpr hat

/-- **The nodes of a condition are what steps lead to.** -/
theorem mem_nodes {c n : Condition} {steps : List Step} :
    (steps, n) ∈ c.nodes ↔ c.at? steps = some n := by
  induction c using byParts generalizing steps n with
  | compare column how value => cases steps <;> simp [nodes, at?, @eq_comm _ n]
  | isNull column => cases steps <;> simp [nodes, at?, @eq_comm _ n]
  | isNotNull column => cases steps <;> simp [nodes, at?, @eq_comm _ n]
  | all parts ih =>
    -- Steps of another kind than the junction lead nowhere, here and below.
    rw [nodes, List.mem_cons, mem_partNodes_iff ih]
    rcases steps with _ | ⟨_ | _ | _, steps⟩ <;> simp [at?, @eq_comm _ n]
  | any parts ih =>
    rw [nodes, List.mem_cons, mem_partNodes_iff ih]
    rcases steps with _ | ⟨_ | _ | _, steps⟩ <;> simp [at?, @eq_comm _ n]
  | not inner ih =>
    rw [nodes, List.mem_cons, mem_map_behind]
    rcases steps with _ | ⟨_ | _ | _, steps⟩ <;> simp [at?, ih, @eq_comm _ n]

/-- The column that a leaf names. -/
def column? : Condition → Option String
  | .compare column _ _ => some column
  | .isNull column => some column
  | .isNotNull column => some column
  | _ => none

/-! ## Places as texts -/

/-- A step in a place. -/
def Step.text : Step → String
  | .all i => ".all[" ++ natText i ++ "]"
  | .any i => ".any[" ++ natText i ++ "]"
  | .inner => ".inner"

/-- The place to which steps lead from a place. -/
def placeFrom (place : String) (steps : List Step) : String :=
  steps.foldl (fun place step => place ++ step.text) place

theorem toList_placeFrom (place : String) (steps : List Step) :
    (placeFrom place steps).toList = place.toList ++ steps.flatMap fun s => s.text.toList := by
  induction steps generalizing place with
  | nil => simp [placeFrom]
  | cons s steps ih =>
    show (placeFrom (place ++ s.text) steps).toList = _
    rw [ih, String.toList_append, List.flatMap_cons, List.append_assoc]

/-- A number that ends with a bracket can be read in one way only. -/
theorem digitChars_bracket {i j : Nat} {r r' : List Char}
    (h : digitChars i ++ ']' :: r = digitChars j ++ ']' :: r') : i = j ∧ r = r' := by
  have hnumber : ∀ n r, (digitChars n ++ ']' :: r).takeWhile Char.isDigit = digitChars n := by
    intro n r
    rw [List.takeWhile_append_of_pos (Decimal.digits_digitChars n).digit,
      List.takeWhile_cons_of_neg (by decide), List.append_nil]
  have hdigits : digitChars i = digitChars j := by rw [← hnumber i r, h, hnumber]
  refine ⟨?_, ?_⟩
  · have htext : natText i = natText j := congrArg String.ofList hdigits
    rw [← Decimal.ofDigitChars_natText i, htext, Decimal.ofDigitChars_natText]
  · rw [hdigits] at h
    exact List.tail_eq_of_cons_eq (List.append_cancel_left h)

/-- Where the text of a step ends can be seen from the text. -/
theorem Step.text_append_inj {s s' : Step} {r r' : List Char}
    (h : s.text.toList ++ r = s'.text.toList ++ r') : s = s' ∧ r = r' := by
  cases s <;> cases s' <;> simp [text, natText] at h
  case all.all i j =>
    obtain ⟨rfl, hrest⟩ := digitChars_bracket h
    exact ⟨rfl, hrest⟩
  case any.any i j =>
    obtain ⟨rfl, hrest⟩ := digitChars_bracket h
    exact ⟨rfl, hrest⟩
  case inner.inner => exact ⟨rfl, h⟩

theorem Step.text_ne_empty (s : Step) : s.text ≠ "" := by
  cases s <;> simp [text]

/-- **A place is the place of one list of steps only.** -/
theorem placeFrom_injective (place : String) : Function.Injective (placeFrom place) := by
  intro steps steps' h
  have hchars := congrArg String.toList h
  rw [toList_placeFrom, toList_placeFrom] at hchars
  replace hchars := List.append_cancel_left hchars
  clear h
  -- No text of a step is empty, so both lists end together.
  induction steps generalizing steps' with
  | nil =>
    cases steps' with
    | nil => rfl
    | cons s' steps' => simp [Step.text_ne_empty] at hchars
  | cons s steps ih =>
    cases steps' with
    | nil => simp [Step.text_ne_empty] at hchars
    | cons s' steps' =>
      rw [List.flatMap_cons, List.flatMap_cons] at hchars
      obtain ⟨rfl, hrest⟩ := Step.text_append_inj hchars
      rw [ih hrest]

end Enclave.Condition
