/-!
# Syntax trees of scripts

A script is read as a tree. Every node has a form, which says what it is and holds the names in
it, and its parts in the order in which the language lists them: the callee of a call before its
arguments, the condition of a conditional expression before both of its values, the body of a
function before its decorators.

* `rows` are the nodes of a tree level by level, the root alone in the first row.
* `breadthFirst` is the order of the rows one after the other.
* `isDeeperThan` says whether a tree has more than a number of rows.
-/

namespace Enclave.Script

/-- What a node of a syntax tree is. -/
inductive Form where
  /-- The whole script; its parts are statements. -/
  | module
  /-- A statement that only holds expressions or other statements. -/
  | statement
  /-- A part of a statement: an item, a handler or a case. -/
  | clause
  /-- An import of modules; its parts are what is imported. -/
  | importing
  /-- An import of names from a module, so many levels up. -/
  | importingFrom (level : Nat) (module : String)
  /-- A module or a name that an import brings in. -/
  | imported (name : String)
  /-- A pattern of a case. -/
  | pattern
  /-- The parameters of a function, or one of them. -/
  | parameter
  /-- A name in an expression. -/
  | name (id : String)
  /-- An attribute of its only part. -/
  | attribute (name : String)
  /-- A value and its index. -/
  | subscript
  /-- A callee and its arguments. -/
  | call
  /-- An argument with a name. -/
  | argument
  /-- An expression with a star in front. -/
  | starred
  | tuple
  | list
  /-- Any other expression. -/
  | expression
  deriving Repr, DecidableEq, Inhabited

/-- A syntax tree. -/
inductive Tree where
  | node (form : Form) (parts : List Tree)
  deriving Inhabited

namespace Tree

/-- What the root of a tree is. -/
def form : Tree → Form
  | node f _ => f

/-- The parts of the root of a tree. -/
def parts : Tree → List Tree
  | node _ ps => ps

/-- A tree without parts. -/
def leaf (f : Form) : Tree := node f []

mutual

/-- The number of nodes. -/
def size : Tree → Nat
  | node _ ps => 1 + totalSize ps

/-- The number of nodes of some trees. -/
def totalSize : List Tree → Nat
  | [] => 0
  | t :: row => t.size + totalSize row

end

theorem size_eq (t : Tree) : t.size = 1 + totalSize t.parts := by
  cases t with
  | node f ps => rw [size, parts]

theorem totalSize_append (row next : List Tree) :
    totalSize (row ++ next) = totalSize row + totalSize next := by
  induction row with
  | nil => simp [totalSize]
  | cons t row ih => simp only [List.cons_append, totalSize, ih]; omega

/-- The nodes right below some nodes. -/
def nextRow (row : List Tree) : List Tree := row.flatMap parts

/-- Every step down leaves the nodes of the row behind. -/
theorem totalSize_nextRow (row : List Tree) :
    totalSize (nextRow row) + row.length = totalSize row := by
  induction row with
  | nil => rfl
  | cons t row ih =>
    rw [nextRow] at ih ⊢
    simp only [List.flatMap_cons, totalSize_append, totalSize, List.length_cons, size_eq t]
    omega

/-- Some nodes and all nodes below them, level by level. -/
def rowsBelow (row : List Tree) : List (List Tree) :=
  if row.isEmpty then [] else row :: rowsBelow (nextRow row)
termination_by totalSize row
decreasing_by
  have := totalSize_nextRow row
  have : 0 < row.length := List.length_pos_iff.2 (by simp_all)
  omega

/-- The nodes of a tree, level by level. -/
def rows (t : Tree) : List (List Tree) := rowsBelow [t]

/-- The nodes of a tree, those nearer to the root first and equally near ones in the order of
the text. -/
def breadthFirst (t : Tree) : List Tree := t.rows.flatten

/-- Whether some nodes and those below them make more than a number of rows. -/
def exceeds : Nat → List Tree → Bool
  | 0, row => !row.isEmpty
  | n + 1, row => !row.isEmpty && exceeds n (nextRow row)

/-- Whether a tree has more than a number of rows. -/
def isDeeperThan (t : Tree) (n : Nat) : Bool := exceeds n [t]

/-! ## Targets -/

/-- Whether a tree is a single place to which a value can be given. -/
def isPlace (t : Tree) : Bool :=
  match t.form with
  | .name _ | .attribute _ | .subscript => true
  | _ => false

mutual

/-- Whether values can be given to what a tree stands for: to a place, or to the places in a
tuple or list, where a star takes what is left over. -/
def isTarget : Tree → Bool
  | node (.name _) _ | node (.attribute _) _ | node .subscript _ => true
  | node .starred ps | node .tuple ps | node .list ps => areTargets ps
  | node _ _ => false

/-- Whether values can be given to each of some trees. -/
def areTargets : List Tree → Bool
  | [] => true
  | t :: ts => t.isTarget && areTargets ts

end

mutual

/-- Whether a tree stands for places that can be deleted. -/
def isDeletable : Tree → Bool
  | node (.name _) _ | node (.attribute _) _ | node .subscript _ => true
  | node .tuple ps | node .list ps => areDeletable ps
  | node _ _ => false

/-- Whether each of some trees stands for places that can be deleted. -/
def areDeletable : List Tree → Bool
  | [] => true
  | t :: ts => t.isDeletable && areDeletable ts

end

end Tree

end Enclave.Script
