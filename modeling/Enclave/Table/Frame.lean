import Enclave.Table.Cell

/-!
# Tables

A frame is a list of columns over the same rows. A column that is the same for all rows is
`single`: it holds one cell, and takes the height of what it is put beside. Two frames of columns
that are all single are of height one.

Every column knows the table it comes from, under all names of that table, and the name it had
there.
-/

namespace Enclave.Table

/-- A column, or a value that stands for a column. -/
structure Column where
  name : String
  type : CellType
  cells : List Cell
  /-- Whether one cell stands for all rows. -/
  single : Bool
  /-- The names of the table that the column comes from. -/
  tables : List String
  /-- The name of the column in that table. -/
  source : String
  deriving Repr

namespace Column

/-- A column that was computed. -/
def computed (name : String) (type : CellType) (cells : List Cell) (single : Bool) : Column :=
  ⟨name, type, cells, single, [], name⟩

/-- One value for all rows. -/
def one (name : String) (type : CellType) (cell : Cell) : Column := computed name type [cell] true

def rename (c : Column) (name : String) : Column := { c with name }

/-- The column with all its cells, for some number of rows. -/
def spread (height : Nat) (c : Column) : Column :=
  if c.single then { c with cells := List.replicate height (c.cells.headD .null), single := false }
  else c

/-- The rows of a column by their numbers. -/
def pick (rows : List Nat) (c : Column) : Column :=
  let cells := c.cells.toArray
  { c with cells := rows.map fun i => cells.getD i .null }

/-- The cells as ones of a wider type. -/
def widen (t : CellType) (c : Column) : Column :=
  if c.type = t then c else { c with type := t, cells := c.cells.map (Cell.widen t) }

end Column

/-- A table. -/
structure Frame where
  columns : List Column
  height : Nat
  deriving Repr

namespace Frame

/-- A table without columns and rows. -/
def empty : Frame := ⟨[], 0⟩

/-- The column of a name. -/
def column? (f : Frame) (name : String) : Option Column := f.columns.find? fun c => c.name == name

/-- The column that a table calls by a name. -/
def columnOf? (f : Frame) (table name : String) : Option Column :=
  f.columns.find? fun c => c.tables.contains table && c.source == name

/-- The columns of a table. -/
def columnsOf (f : Frame) (table : String) : List Column :=
  f.columns.filter fun c => c.tables.contains table

/-- The rows of some numbers, in their order. -/
def pick (f : Frame) (rows : List Nat) : Frame :=
  ⟨f.columns.map (Column.pick rows), rows.length⟩

/-- The numbers of all rows. -/
def rowNumbers (f : Frame) : List Nat := List.range f.height

/-- The rows for which a list of truth values holds. -/
def keep (f : Frame) (truths : List Bool) : Frame :=
  f.pick (((f.rowNumbers.zip truths).filter Prod.snd).map Prod.fst)

/-- The first rows. -/
def take (f : Frame) (n : Nat) : Frame :=
  ⟨f.columns.map fun c => { c with cells := c.cells.take n }, min n f.height⟩

/-- The rows behind the first. -/
def drop (f : Frame) (n : Nat) : Frame :=
  ⟨f.columns.map fun c => { c with cells := c.cells.drop n }, f.height - n⟩

/-- The table under a name. -/
def named (f : Frame) (names : List String) : Frame :=
  ⟨f.columns.map fun c => { c with tables := names, source := c.name }, f.height⟩

/-- The table of some columns: as high as the columns that are not single, or of height one. -/
def ofColumns (cs : List Column) : Frame :=
  let height := match cs.find? fun c => !c.single with
    | some c => c.cells.length
    | none => min cs.length 1
  ⟨cs.map (Column.spread height), height⟩

/-- A table with columns put into it, each in the place of a column of the same name or at the
end. -/
def withColumns (f : Frame) (cs : List Column) : Frame :=
  let spread := cs.map (Column.spread f.height)
  let replaced := f.columns.map fun c => (spread.find? fun d => d.name == c.name).getD c
  let added := spread.filter fun d => !f.columns.any fun c => c.name == d.name
  ⟨replaced ++ added, f.height⟩

/-- The rows of a table as lists of cells. -/
def rows (f : Frame) : List (List Cell) :=
  f.columns.foldr (fun c acc => List.zipWith List.cons c.cells acc) (List.replicate f.height [])

/-- The names that occur more than once. -/
def repeated (names : List String) : Option String :=
  names.find? fun n => 1 < names.count n

end Frame

/-- Whether two rows are the same. -/
def sameRow (a b : List Cell) : Bool :=
  a.length == b.length && (a.zip b).all fun p => p.1.same p.2

/-- The numbers of rows with equal keys brought together, groups in the order in which they first
appear. -/
def groupRows (keys : List (List Cell)) : List (List Cell × List Nat) :=
  let put (groups : List (List Cell × List Nat)) (row : Nat × List Cell) :=
    if groups.any fun g => sameRow g.1 row.2 then
      groups.map fun g => if sameRow g.1 row.2 then (g.1, row.1 :: g.2) else g
    else groups ++ [(row.2, [row.1])]
  let groups := ((List.range keys.length).zip keys).foldl put []
  groups.map fun g => (g.1, g.2.reverse)

/-- The order of two rows by their keys, each with its direction. -/
def compareKeys : List Bool → List Cell → List Cell → Ordering
  | d :: ds, a :: as, b :: bs => (Cell.sortOrder d a b).then (compareKeys ds as bs)
  | _, _, _ => .eq

/-- The numbers of rows sorted by keys; rows with equal keys keep their order. -/
def sortRows (descending : List Bool) (keys : List (List Cell)) : List Nat :=
  (((List.range keys.length).zip keys).mergeSort
    fun a b => (compareKeys descending a.2 b.2).isLE).map Prod.fst

end Enclave.Table
