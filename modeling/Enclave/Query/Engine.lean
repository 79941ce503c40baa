import Enclave.Query.Evaluation
import Enclave.Sql.Policy
import Enclave.Runner

/-!
# The query engine

The engine of a runner answers one statement over tables in files. Every file has to be a table,
used or not; what is wrong inside of one shows only in queries that use it.
-/

namespace Enclave.Query

open Table Sql

/-- How the engine reads a statement: a list may end in a comma. -/
def engineSetting : Setting := ⟨maxDepth, true⟩

/-- The query in a statement, and a bound on its nesting. -/
def parse (statement : String) : Result (Sql.Query × Nat) :=
  match lexemes statement.toList with
  | none => .error .notParsed
  | some ls =>
    match statementsOf engineSetting ls with
    | some [.query q] => .ok (q, 4 * ls.length + 16)
    | _ => .error .notParsed

/-- The table in a file. -/
def readTable (files : Path.Tree) (t : TableFile) : Result (String × Result Frame) :=
  match files.read t.path with
  | .error _ => .error (.unknownTable t.name)
  | .ok text =>
    match Table.ofText text with
    | .ok f => .ok (t.name, .ok f)
    | .error .noData => .error (.file .noData)
    | .error e => .ok (t.name, .error (.file e))

/-- The answer of a statement over tables in files, with so many rows at most. -/
def run (files : Path.Tree) (tables : List TableFile) (statement : String) (limit : Nat) :
    Result Frame := do
  let tables ← tables.mapM (readTable files)
  let (q, bound) ← parse statement
  return (← answer bound tables q).take limit

/-- The engine over the files of a tree. -/
def engine (files : Path.Tree) : Engine := fun tables statement limit =>
  match run files tables statement limit with
  | .ok f => .table (f.columns.map Column.name) (f.rows.map fun r => r.map Cell.toJson)
  | .error e => .failed e.message

end Enclave.Query
