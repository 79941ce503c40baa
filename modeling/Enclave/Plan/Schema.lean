import Enclave.Naming
import Enclave.Json.Decode

/-!
# Datasets and their columns

What is known of a dataset before a query: its id, its files, and the columns of each file with
the types found in them. A file is a table under the name `Naming.identifierOf` gives it.
-/

namespace Enclave

open Json (Decoder RecordShape Value)

/-- The type of a column. -/
inductive ColumnType where
  | integer
  | float
  | string
  | boolean
  | date
  | timestamp
  deriving Repr, DecidableEq

namespace ColumnType

/-- The type in a document. -/
def wire : ColumnType → String
  | .integer => "integer"
  | .float => "float"
  | .string => "string"
  | .boolean => "boolean"
  | .date => "date"
  | .timestamp => "timestamp"

/-- The type in a message. -/
def label : ColumnType → String
  | .integer => "Integer"
  | .float => "Float"
  | .string => "String"
  | .boolean => "Boolean"
  | .date => "Date"
  | .timestamp => "Timestamp"

def isNumeric : ColumnType → Bool
  | .integer | .float => true
  | _ => false

def choices : List (String × ColumnType) :=
  [.integer, .float, .string, .boolean, .date, .timestamp].map fun t => (wire t, t)

def decoder : Decoder ColumnType := Json.plainVariant choices

end ColumnType

/-- A column of a table. -/
structure ColumnSchema where
  name : String
  type : ColumnType
  deriving Repr, DecidableEq

/-- A file of a dataset. -/
structure Table where
  file : String
  columns : List ColumnSchema
  deriving Repr, DecidableEq

/-- A dataset as queries see it. -/
structure Dataset where
  id : String
  tables : List Table
  deriving Repr, DecidableEq

namespace Table

/-- The name under which the file is queried. -/
def name (t : Table) : String := Naming.identifierOf t.file

/-- The first column of a name. -/
def column? (t : Table) (name : String) : Option ColumnSchema :=
  t.columns.find? fun c => c.name == name

end Table

/-- The first table of a name. -/
def Dataset.table? (d : Dataset) (name : String) : Option Table :=
  d.tables.find? fun t => t.name == name

/-! ## Documents -/

def ColumnSchema.decoder : Decoder ColumnSchema := RecordShape.decode
  { title := "struct ColumnSchema"
    names := ["name", "dtype"]
    required := ["name", "dtype"]
    nullable := []
    start := ⟨"", .string⟩
    set := fun
      | "name" => Json.field Json.text fun c v => { c with name := v }
      | "dtype" => Json.field ColumnType.decoder fun c v => { c with type := v }
      | _ => none }

def Table.decoder : Decoder Table := RecordShape.decode
  { title := "struct TableSchema"
    names := ["file", "columns"]
    required := ["file", "columns"]
    nullable := []
    start := ⟨"", []⟩
    set := fun
      | "file" => Json.field Json.text fun t v => { t with file := v }
      | "columns" => Json.field (Json.list ColumnSchema.decoder) fun t v => { t with columns := v }
      | _ => none }

def Dataset.decoder : Decoder Dataset := RecordShape.decode
  { title := "struct Dataset"
    names := ["id", "tables"]
    required := ["id", "tables"]
    nullable := []
    start := ⟨"", []⟩
    set := fun
      | "id" => Json.field Json.text fun d v => { d with id := v }
      | "tables" => Json.field (Json.list Table.decoder) fun d v => { d with tables := v }
      | _ => none }

end Enclave
