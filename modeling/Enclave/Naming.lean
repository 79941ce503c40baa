import Enclave.Failure

/-!
# Names of datasets and tables

A dataset id is one plain segment: it names a directory, a mount and a label. A table is named
after its file: `identifierOf` keeps the last segment of a file name without its extension, in
lower case, with one underscore for every run of other characters. `tableNames` names the tables of
a dataset and refuses two files with one name.
-/

namespace Enclave.Naming

/-- A character of a dataset id. -/
def isIdChar (c : Char) : Bool := c.isAlphanum || c == '-' || c == '_'

/-- Whether a text is a dataset id: one to sixty-three letters, digits, hyphens and underscores, no
hyphen in front. -/
def isDatasetId (id : String) : Bool :=
  !id.isEmpty && id.utf8ByteSize ≤ 63 && id.toList.all isIdChar && id.toList.head? != some '-'

/-- Accepts a dataset id. -/
def checkDatasetId (id : String) : Outcome Unit :=
  if isDatasetId id then .ok ()
  else .error (.invalid "dataset.id" ("'" ++ id ++ "' is not a plain identifier"))

/-- The part of a name behind its last slash or backslash. -/
def lastPart (cs : List Char) : List Char :=
  (cs.reverse.takeWhile fun c => c != '/' && c != '\\').reverse

/-- A file name without its last extension; a dot in front begins none. -/
def stem (cs : List Char) : List Char :=
  match cs.reverse.dropWhile (· != '.') with
  | [] => cs
  | _ :: front => if front.isEmpty then cs else front.reverse

/-- Letters and digits in lower case, one underscore for every run of other characters. `gap` says
that an underscore was just written. -/
def squeeze (gap : Bool) : List Char → List Char
  | [] => []
  | c :: rest =>
    if c.isAlphanum then c.toLower :: squeeze false rest
    else if gap then squeeze true rest
    else '_' :: squeeze true rest

/-- A list without underscores at either end. -/
def trimUnderscores (cs : List Char) : List Char :=
  ((cs.dropWhile (· == '_')).reverse.dropWhile (· == '_')).reverse

/-- The table name of a file. A name that would begin with a digit gets `t_` in front, an empty one
becomes `t`. -/
def identifierOf (name : String) : String :=
  match trimUnderscores (squeeze false (stem (lastPart name.toList))) with
  | [] => "t"
  | c :: rest => String.ofList (if c.isDigit then 't' :: '_' :: c :: rest else c :: rest)

/-- Names the tables of a list of files; `seen` are the tables named so far, each with its file. -/
def nameTables (seen : List (String × String)) : List String → Outcome (List String)
  | [] => .ok []
  | name :: rest =>
    let table := identifierOf name
    match seen.lookup table with
    | some other =>
      .error (.invalid "files"
        ("'" ++ other ++ "' and '" ++ name ++ "' both map to table '" ++ table ++ "'"))
    | none => (nameTables ((table, name) :: seen) rest).map (table :: ·)

/-- The table names of a list of files, pairwise different. -/
def tableNames (names : List String) : Outcome (List String) := nameTables [] names

end Enclave.Naming
