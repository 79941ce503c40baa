/-!
# Paths as texts

A path is read as a list of segments: slashes separate them, repeated slashes and segments `.`
count for nothing, except that a relative path may begin with `.`. Nothing is looked up; `..` stays
a segment. `Path.within` is the prefix order on segment lists, so that `/data` does not contain
`/datax`.
-/

namespace Enclave.Path

/-- One step of a path. -/
inductive Segment where
  /-- The leading slash. -/
  | root
  /-- A leading `.`. -/
  | here
  /-- A step up. -/
  | parent
  | name (chars : List Char)
  deriving Repr, DecidableEq

/-- The pieces of a text between slashes. -/
def pieces : List Char → List (List Char)
  | [] => [[]]
  | c :: rest =>
    match pieces rest with
    | [] => [[]]
    | p :: ps => if c = '/' then [] :: p :: ps else (c :: p) :: ps

/-- The segment of a piece; `none` for an empty piece and for `.`. -/
def Segment.ofPiece? : List Char → Option Segment
  | [] => none
  | ['.'] => none
  | ['.', '.'] => some .parent
  | p => some (.name p)

/-- Whether a path starts at the root. -/
def isAbsolute (path : String) : Bool := path.toList.head? == some '/'

/-- The segments of a path. -/
def segments (path : String) : List Segment :=
  let ps := pieces path.toList
  let body := ps.filterMap Segment.ofPiece?
  if isAbsolute path then .root :: body
  else if ps.head? == some ['.'] then .here :: body
  else body

/-- Whether one path lies at or below another. -/
def within (base path : String) : Bool := (segments base).isPrefixOf (segments path)

/-- Whether two paths have the same segments. -/
def same (a b : String) : Bool := segments a == segments b

/-- A path continued by another; an absolute one starts anew. -/
def join (base rest : String) : String :=
  if isAbsolute rest then rest
  else if base.isEmpty then rest
  else if base.toList.getLast? == some '/' then base ++ rest
  else base ++ "/" ++ rest

/-- The text of a segment. -/
def Segment.text : Segment → String
  | .root => "/"
  | .here => "."
  | .parent => ".."
  | .name p => String.ofList p

/-- The last segment of a path, if it is a name. -/
def lastName? (path : String) : Option String :=
  match (segments path).getLast? with
  | some (.name p) => some (String.ofList p)
  | _ => none

end Enclave.Path
