import Enclave.Path.Lexical

/-!
# A directory tree with symbolic links

What the library sees of a file system: a table from places to files, directories and links. A
place is the list of names from the root. `Tree.resolve` follows a path to the place it denotes, as
a system call would: names one after the other, `.` where one stands, `..` to its parent, links in
the middle or at the end replaced by their targets, and no more than forty of them.
-/

namespace Enclave.Path

/-- What stands at a place of a tree. -/
inductive Entry where
  | file (content : String)
  | directory
  | link (target : String)
  deriving Repr, DecidableEq

/-- The names from the root to an entry. -/
abbrev Place := List String

/-- A directory tree. The root is always a directory. -/
structure Tree where
  entries : List (Place × Entry)
  deriving Repr

/-- Why a path leads nowhere. -/
inductive LookupFault where
  | missing
  | nameTooLong
  | notADirectory
  | isADirectory
  | tooManyLinks
  | taken
  deriving Repr, DecidableEq

/-- The wording of the operating system. -/
def LookupFault.message : LookupFault → String
  | .missing => "No such file or directory (os error 2)"
  | .nameTooLong => "File name too long (os error 36)"
  | .notADirectory => "Not a directory (os error 20)"
  | .isADirectory => "Is a directory (os error 21)"
  | .tooManyLinks => "Too many levels of symbolic links (os error 40)"
  | .taken => "File exists (os error 17)"

namespace Tree

/-- An empty tree. -/
def empty : Tree := ⟨[]⟩

/-- What stands at a place. -/
def at? (t : Tree) (p : Place) : Option Entry :=
  if p.isEmpty then some .directory else t.entries.lookup p

/-- The directories above a place, from the top. -/
def ancestors (p : Place) : List Place := (List.range p.length).map fun n => p.take n

/-- Makes the directories of a list that do not exist yet. -/
def ensure (t : Tree) (ps : List Place) : Tree :=
  ps.foldl (fun t p => if (t.at? p).isSome then t else ⟨t.entries ++ [(p, .directory)]⟩) t

/-- Puts an entry at a place, in the place of what stood there; the directories above it are
made. -/
def put (t : Tree) (p : Place) (e : Entry) : Tree :=
  let t := t.ensure (ancestors p)
  if t.entries.any (fun x => x.1 == p) then
    ⟨t.entries.map fun x => if x.1 == p then (p, e) else x⟩
  else ⟨t.entries ++ [(p, e)]⟩

/-- Removes the entry at a place. -/
def remove (t : Tree) (p : Place) : Tree := ⟨t.entries.filter fun x => x.1 != p⟩

/-- The names directly below a place. -/
def children (t : Tree) (p : Place) : List String :=
  t.entries.filterMap fun x =>
    if x.1.length == p.length + 1 && p.isPrefixOf x.1 then x.1.getLast? else none

/-- The steps to be taken for a path: its pieces one after the other, an empty one being `.`. So
what stands in front of a slash has to be a directory, also at the end of a path. -/
def steps (path : String) : List String :=
  (pieces path.toList).map fun p => if p.isEmpty then "." else String.ofList p

/-- The longest name of an entry, in bytes. -/
def maxName : Nat := 255

/-- Why there is nothing of a name. -/
def missingFault (name : String) : LookupFault :=
  if maxName < name.utf8ByteSize then .nameTooLong else .missing

/-- Takes steps from a place. Where one of them is a link, `jump` goes on: from the place where the
link stands or from the root, with the steps of its target in front of those that are left. -/
def walk (t : Tree) (jump : Place → List String → Except LookupFault Place) :
    Place → List String → Except LookupFault Place
  | place, [] => .ok place
  | place, step :: rest =>
    if step = "." then walk t jump place rest
    else if step = ".." then walk t jump place.dropLast rest
    else
      match t.at? (place ++ [step]) with
      | none => .error (missingFault step)
      | some .directory => walk t jump (place ++ [step]) rest
      | some (.file _) => if rest.isEmpty then .ok (place ++ [step]) else .error .notADirectory
      | some (.link target) => jump (if isAbsolute target then [] else place) (steps target ++ rest)

/-- Takes steps from a place and follows the links that it meets, but no more than so many. -/
def follow (t : Tree) : Nat → Place → List String → Except LookupFault Place
  | 0 => t.walk fun _ _ => .error .tooManyLinks
  | links + 1 => t.walk (t.follow links)

/-- How many links are followed for one path. -/
def maxLinks : Nat := 40

/-- The place that an absolute path denotes. -/
def resolve (t : Tree) (path : String) : Except LookupFault Place :=
  if path.isEmpty then .error .missing else t.follow maxLinks [] (steps path)

/-- A place as an absolute path. -/
def pathOf (p : Place) : String :=
  if p.isEmpty then "/" else p.foldl (fun acc n => acc ++ "/" ++ n) ""

/-- The text of the file that a path denotes. -/
def read (t : Tree) (path : String) : Except LookupFault String :=
  match t.resolve path with
  | .error e => .error e
  | .ok p =>
    match t.at? p with
    | some (.file content) => .ok content
    | _ => .error .isADirectory

/-- Whether a path denotes a directory. -/
def isDirectory (t : Tree) (path : String) : Bool :=
  match t.resolve path with
  | .ok p => t.at? p == some .directory
  | .error _ => false

/-- Makes the directories of a path that do not exist yet, below a place that does. A link counts
for the directory that it leads to. -/
def makeBelow (t : Tree) (place : Place) : List String → Except LookupFault Tree
  | [] => .ok t
  | step :: rest =>
    if step == ".." then makeBelow t place.dropLast rest
    else
      match t.at? (place ++ [step]) with
      | none =>
        match missingFault step with
        | .missing => makeBelow (t.put (place ++ [step]) .directory) (place ++ [step]) rest
        | fault => .error fault
      | some _ =>
        match t.resolve (pathOf (place ++ [step])) with
        | .error _ => .error .taken
        | .ok found =>
          if t.at? found == some .directory then makeBelow t found rest
          else .error (if rest.isEmpty then .taken else .notADirectory)

/-- Makes the directory of a path and those above it, where they do not exist yet. -/
def makeDirectories (t : Tree) (path : String) : Except LookupFault Tree :=
  t.makeBelow [] ((steps path).filter (· != "."))

/-- Whether a place holds a regular file. -/
def isFileAt (t : Tree) (p : Place) : Bool :=
  match t.at? p with
  | some (.file _) => true
  | _ => false

end Tree

end Enclave.Path
