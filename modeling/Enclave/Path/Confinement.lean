import Enclave.Path.Tree
import Enclave.Failure

/-!
# Paths that stay below a root

Two checks of a path against a root. `checkLexical` looks at the texts alone: absolute, without a
step up, and strictly below the root. `resolveUnder` repeats it, follows all links of the path and
of the root, and asks that the place found still lies at or below the place of the root and is a
regular file. So a link inside the root cannot lead out of it.
-/

namespace Enclave.Path

/-- Why a path is rejected. -/
inductive Rejection where
  | emptyPath
  | embeddedNul
  | relative
  | stepsUp
  | outside (root : String)
  | resolvesOutside
  | notRegular
  | lookup (fault : LookupFault)
  deriving Repr, DecidableEq

/-- The wording of a rejection. -/
def Rejection.message : Rejection → String
  | .emptyPath => "empty path"
  | .embeddedNul => "embedded NUL byte"
  | .relative => "path must be absolute"
  | .stepsUp => "parent-directory traversal"
  | .outside root => "not under data root " ++ root
  | .resolvesOutside => "resolves outside the data root"
  | .notRegular => "not a regular file"
  | .lookup fault => fault.message

/-- A rejected path as a failure. -/
def reject {α : Type} (path : String) (r : Rejection) : Outcome α :=
  .error (.pathRejected path r.message)

/-- Accepts a path that is, by its text alone, absolute, free of steps up and strictly below the
root. -/
def checkLexical (root path : String) : Outcome String :=
  if path.isEmpty then reject path .emptyPath
  else if path.toList.contains '\x00' then reject path .embeddedNul
  else if !isAbsolute path then reject path .relative
  else if (segments path).contains .parent then reject path .stepsUp
  else if !within root path || same root path then reject path (.outside root)
  else .ok path

/-- The place of a regular file that lies below a root once all links are followed. -/
def placeUnder (t : Tree) (root path : String) : Outcome Place := do
  let path ← checkLexical root path
  match t.resolve root with
  | .error e => reject root (.lookup e)
  | .ok base =>
    match t.resolve path with
    | .error e => reject path (.lookup e)
    | .ok place =>
      if !base.isPrefixOf place then reject path .resolvesOutside
      else if !t.isFileAt place then reject path .notRegular
      else .ok place

/-- The canonical path of a regular file that lies below a root once all links are followed. -/
def resolveUnder (t : Tree) (root path : String) : Outcome String :=
  (placeUnder t root path).map Tree.pathOf

end Enclave.Path
