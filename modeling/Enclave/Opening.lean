import Enclave.Sandbox
import Enclave.Backend.Basic

/-!
# Opening a sandbox

From settings, and a place for the capsules, to a sandbox that is ready for submissions. The
settings are checked first, then the store is opened, then the inspector of scripts is looked for,
so that nothing is written under settings that are refused.
-/

namespace Enclave

/-- Where capsules are kept. -/
inductive CapsulePlace where
  | memory
  /-- One document for each run in a directory. -/
  | directory (path : String)
  deriving Repr, DecidableEq

namespace DirectoryStore

/-- The store in a directory of a tree, with the files that are there already. -/
def ofTree (t : Path.Tree) (place : Path.Place) : DirectoryStore :=
  ⟨(t.children place).filterMap fun name =>
    match t.at? (place ++ [name]) with
    | some (.file text) => some (name, .text text)
    | _ => none⟩

end DirectoryStore

namespace CapsulePlace

/-- Opens the store at a place; its directory is made if need be. -/
def openStore (t : Path.Tree) : CapsulePlace → Outcome (Store × Path.Tree)
  | .memory => .ok (.memory .empty, t)
  | .directory path =>
    match t.makeDirectories path with
    | .error e => .error (.io e.message)
    | .ok t => .ok (.directory (((t.resolve path).toOption.map (DirectoryStore.ofTree t)).getD .empty), t)

end CapsulePlace

/-- A sandbox that is ready, its store, and the tree after the store was opened. -/
structure Opened where
  sandbox : Sandbox
  capabilities : Capabilities
  store : Store
  tree : Path.Tree

namespace Opened

/-- Opens a sandbox over the backend that the settings select. -/
def ofSettings (s : Settings) (capsules : CapsulePlace) (inspector : Option Inspector)
    (t : Path.Tree) : Outcome Opened := do
  s.check
  let (store, tree) ← capsules.openStore t
  let sandbox ← Sandbox.ofSettings s s.mode.backendName inspector
  return { sandbox, capabilities := s.capabilities, store, tree }

/-- Opens a sandbox with the settings of an environment and capsules in memory. -/
def ofEnvironment (env : Environment) (inspector : Option Inspector) (t : Path.Tree) :
    Outcome Opened := do
  let s ← Settings.ofEnvironment t env
  ofSettings s .memory inspector t

end Opened

end Enclave
