import Enclave.Script.Tree
import Enclave.Script.Policy

/-!
# What a script may not do

A node of a syntax tree offends when it imports a module that the rules keep away, imports from
the place of the script itself, calls something by a name that may not be called, or names
something hidden, which is a name between double underscores. Of several offences that of the
first node counts, level by level.
-/

namespace Enclave.Script

/-- What a script did that it may not do. -/
inductive Offence where
  | importOf (module : String)
  | relativeImport
  | importFrom (module : String)
  | callTo (name : String)
  | accessTo (name : String)
  deriving Repr, DecidableEq

/-- The wording of an offence. -/
def Offence.message : Offence → String
  | importOf module => "import of '" ++ module ++ "' is not allowed"
  | relativeImport => "relative imports are not allowed"
  | importFrom module => "import from '" ++ module ++ "' is not allowed"
  | callTo name => "call to '" ++ name ++ "' is not allowed"
  | accessTo name => "access to '" ++ name ++ "' is not allowed"

/-- Whether a name begins and ends with two underscores; they may be the same ones. -/
def isHidden (name : String) : Bool :=
  ['_', '_'].isPrefixOf name.toList && ['_', '_'].isSuffixOf name.toList

namespace Tree

/-- The offence in a name that something hidden could have. -/
def access? (name : String) : Option Offence :=
  if isHidden name then some (.accessTo name) else none

/-- The module that a part of an import brings in, if it may not. -/
def importedOffence? (r : ScriptRules) (t : Tree) : Option Offence :=
  match t.form with
  | .imported module => if r.allowsModule module then none else some (.importOf module)
  | _ => none

/-- The name by which a callee is called. -/
def calledName? (callee : Tree) : Option String :=
  match callee.form with
  | .name n => some n
  | .attribute n => some n
  | _ => none

/-- The offence of the root of a tree under some rules. -/
def offence? (r : ScriptRules) (t : Tree) : Option Offence :=
  match t.form with
  | .importing => t.parts.findSome? (importedOffence? r)
  | .importingFrom level module =>
    if level ≠ 0 then some .relativeImport
    else if r.allowsModule module then none
    else some (.importFrom module)
  | .call =>
    match t.parts.head?.bind calledName? with
    | some n => if r.calls.contains n then some (.callTo n) else none
    | none => none
  | .attribute n => access? n
  | .name n => access? n
  | _ => none

/-- The first offence in a tree. -/
def firstOffence? (r : ScriptRules) (t : Tree) : Option Offence :=
  t.breadthFirst.findSome? (offence? r)

end Tree

end Enclave.Script
