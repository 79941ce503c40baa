import Enclave.Script.Grammar.Statement
import Enclave.Script.Offence

/-!
# The inspection of scripts

The inspector of the library reads a script as a syntax tree and looks for the first offence in
it. Its verdict is accepting, names an offence, or says that the text is no script. Of a script
that is nested too deeply for it there is no verdict.
-/

namespace Enclave.Script

open Json (Value)

/-- What an inspector may say of a script. -/
inductive Verdict where
  | accepted
  | offends (offence : Offence)
  | unreadable
  deriving Repr, DecidableEq

/-- The verdict as an inspector prints it. -/
def Verdict.toJson : Verdict → Value
  | accepted => .obj [("ok", .bool true)]
  | offends o => .obj [("kind", .str "policy"), ("message", .str o.message), ("ok", .bool false)]
  | unreadable =>
    .obj [("kind", .str "syntax"), ("message", .str "invalid syntax"), ("ok", .bool false)]

/-- The most levels that a tree may have to be looked at. -/
def maxTreeDepth : Nat := 2991

/-- The verdict on a syntax tree: none on one that is too deep. -/
def Tree.verdict? (r : ScriptRules) (t : Tree) : Option Verdict :=
  if t.isDeeperThan maxTreeDepth then none
  else
    match t.firstOffence? r with
    | some o => some (.offends o)
    | none => some .accepted

/-- The verdict on a script. -/
def verdict? (r : ScriptRules) (code : String) : Option Verdict :=
  match Tree.ofText code with
  | .ok t => t.verdict? r
  | .error .wrong => some .unreadable
  | .error .tooDeep => none

/-- The inspector of the library. -/
def inspector : Inspector := fun r code =>
  match verdict? r code with
  | some v => .ok ⟨v.toJson.compact, ""⟩
  | none => .ok ⟨"", "nested too deeply"⟩

end Enclave.Script
