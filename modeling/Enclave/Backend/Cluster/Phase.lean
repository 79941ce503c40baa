import Enclave.Json.Value
import Enclave.Text.Quoted

/-!
# What the cluster says of a job

The status of a job is a loosely typed document: any part may be missing or of another kind, and
then it says nothing. A true condition `Failed` decides first, then success by a true condition
`Complete` or by the count, then failure by the count. A job of which nothing is said is active.
-/

namespace Enclave.Cluster

open Json (Value)

/-- The member of an object, null when it is missing or there is no object. -/
def member (v : Value) (k : String) : Value := (v.get? k).getD .null

/-- A path of members. -/
def member.along (v : Value) (ks : List String) : Value := ks.foldl member v

/-- The elements of an array; none for what is no array. -/
def elements (v : Value) : List Value := v.asArray?.getD []

/-- Whether a value is a positive whole number. -/
def isPositive : Value → Bool
  | .int n => 0 < n
  | _ => false

/-- Whether a value is a certain text. -/
def isText (v : Value) (s : String) : Bool := v.asString? == some s

/-- What a job is about. -/
inductive JobPhase where
  | active
  | succeeded
  | failed (reason : Option String)
  deriving Repr, DecidableEq

namespace JobPhase

/-- A phase as it is shown in messages. -/
def text : JobPhase → String
  | .active => "Active"
  | .succeeded => "Succeeded"
  | .failed none => "Failed(None)"
  | .failed (some reason) => "Failed(Some(" ++ Text.quoted reason ++ "))"

end JobPhase

/-- Whether a condition is of a type and true; one without a status counts as true. -/
def holds (type : String) (condition : Value) : Bool :=
  isText (member condition "type") type &&
    (match (member condition "status").asString? with
     | some s => s == "True"
     | none => true)

/-- The phase of a job by its document. -/
def phaseOf (job : Value) : JobPhase :=
  let status := member job "status"
  let conditions := elements (member status "conditions")
  match conditions.find? (holds "Failed") with
  | some failed => .failed (member failed "reason").asString?
  | none =>
    if conditions.any (holds "Complete") || isPositive (member status "succeeded") then .succeeded
    else if isPositive (member status "failed") then .failed none
    else .active

/-- Whether a container was, now or before, killed for its use of memory. -/
def ranOutOfMemory (container : Value) : Bool :=
  ["state", "lastState"].any fun k =>
    isText (member.along container [k, "terminated", "reason"]) "OOMKilled"

/-- Whether a container of some pods was killed for its use of memory. -/
def anyOutOfMemory (pods : Value) : Bool :=
  (elements (member pods "items")).any fun pod =>
    (elements (member.along pod ["status", "containerStatuses"])).any ranOutOfMemory

end Enclave.Cluster
