import Enclave.Json.Decode
import Enclave.Text.Blank

/-!
# Which modules a script may import

An import policy allows the modules of a list, denies those of a list, or does both. Only the root
of a dotted module name counts. A policy keeps its lists sorted and without repetition, so that
equal policies are written alike.
-/

namespace Enclave

open Json (Decoder RecordShape Value Misfit field)

/-- A text put into a sorted list without repetition. -/
def insertSorted (s : String) : List String → List String
  | [] => [s]
  | t :: rest =>
    if s = t then t :: rest
    else if s < t then s :: t :: rest
    else t :: insertSorted s rest

/-- The texts of a list in order and once each. -/
def sortedSet (ss : List String) : List String := ss.foldr insertSorted []

/-- Which modules may be imported. -/
inductive ImportPolicy where
  | deny (modules : List String)
  | allow (modules : List String)
  | both (allowed denied : List String)
  deriving Repr, DecidableEq

namespace ImportPolicy

/-- The part of a dotted name before its first dot. -/
def rootOf (module : String) : String := String.ofList (module.toList.takeWhile (· != '.'))

/-- Whether a module may be imported. -/
def allows : ImportPolicy → String → Bool
  | .deny denied, m => !denied.contains (rootOf m)
  | .allow allowed, m => allowed.contains (rootOf m)
  | .both allowed denied, m => allowed.contains (rootOf m) && !denied.contains (rootOf m)

/-- The modules to which imports are restricted, if they are. -/
def allowedRoots : ImportPolicy → Option (List String)
  | .deny _ => none
  | .allow allowed => some allowed
  | .both allowed _ => some allowed

/-- The modules that are denied. -/
def deniedRoots : ImportPolicy → List String
  | .deny denied => denied
  | .allow _ => []
  | .both _ denied => denied

/-- Modules for analysis: dataframes, numerics, and helpers that touch nothing outside. -/
def analysis : ImportPolicy := .allow (sortedSet
  ["pandas", "numpy", "scipy", "statsmodels", "math", "statistics", "decimal", "fractions",
   "numbers", "random", "datetime", "time", "calendar", "collections", "itertools", "functools",
   "operator", "re", "string", "textwrap", "json", "typing", "dataclasses", "enum", "heapq",
   "bisect", "copy"])

/-! ## Documents -/

def toJson : ImportPolicy → Value
  | .deny denied => .obj [("blacklist", .strings denied)]
  | .allow allowed => .obj [("whitelist", .strings allowed)]
  | .both allowed denied =>
    .obj [("both", .obj [("whitelist", .strings allowed), ("blacklist", .strings denied)])]

/-- A set of modules. -/
def modulesDecoder : Decoder (List String) := fun s d => (Json.list Json.text s d).map sortedSet

def bothShape : RecordShape ImportPolicy :=
  { title := "struct variant ImportPolicy::Both"
    names := ["whitelist", "blacklist"]
    required := ["whitelist", "blacklist"]
    nullable := []
    start := .both [] []
    set := fun
      | "whitelist" => field modulesDecoder fun p v => .both v p.deniedRoots
      | "blacklist" => field modulesDecoder fun p v => .both (p.allowedRoots.getD []) v
      | _ => none }

/-- What is said of a variant that is only named. -/
def bare (name : String) : Misfit :=
  .wrongType "unit variant" (if name == "both" then "struct variant" else "newtype variant")

def decoder : Decoder ImportPolicy := Json.contentVariant
  [("blacklist", fun s d => (modulesDecoder s d).map .deny),
   ("whitelist", fun s d => (modulesDecoder s d).map .allow),
   ("both", Json.recordVariant bothShape)] bare

end ImportPolicy

end Enclave
