/-!
# Names of runs

A run is named by 128 bits, written as 32 hexadecimal digits: in a row, in five groups with
hyphens, and the latter also between braces or behind `urn:uuid:`. Case does not matter.
`canonical?` is the one form under which a run is filed.
-/

namespace Enclave.RunId

/-- A hexadecimal digit. -/
def isHex (c : Char) : Bool :=
  c.isDigit || ('a' ≤ c && c ≤ 'f') || ('A' ≤ c && c ≤ 'F')

/-- The digits of a name in groups with hyphens; `none` for anything else. -/
def ungrouped? (cs : List Char) : Option (List Char) :=
  let hyphens := [8, 13, 18, 23].all fun i => cs[i]? == some '-'
  let digits := cs.filter (· != '-')
  if cs.length = 36 ∧ hyphens ∧ digits.length = 32 then some digits else none

/-- The digits of a name, before they are looked at. -/
def digits? (cs : List Char) : Option (List Char) :=
  match cs.length, cs with
  | 32, cs => some cs
  | 36, cs => ungrouped? cs
  | 38, '{' :: rest => if rest.getLast? = some '}' then ungrouped? rest.dropLast else none
  | 45, cs => if "urn:uuid:".toList.isPrefixOf cs then ungrouped? (cs.drop 9) else none
  | _, _ => none

/-- Digits in five groups with hyphens between them. -/
def grouped (ds : List Char) : List Char :=
  ds.take 8 ++ '-' :: (ds.drop 8).take 4 ++ '-' :: (ds.drop 12).take 4 ++
    '-' :: (ds.drop 16).take 4 ++ '-' :: ds.drop 20

/-- The form under which a run is filed. -/
def canonical? (id : String) : Option String :=
  match digits? id.toList with
  | some ds =>
    if ds.all isHex then some (String.ofList (grouped (ds.map Char.toLower))) else none
  | none => none

end Enclave.RunId
