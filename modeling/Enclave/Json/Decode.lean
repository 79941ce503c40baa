import Enclave.Json.Document
import Enclave.Json.Printer
import Enclave.Text.Quoted

/-!
# Typed reading of JSON

A decoder turns a tree into a value of a domain type or says why the tree does not fit. Trees come
from a text or from a JSON value at hand (`Origin`); the two differ in a few wordings only.

* `word`, `text`, `flag`, `list`, `optional` decode the leaves and containers;
* a `RecordShape` describes a record once, and `RecordShape.decode` reads it from an object with
  its fields in any order, unknown fields being passed over, or from an array of its fields;
* `variant` reads one of several names, with or without a content.

Fields are decoded in the order in which the tree lists them, so the first fault wins.
-/

namespace Enclave.Json

/-- Where a tree comes from. -/
inductive Origin where
  /-- A text that is being read. -/
  | text
  /-- A JSON value at hand. -/
  | tree
  /-- A part of a tree that was set aside until the shape it has to fit was known. -/
  | aside
  deriving Repr, DecidableEq

/-- The circumstances of a decoder. -/
structure Scope where
  origin : Origin
  /-- How many levels of nesting are left. -/
  depth : Nat

/-- A scope for a whole text. -/
def Scope.ofText : Scope := ⟨.text, maxDepth⟩

/-- A scope for a value at hand. It is there already, so it may be nested at will. -/
def Scope.ofTree (v : Value) : Scope := ⟨.tree, v.nesting⟩

/-- A scope one level further down. -/
def Scope.inner (s : Scope) : Scope := { s with depth := s.depth - 1 }

/-- Why a tree does not fit a type. -/
inductive Misfit where
  | fault (f : Fault)
  | wrongType (found : String) (expected : String)
  | wrongValue (found : String) (expected : String)
  | wrongLength (length : Nat) (expected : String)
  | unknownVariant (name : String) (expected : List String)
  | missingField (name : String)
  | duplicateField (name : String)
  | noVariant (type : String)
  | badTime (reason : String)
  deriving Repr, DecidableEq

/-- Names as a choice: `a`, `a or b`, or `one of a, b, c`. -/
def choiceText (names : List String) : String :=
  match names.map fun n => "`" ++ n ++ "`" with
  | [a] => a
  | [a, b] => a ++ " or " ++ b
  | more => "one of " ++ Text.joined ", " more

/-- The wording of a misfit. -/
def Misfit.message : Misfit → String
  | .fault f => f.message
  | .wrongType found expected => "invalid type: " ++ found ++ ", expected " ++ expected
  | .wrongValue found expected => "invalid value: " ++ found ++ ", expected " ++ expected
  | .wrongLength n expected =>
    "invalid length " ++ Decimal.natText n ++ ", expected " ++ expected
  | .unknownVariant name [] => "unknown variant `" ++ name ++ "`, there are no variants"
  | .unknownVariant name expected =>
    "unknown variant `" ++ name ++ "`, expected " ++ choiceText expected
  | .missingField name => "missing field `" ++ name ++ "`"
  | .duplicateField name => "duplicate field `" ++ name ++ "`"
  | .noVariant type => "data did not match any variant of untagged enum " ++ type
  | .badTime reason => reason

/-- A reader of trees of one type. -/
abbrev Decoder (α : Type) := Scope → Doc → Except Misfit α

/-! ## What was found -/

/-- An integer in a message. -/
def intFound (n : Int) : String := "integer `" ++ Decimal.intText n ++ "`"

/-- The first fault of a leaf, or what it is in a message. -/
def Doc.found : Doc → Except Fault String
  | .null => .ok "null"
  | .bool b => .ok ("boolean `" ++ (if b then "true" else "false") ++ "`")
  | .num (.int n) => .ok (intFound n)
  | .num (.float f) => .ok ("floating point `" ++ floatText f ++ "`")
  | .num .tooLarge => .error .numberOutOfRange
  | .str _ (some f) => .error f
  | .str s none => .ok ("string " ++ Text.quoted s)
  | .arr _ _ => .ok "sequence"
  | .obj _ _ => .ok "map"
  | .broken f => .error f

/-- A tree of the wrong kind: its own fault first, then the kind. -/
def wrongKind {α : Type} (expected : String) (d : Doc) : Except Misfit α :=
  match d.found with
  | .error f => .error (.fault f)
  | .ok found => .error (.wrongType found expected)

/-- A fault of the text as a misfit. -/
def ofFault {α : Type} : Except Fault α → Except Misfit α
  | .ok a => .ok a
  | .error f => .error (.fault f)

/-! ## Leaves -/

/-- A natural number below `2 ^ bits`. -/
def word (bits : Nat) (expected : String) : Decoder Nat := fun _ d =>
  match d with
  | .num (.int n) =>
    if 0 ≤ n ∧ n < 2 ^ bits then .ok n.toNat else .error (.wrongValue (intFound n) expected)
  | d => wrongKind expected d

def word64 : Decoder Nat := word 64 "u64"
def word32 : Decoder Nat := word 32 "u32"
def size64 : Decoder Nat := word 64 "usize"

/-- A double; integers are converted. -/
def double : Decoder Float := fun _ d =>
  match d with
  | .num (.int n) =>
    .ok (if n < 0 then -(wordFloat n.natAbs) else wordFloat n.natAbs)
  | .num (.float f) => .ok f
  | d => wrongKind "f64" d

def flag : Decoder Bool := fun _ d =>
  match d with
  | .bool b => .ok b
  | d => wrongKind "a boolean" d

/-- A string, described by `expected` where there is none. -/
def textAs (expected : String) : Decoder String := fun _ d =>
  match d with
  | .str s none => .ok s
  | d => wrongKind expected d

def text : Decoder String := textAs "a string"

/-- The text of a path. -/
def pathText : Decoder String := textAs "path string"

/-- Any JSON value. -/
def anyValue : Decoder Value := fun s d => ofFault (d.toValue s.depth)

/-- Null as `none`. -/
def optional {α : Type} (item : Decoder α) : Decoder (Option α) := fun s d =>
  match d with
  | .null => .ok none
  | d => (item s d).map some

/-! ## Lists -/

/-- The items of a list, decoded in order. -/
def decodeItems {α : Type} (item : Doc → Except Misfit α) : List Doc → Except Misfit (List α)
  | [] => .ok []
  | d :: ds =>
    match item d with
    | .error e => .error e
    | .ok a =>
      match decodeItems item ds with
      | .error e => .error e
      | .ok as => .ok (a :: as)

/-- Refuses to go deeper than a text may be nested. -/
def guardDepth (s : Scope) : Except Misfit Unit :=
  if s.origin == .text && s.depth == 0 then .error (.fault .recursionLimit) else .ok ()

def list {α : Type} (item : Decoder α) : Decoder (List α) := fun s d =>
  match d with
  | .arr items stop => do
    guardDepth s
    let as ← decodeItems (item s.inner) items
    match stop with
    | some f => .error (.fault f)
    | none => .ok as
  | d => wrongKind "a sequence" d

/-! ## Records -/

/-- A record type as it is read: its fields in order, each with what it does to the record. A field
that is neither required nor listed in `nullable` keeps the value it has in `start`. -/
structure RecordShape (α : Type) where
  /-- The record in messages, such as `struct Budget`. -/
  title : String
  /-- The names of the fields in order of declaration. -/
  names : List String
  /-- The fields that have to be there. -/
  required : List String
  /-- The fields that an object may leave out and an array may not. -/
  nullable : List String
  start : α
  /-- How a field of a name changes the record; `none` for a name that is no field. -/
  set : String → Option (α → Decoder α)

/-- Members of an object taken into a record one after the other. `seen` are the names of the
fields met so far. -/
def takeFields {α : Type} (set : String → Option (α → Decoder α)) (s : Scope) :
    List String → α → List (String × Option Fault × Doc) → Except Misfit (List String × α)
  | seen, acc, [] => .ok (seen, acc)
  | _, _, (_, some f, _) :: _ => .error (.fault f)
  | seen, acc, (k, none, d) :: rest =>
    match set k with
    | none =>
      match d.hardFault with
      | some f => .error (.fault f)
      | none => takeFields set s seen acc rest
    | some step =>
      if seen.contains k then .error (.duplicateField k)
      else
        match step acc s d with
        | .error e => .error e
        | .ok acc => takeFields set s (k :: seen) acc rest

/-- The number of fields in a message. -/
def elementsText (title : String) (n : Nat) : String :=
  title ++ " with " ++ Decimal.natText n ++ (if n = 1 then " element" else " elements")

/-- What is said of an array with more items than the record has fields. -/
def tooMany (origin : Origin) (names : List String) (items : List Doc) : Misfit :=
  match origin with
  | .text => .fault .trailingCharacters
  | .tree => .wrongLength items.length "fewer elements in array"
  | .aside => .wrongLength items.length
      (Decimal.natText names.length ++
        (if names.length = 1 then " element in sequence" else " elements in sequence"))

/-- The fault of an unclosed array: once it holds all that is wanted, anything but its end is
surplus. -/
def endFault (complete : Bool) (f : Fault) : Fault :=
  if complete && f = .expectedListCommaOrEnd then .trailingCharacters else f

namespace RecordShape

/-- The record from the members of an object. -/
def ofFields {α : Type} (r : RecordShape α) (s : Scope)
    (fields : List (String × Option Fault × Doc)) (stop : Option Fault) : Except Misfit α := do
  let (seen, acc) ← takeFields r.set s [] r.start fields
  match stop with
  | some f => .error (.fault f)
  | none =>
    match r.required.find? fun n => !seen.contains n with
    | some n => .error (.missingField n)
    | none => .ok acc

/-- The record from its fields in order. -/
def ofItems {α : Type} (r : RecordShape α) (s : Scope) (items : List Doc)
    (stop : Option Fault) : Except Misfit α := do
  let pairs := (r.names.zip items).map fun p => (p.1, (none : Option Fault), p.2)
  let (_, acc) ← takeFields r.set s [] r.start pairs
  let needed := fun n => r.required.contains n || r.nullable.contains n
  if r.names.length < items.length then .error (tooMany s.origin r.names items)
  else
    match stop, (r.names.drop items.length).find? needed with
    | some f, _ => .error (.fault (endFault (items.length == r.names.length) f))
    | none, some n =>
      .error (.wrongLength (r.names.idxOf n) (elementsText r.title r.names.length))
    | none, none => .ok acc

/-- Reads a record. -/
def decode {α : Type} (r : RecordShape α) : Decoder α := fun s d =>
  match d with
  | .obj fields stop => do guardDepth s; r.ofFields s.inner fields stop
  | .arr items stop => do guardDepth s; r.ofItems s.inner items stop
  | d => wrongKind r.title d

end RecordShape

/-- Sets a field of a record to a decoded value. -/
def field {α β : Type} (item : Decoder β) (put : α → β → α) : Option (α → Decoder α) :=
  some fun acc s d => (item s d).map (put acc)

/-! ## Variants -/

/-- One of several names. -/
def nameOf {α : Type} (choices : List (String × α)) (name : String) : Except Misfit α :=
  match choices.lookup name with
  | some a => .ok a
  | none => .error (.unknownVariant name (choices.map Prod.fst))

/-- The name of a variant as a string of its own. -/
def variantName {α : Type} (choices : List (String × α)) : Decoder α := fun _ d =>
  match d with
  | .str s none => nameOf choices s
  | d => wrongKind "variant identifier" d

/-- What a text may say where a variant is expected and none begins. -/
def noVariantHere {α : Type} (s : Scope) (d : Doc) : Except Misfit α :=
  match s.origin, d with
  | _, .broken f => .error (.fault f)
  | .text, _ => .error (.fault .expectedValue)
  | _, d => wrongKind "string or map" d

/-- The single member of an object that names a variant, with its content. -/
def singleMember (s : Scope) (fields : List (String × Option Fault × Doc)) (stop : Option Fault) :
    Except Misfit (String × Doc × Option Misfit) :=
  match s.origin, fields with
  | .text, [] => .error (.fault (match stop with
      | some .endOfObject => .endOfValue
      | some .keyMustBeString => .expectedValue
      | some f => f
      | none => .expectedValue))
  | .text, (_, some f, _) :: _ => .error (.fault f)
  | .text, (k, none, d) :: rest =>
    let after := match rest, stop with
      | [], none => none
      | [], some .endOfObject => some (.fault .endOfObject)
      | _, _ => some (.fault .expectedValue)
    .ok (k, d, after)
  | _, [(k, _, d)] => .ok (k, d, none)
  | _, _ => .error (.wrongValue "map" "map with a single key")

/-- A variant without content: its name, or an object with the name and null. -/
def plainVariant {α : Type} (choices : List (String × α)) : Decoder α := fun s d =>
  match d with
  | .str name none => nameOf choices name
  | .str _ (some f) => .error (.fault f)
  | .obj fields stop => do
    guardDepth s
    let (name, content, after) ← singleMember s fields stop
    let a ← nameOf choices name
    match content with
    | .null =>
      match after with
      | some e => .error e
      | none => .ok a
    | d => wrongKind "unit" d
  | d => noVariantHere s d

/-- A variant with content: an object with its name and the content. The name alone is refused. -/
def contentVariant {α : Type} (choices : List (String × Decoder α)) (bare : String → Misfit) :
    Decoder α := fun s d =>
  match d with
  | .str name none => do
    let _ ← nameOf choices name
    .error (bare name)
  | .str _ (some f) => .error (.fault f)
  | .obj fields stop => do
    guardDepth s
    let (name, content, after) ← singleMember s fields stop
    let item ← nameOf choices name
    let a ← item s.inner content
    match after with
    | some e => .error e
    | none => .ok a
  | d => noVariantHere s d

/-- The content of a variant that is a record. A value at hand has to be an object. -/
def recordVariant {α : Type} (r : RecordShape α) : Decoder α := fun s d =>
  match s.origin, d with
  | .text, d => r.decode s d
  | _, .obj fields stop => r.decode s (.obj fields stop)
  | _, d => wrongKind "struct variant" d

/-- The members of an object that carries the name of its variant in the member `tag`: the
variant, and the other members set aside. -/
def takeTag {α : Type} (tag : String) (choices : List (String × α)) (s : Scope) :
    List (String × Option Fault × Doc) →
      Except Misfit (Option α × List (String × Option Fault × Doc))
  | [] => .ok (none, [])
  | (_, some f, _) :: _ => .error (.fault f)
  | (k, none, d) :: rest =>
    if k = tag then
      match variantName choices s d with
      | .error e => .error e
      | .ok a =>
        match takeTag tag choices s rest with
        | .error e => .error e
        | .ok (some _, _) => .error (.duplicateField tag)
        | .ok (none, others) => .ok (some a, others)
    else
      match d.toValue s.depth with
      | .error f => .error (.fault f)
      | .ok _ =>
        match takeTag tag choices s rest with
        | .error e => .error e
        | .ok (a, others) => .ok (a, (k, none, d) :: others)

/-- A record that names its variant in the member `tag`. An array gives the variant first and the
fields after it. -/
def taggedVariant {α : Type} (title tag : String) (choices : List (String × RecordShape α)) :
    Decoder α := fun s d =>
  match d with
  | .obj fields stop => do
    guardDepth s
    let (shape, others) ← takeTag tag choices s.inner fields
    match stop, shape with
    | some f, _ => .error (.fault f)
    | none, none => .error (.missingField tag)
    | none, some r => r.ofFields ⟨.aside, s.depth - 1⟩ others none
  | .arr items stop => do
    guardDepth s
    match items with
    | [] =>
      match stop with
      | some f => .error (.fault f)
      | none => .error (.missingField tag)
    | first :: rest =>
      let r ← variantName choices s.inner first
      let _ ← ofFault (itemValues (s.depth - 1) rest)
      match stop with
      | some f => .error (.fault f)
      | none => r.ofItems ⟨.aside, s.depth - 1⟩ rest none
  | d => wrongKind title d

/-- Members of an object taken into a record, those that are no field of it set aside. -/
def takeSome {α : Type} (set : String → Option (α → Decoder α)) (s : Scope) :
    List String → α → List (String × Option Fault × Doc) → List (String × Option Fault × Doc) →
      Except Misfit (List String × α × List (String × Option Fault × Doc))
  | seen, acc, aside, [] => .ok (seen, acc, aside.reverse)
  | _, _, _, (_, some f, _) :: _ => .error (.fault f)
  | seen, acc, aside, (k, none, d) :: rest =>
    match set k with
    | none =>
      match d.toValue s.depth with
      | .error f => .error (.fault f)
      | .ok _ => takeSome set s seen acc ((k, none, d) :: aside) rest
    | some step =>
      if seen.contains k then .error (.duplicateField k)
      else
        match step acc s d with
        | .error e => .error e
        | .ok acc => takeSome set s (k :: seen) acc aside rest

/-- A record among whose members stand those of a variant: its name in the member `tag`, and its
fields. It is always an object. -/
def spreadVariant {α β : Type} (r : RecordShape α) (tag : String)
    (choices : List (String × RecordShape β)) (put : α → β → α) : Decoder α := fun s d =>
  match d with
  | .obj fields stop => do
    guardDepth s
    let (seen, acc, others) ← takeSome r.set s.inner [] r.start [] fields
    match stop with
    | some f => .error (.fault f)
    | none =>
      match r.required.find? fun n => !seen.contains n with
      | some n => .error (.missingField n)
      | none =>
        let scope : Scope := ⟨.aside, s.depth - 1⟩
        let (variant, members) ← takeTag tag choices scope others
        match variant with
        | none => .error (.missingField tag)
        | some shape => (shape.ofFields scope members none).map (put acc)
  | d => wrongKind r.title d

/-! ## Whole texts and values -/

/-- Decodes a whole text. -/
def decodeText {α : Type} (item : Decoder α) (source : String) : Except Misfit α :=
  match Doc.read source with
  | (d, trailing) =>
    match item .ofText d, trailing with
    | .error e, _ => .error e
    | .ok _, some f => .error (.fault f)
    | .ok a, none => .ok a

/-- Decodes a value at hand. -/
def decodeValue {α : Type} (item : Decoder α) (v : Value) : Except Misfit α :=
  item (.ofTree v) (Doc.ofValue v.canonical)

end Enclave.Json
