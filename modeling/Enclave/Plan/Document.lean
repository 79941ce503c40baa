import Enclave.Plan.Basic

/-!
# Plans as documents

The JSON form of a plan. Selections carry their kind in the member `kind`, conditions theirs in
`op`, and a literal is told apart by its JSON type alone. What is empty or absent is left out when
a plan is written, and may be left out when it is read.
-/

namespace Enclave

open Json (Decoder RecordShape Value Doc Misfit Scope field)

/-! ## Writing -/

/-- A member that is left out when there is nothing to say. -/
def optionalMember (name : String) (v : Option Value) : List (String × Value) :=
  match v with
  | some v => [(name, v)]
  | none => []

namespace Literal

def toJson : Literal → Value
  | .null => .null
  | .bool b => .bool b
  | .int n => .int n
  | .float f => if Decimal.isFinite f then .float f else .null
  | .text s => .str s

end Literal

namespace Condition

mutual

def toJson : Condition → Value
  | .compare column how value =>
    .obj [("op", .str "compare"), ("column", .str column), ("cmp", .str how.wire),
      ("value", value.toJson)]
  | .isNull column => .obj [("op", .str "is_null"), ("column", .str column)]
  | .isNotNull column => .obj [("op", .str "is_not_null"), ("column", .str column)]
  | .all parts => .obj [("op", .str "and"), ("all", .arr (partsToJson parts))]
  | .any parts => .obj [("op", .str "or"), ("any", .arr (partsToJson parts))]
  | .not inner => .obj [("op", .str "not"), ("inner", inner.toJson)]

def partsToJson : List Condition → List Value
  | [] => []
  | p :: ps => p.toJson :: partsToJson ps

end

end Condition

def Selection.toJson : Selection → Value
  | .column name label =>
    .obj ([("kind", .str "column"), ("column", .str name)] ++
      optionalMember "alias" (label.map .str))
  | .aggregate how target label =>
    .obj ([("kind", .str "aggregate"), ("func", .str how.wire)] ++
      optionalMember "column" (target.map .str) ++ optionalMember "alias" (label.map .str))

def SortKey.toJson (k : SortKey) : Value :=
  .obj [("column", .str k.column), ("descending", .bool k.descending)]

/-- A list member that is left out when the list is empty. -/
def listMember (name : String) (vs : List Value) : List (String × Value) :=
  if vs.isEmpty then [] else [(name, .arr vs)]

def Plan.toJson (p : Plan) : Value :=
  .obj ([("table", .str p.table), ("select", .arr (p.select.map Selection.toJson))] ++
    optionalMember "filter" (p.filter.map Condition.toJson) ++
    listMember "group_by" (p.groupBy.map .str) ++
    listMember "order_by" (p.orderBy.map SortKey.toJson) ++
    optionalMember "limit" (p.limit.map .nat))

/-! ## Reading -/

def Aggregate.decoder : Decoder Aggregate :=
  Json.plainVariant ([.count, .sum, .avg, .min, .max].map fun a => (wire a, a))

def Comparison.decoder : Decoder Comparison :=
  Json.plainVariant ([.eq, .ne, .lt, .le, .gt, .ge].map fun c => (wire c, c))

/-- A literal by its JSON type; an integer beyond a signed word is read as a float. -/
def Literal.decoder : Decoder Literal := fun s d =>
  match d with
  | .null => .ok .null
  | .bool b => .ok (.bool b)
  | .num (.int n) =>
    if -(2 ^ 63) ≤ n ∧ n < 2 ^ 63 then .ok (.int n) else (Json.double s (.num (.int n))).map .float
  | .num (.float f) => .ok (.float f)
  | .str t none => .ok (.text t)
  | d =>
    match d.toValue s.depth with
    | .error f => .error (.fault f)
    | .ok _ => .error (.noVariant "Literal")

def Selection.columnShape : RecordShape Selection :=
  { title := "struct variant SelectItem::Column"
    names := ["column", "alias"]
    required := ["column"]
    nullable := []
    start := .column "" none
    set := fun
      | "column" => field Json.text fun s v => .column v s.label?
      | "alias" => field (Json.optional Json.text) fun s v =>
        match s with
        | .column c _ => .column c v
        | s => s
      | _ => none }

def Selection.aggregateShape : RecordShape Selection :=
  { title := "struct variant SelectItem::Aggregate"
    names := ["func", "column", "alias"]
    required := ["func"]
    nullable := []
    start := .aggregate .count none none
    set := fun
      | "func" => field Aggregate.decoder fun s v =>
        match s with
        | .aggregate _ c a => .aggregate v c a
        | s => s
      | "column" => field (Json.optional Json.text) fun s v =>
        match s with
        | .aggregate f _ a => .aggregate f v a
        | s => s
      | "alias" => field (Json.optional Json.text) fun s v =>
        match s with
        | .aggregate f c _ => .aggregate f c v
        | s => s
      | _ => none }

def Selection.decoder : Decoder Selection :=
  Json.taggedVariant "internally tagged enum SelectItem" "kind"
    [("column", columnShape), ("aggregate", aggregateShape)]

namespace Condition

/-- The variants of a condition over a decoder of the conditions inside it. -/
def shapes (inner : Decoder Condition) : List (String × RecordShape Condition) :=
  [("compare",
    { title := "struct variant Predicate::Compare"
      names := ["column", "cmp", "value"]
      required := ["column", "cmp", "value"]
      nullable := []
      start := .compare "" .eq .null
      set := fun
        | "column" => field Json.text fun c v =>
          match c with
          | .compare _ how x => .compare v how x
          | c => c
        | "cmp" => field Comparison.decoder fun c v =>
          match c with
          | .compare n _ x => .compare n v x
          | c => c
        | "value" => field Literal.decoder fun c v =>
          match c with
          | .compare n how _ => .compare n how v
          | c => c
        | _ => none }),
   ("is_null",
    { title := "struct variant Predicate::IsNull"
      names := ["column"]
      required := ["column"]
      nullable := []
      start := .isNull ""
      set := fun
        | "column" => field Json.text fun _ v => .isNull v
        | _ => none }),
   ("is_not_null",
    { title := "struct variant Predicate::IsNotNull"
      names := ["column"]
      required := ["column"]
      nullable := []
      start := .isNotNull ""
      set := fun
        | "column" => field Json.text fun _ v => .isNotNull v
        | _ => none }),
   ("and",
    { title := "struct variant Predicate::And"
      names := ["all"]
      required := ["all"]
      nullable := []
      start := .all []
      set := fun
        | "all" => field (Json.list inner) fun _ v => .all v
        | _ => none }),
   ("or",
    { title := "struct variant Predicate::Or"
      names := ["any"]
      required := ["any"]
      nullable := []
      start := .any []
      set := fun
        | "any" => field (Json.list inner) fun _ v => .any v
        | _ => none }),
   ("not",
    { title := "struct variant Predicate::Not"
      names := ["inner"]
      required := ["inner"]
      nullable := []
      start := .not (.all [])
      set := fun
        | "inner" => field inner fun _ v => .not v
        | _ => none })]

/-- A condition whose nesting is bounded by the first argument. -/
def decode : Nat → Decoder Condition
  | 0 => fun _ _ => .error (.fault .recursionLimit)
  | fuel + 1 =>
    Json.taggedVariant "internally tagged enum Predicate" "op" (shapes (decode fuel))

end Condition

/-- Conditions nest at most as deep as what they are read from: a condition inside another one lies
a level further down. -/
def Condition.decoder : Decoder Condition := fun s => Condition.decode (s.depth + 1) s

def SortKey.decoder : Decoder SortKey := RecordShape.decode
  { title := "struct OrderBy"
    names := ["column", "descending"]
    required := ["column"]
    nullable := []
    start := ⟨"", false⟩
    set := fun
      | "column" => field Json.text fun k v => { k with column := v }
      | "descending" => field Json.flag fun k v => { k with descending := v }
      | _ => none }

def Plan.decoder : Decoder Plan := RecordShape.decode
  { title := "struct QueryPlan"
    names := ["table", "select", "filter", "group_by", "order_by", "limit"]
    required := ["table", "select"]
    nullable := []
    start := ⟨"", [], none, [], [], none⟩
    set := fun
      | "table" => field Json.text fun p v => { p with table := v }
      | "select" => field (Json.list Selection.decoder) fun p v => { p with select := v }
      | "filter" => field (Json.optional Condition.decoder) fun p v => { p with filter := v }
      | "group_by" => field (Json.list Json.text) fun p v => { p with groupBy := v }
      | "order_by" => field (Json.list SortKey.decoder) fun p v => { p with orderBy := v }
      | "limit" => field (Json.optional Json.word64) fun p v => { p with limit := v }
      | _ => none }

end Enclave
