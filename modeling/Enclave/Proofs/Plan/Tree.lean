import Enclave.Proofs.Plan.Document

/-!
# Plans as values

A plan is also handed over as a JSON value, without a text in between. The members of an object
stand in the order of their names there, so that the kind of a selection comes last and the operator
of a condition behind its parts, and there is no bound on how deep conditions are nested. The value
of a plan decodes to the plan all the same (`Plan.decodeValue_tree`). No number is written and read
on the way, so that it is enough that integers fit into words and doubles are finite.
-/

namespace Enclave

open Json (Decoder Value Doc Scope docFields takeFields)

/-! ## Selections and sort keys -/

namespace Selection

theorem canonical_column (name : String) (label : Option String) :
    (Selection.column name label).toJson.canonical
      = .obj (optionalMember "alias" (label.map .str) ++ [("column", .str name)] ++
          [("kind", .str "column")]) := by
  rw [toJson, Value.canonical, Value.canonicalFields_eq_ofList]
  cases label <;>
    simp only [optionalMember, Option.map_some, Option.map_none, List.cons_append, List.nil_append,
      List.append_nil, List.map_cons, List.map_nil, Value.canonical, Json.Fields.ofList,
      Json.Fields.insert, List.foldl_cons, List.foldl_nil, String.reduceEq, String.reduceLT,
      ↓reduceIte]

theorem canonical_aggregate (how : Aggregate) (target label : Option String) :
    (Selection.aggregate how target label).toJson.canonical
      = .obj (optionalMember "alias" (label.map .str) ++
          (optionalMember "column" (target.map .str) ++ [("func", .str how.wire)]) ++
          [("kind", .str "aggregate")]) := by
  rw [toJson, Value.canonical, Value.canonicalFields_eq_ofList]
  cases target <;> cases label <;>
    simp only [optionalMember, Option.map_some, Option.map_none, List.cons_append, List.nil_append,
      List.append_nil, List.map_cons, List.map_nil, Value.canonical, Json.Fields.ofList,
      Json.Fields.insert, List.foldl_cons, List.foldl_nil, String.reduceEq, String.reduceLT,
      ↓reduceIte]

theorem decoder_canonical {s : Scope} (hs : 0 < s.depth) (x : Selection) :
    decoder s (Doc.ofValue x.toJson.canonical) = .ok x := by
  cases x with
  | column name label =>
    rw [canonical_column]
    refine Json.taggedVariant_among _ ("column" :: met label.isSome "alias" []) (r := columnShape)
      rfl ?_ (by simp) ?_ ?_ (by simp [columnShape])
    · cases label <;> simp [optionalMember]
    · cases label <;> exact hs
    · rw [List.append_nil, Json.docFields_append,
        takeFields_optionalMember rfl rfl rfl (text_of_optional _), docFields,
        Json.takeFields_cons rfl (by simp) (Json.text_ofValue _ name)]
      rfl
  | aggregate how target label =>
    rw [canonical_aggregate]
    refine Json.taggedVariant_among _ ("func" :: met target.isSome "column"
      (met label.isSome "alias" [])) (r := aggregateShape) rfl ?_ (by simp) ?_ ?_
      (by simp [aggregateShape])
    · cases target <;> cases label <;> simp [optionalMember]
    · cases target <;> cases label <;> exact hs
    · rw [List.append_nil, Json.docFields_append, Json.docFields_append,
        takeFields_optionalMember rfl rfl rfl (text_of_optional _),
        takeFields_optionalMember rfl (by simp) rfl (text_of_optional _), docFields,
        Json.takeFields_cons rfl (by simp) (Aggregate.decoder_ofValue _ how)]
      rfl

end Selection

/-- The members of a sort key are written in order. -/
theorem SortKey.canonical_toJson (k : SortKey) : k.toJson.canonical = k.toJson := by
  rw [toJson, Value.canonical, Value.canonicalFields_eq_ofList]
  simp only [List.map_cons, List.map_nil, Value.canonical, Json.Fields.ofList, Json.Fields.insert,
    List.foldl_cons, List.foldl_nil, String.reduceEq, String.reduceLT, ↓reduceIte]

/-! ## Conditions -/

namespace Condition

/-- What holds of the conditions inside a condition and of those without any holds of all. -/
@[elab_as_elim]
theorem induction {motive : Condition → Prop}
    (compare : ∀ column how value, motive (.compare column how value))
    (isNull : ∀ column, motive (.isNull column)) (isNotNull : ∀ column, motive (.isNotNull column))
    (all : ∀ parts, (∀ p ∈ parts, motive p) → motive (.all parts))
    (any : ∀ parts, (∀ p ∈ parts, motive p) → motive (.any parts))
    (not : ∀ inner, motive inner → motive (.not inner)) (c : Condition) : motive c := by
  cases c with
  | compare column how value => exact compare column how value
  | isNull column => exact isNull column
  | isNotNull column => exact isNotNull column
  | all parts =>
    exact all parts fun p _ => p.induction compare isNull isNotNull all any not
  | any parts =>
    exact any parts fun p _ => p.induction compare isNull isNotNull all any not
  | not inner => exact not inner (inner.induction compare isNull isNotNull all any not)
termination_by sizeOf c
decreasing_by
  · have hsize := List.sizeOf_lt_of_mem ‹p ∈ parts›
    simp only [Condition.all.sizeOf_spec]
    omega
  · have hsize := List.sizeOf_lt_of_mem ‹p ∈ parts›
    simp only [Condition.any.sizeOf_spec]
    omega
  · simp only [Condition.not.sizeOf_spec]
    omega

/-! ### Conditions in order -/

theorem canonical_compare (column : String) (how : Comparison) (value : Literal) :
    (Condition.compare column how value).toJson.canonical
      = .obj ([("cmp", .str how.wire), ("column", .str column)] ++ ("op", .str "compare") ::
          [("value", value.toJson)]) := by
  have hvalue := Value.canonical_of_nesting value.nesting_toJson
  rw [toJson, Value.canonical, Value.canonicalFields_eq_ofList]
  simp only [List.map_cons, List.map_nil, hvalue]
  simp only [Value.canonical, Json.Fields.ofList, Json.Fields.insert, List.foldl_cons,
    List.foldl_nil, String.reduceEq, String.reduceLT, ↓reduceIte, List.cons_append, List.nil_append]

theorem canonical_isNull (column : String) : (Condition.isNull column).toJson.canonical
    = .obj [("column", .str column), ("op", .str "is_null")] :=
  Value.canonical_pair (by decide)

theorem canonical_isNotNull (column : String) : (Condition.isNotNull column).toJson.canonical
    = .obj [("column", .str column), ("op", .str "is_not_null")] :=
  Value.canonical_pair (by decide)

theorem canonical_parts (parts : List Condition) : (Value.arr (partsToJson parts)).canonical
    = .arr (parts.map fun p => p.toJson.canonical) := by
  rw [partsToJson_eq, Value.canonical_arr_map]

theorem canonical_all (parts : List Condition) : (Condition.all parts).toJson.canonical
    = .obj [("all", .arr (parts.map fun p => p.toJson.canonical)), ("op", .str "and")] := by
  rw [toJson, Value.canonical_pair (by decide), canonical_parts, Value.canonical]

theorem canonical_any (parts : List Condition) : (Condition.any parts).toJson.canonical
    = .obj [("any", .arr (parts.map fun p => p.toJson.canonical)), ("op", .str "or")] := by
  rw [toJson, Value.canonical_pair (by decide), canonical_parts, Value.canonical]

theorem canonical_not (inner : Condition) : (Condition.not inner).toJson.canonical
    = .obj [("inner", inner.toJson.canonical), ("op", .str "not")] :=
  Value.canonical_pair (by decide)

/-! ### Conditions decode -/

/-- The value of a condition is an object, so that one step at least is made. -/
theorem fuel_of_canonical {c : Condition} {fuel : Nat} (h : c.toJson.canonical.nesting ≤ fuel) :
    ∃ rest, fuel = rest + 1 := by
  have hpos : 0 < c.toJson.canonical.nesting := by
    cases c <;> simp only [toJson, Value.canonical, Value.nesting] <;> omega
  exact Nat.exists_eq_add_one_of_ne_zero (by omega)

/-- Parts in a list decode if each of them does, one level further in. -/
theorem list_canonical {parts : List Condition} {fuel : Nat} {s : Scope}
    (hguard : Json.guardDepth s = .ok ())
    (hparts : ∀ p ∈ parts, p.toJson.canonical.nesting ≤ fuel →
      p.toJson.canonical.nesting ≤ s.depth - 1 →
      decode fuel s.inner (Doc.ofValue p.toJson.canonical) = .ok p)
    (hfuel : Value.itemNesting (parts.map fun p => p.toJson.canonical) ≤ fuel)
    (hs : Value.itemNesting (parts.map fun p => p.toJson.canonical) ≤ s.depth - 1) :
    Json.list (decode fuel) s (Doc.ofValue (.arr (parts.map fun p => p.toJson.canonical)))
      = .ok parts := by
  rw [Value.itemNesting_le_iff, List.forall_mem_map] at hfuel hs
  exact Json.list_ofValues hguard fun p hp => hparts p hp (hfuel p hp) (hs p hp)

/-- **A condition decodes from its value, however deep it is nested**, by as many steps as there are
levels in it. -/
theorem decode_canonical (c : Condition) (hc : ∀ l ∈ c.literals, l.InWord ∧ l.IsFinite) :
    ∀ (fuel : Nat) (s : Scope), c.toJson.canonical.nesting ≤ fuel →
      c.toJson.canonical.nesting ≤ s.depth →
      decode fuel s (Doc.ofValue c.toJson.canonical) = .ok c := by
  induction c using Condition.induction with
  | compare column how value =>
    intro fuel s hfuel hs
    obtain ⟨fuel, rfl⟩ := fuel_of_canonical hfuel
    obtain ⟨hword, hfinite⟩ := hc value (by simp [literals])
    rw [canonical_compare] at hs ⊢
    refine Json.taggedVariant_among _ ["value", "column", "cmp"] rfl (by simp) (by simp) ?_ ?_
      (by simp)
    · simp only [Value.nesting, Value.fieldNesting, List.cons_append, List.nil_append] at hs ⊢
      omega
    · simp only [List.cons_append, List.nil_append, docFields]
      rw [Json.takeFields_cons rfl rfl (Comparison.decoder_ofValue _ how),
        Json.takeFields_cons rfl rfl (Json.text_ofValue _ column),
        Json.takeFields_cons rfl rfl (Literal.decoder_ofValue hword hfinite _)]
      rfl
  | isNull column =>
    intro fuel s hfuel hs
    obtain ⟨fuel, rfl⟩ := fuel_of_canonical hfuel
    rw [canonical_isNull] at hs ⊢
    exact Json.taggedVariant_single_last rfl rfl rfl (by simp) hs (Json.text_ofValue _ column)
  | isNotNull column =>
    intro fuel s hfuel hs
    obtain ⟨fuel, rfl⟩ := fuel_of_canonical hfuel
    rw [canonical_isNotNull] at hs ⊢
    exact Json.taggedVariant_single_last rfl rfl rfl (by simp) hs (Json.text_ofValue _ column)
  | all parts ih =>
    intro fuel s hfuel hs
    obtain ⟨fuel, rfl⟩ := fuel_of_canonical hfuel
    rw [canonical_all] at hfuel hs ⊢
    simp only [Value.nesting, Value.fieldNesting] at hfuel hs
    exact Json.taggedVariant_single_last rfl rfl rfl (by simp) (by rw [Value.nesting]; omega)
      (list_canonical rfl (fun p hp => ih p hp
        (fun l hl => hc l (mem_literalsOf.mpr ⟨p, hp, hl⟩)) fuel ⟨.aside, s.depth - 1 - 1⟩)
        (by omega) (by simp only; omega))
  | any parts ih =>
    intro fuel s hfuel hs
    obtain ⟨fuel, rfl⟩ := fuel_of_canonical hfuel
    rw [canonical_any] at hfuel hs ⊢
    simp only [Value.nesting, Value.fieldNesting] at hfuel hs
    exact Json.taggedVariant_single_last rfl rfl rfl (by simp) (by rw [Value.nesting]; omega)
      (list_canonical rfl (fun p hp => ih p hp
        (fun l hl => hc l (mem_literalsOf.mpr ⟨p, hp, hl⟩)) fuel ⟨.aside, s.depth - 1 - 1⟩)
        (by omega) (by simp only; omega))
  | not inner ih =>
    intro fuel s hfuel hs
    obtain ⟨fuel, rfl⟩ := fuel_of_canonical hfuel
    rw [canonical_not] at hfuel hs ⊢
    simp only [Value.nesting, Value.fieldNesting] at hfuel hs
    exact Json.taggedVariant_single_last rfl rfl rfl (by simp) (by omega)
      (ih hc fuel _ (by omega) (by simp only; omega))

theorem decoder_canonical {c : Condition} {s : Scope} (hs : c.toJson.canonical.nesting ≤ s.depth)
    (hc : ∀ l ∈ c.literals, l.InWord ∧ l.IsFinite) :
    decoder s (Doc.ofValue c.toJson.canonical) = .ok c :=
  decode_canonical c hc _ s (Nat.le_succ_of_le hs) hs

end Condition

/-! ## Plans -/

theorem listMember_cases (k : String) (vs : List Value) :
    listMember k vs = [] ∨ listMember k vs = [(k, .arr vs)] := by
  unfold listMember
  split
  · exact .inl rfl
  · exact .inr rfl

namespace Plan

/-- The members of a plan in the order of their names. -/
theorem canonical_toJson (p : Plan) : p.toJson.canonical
    = .obj (optionalMember "filter" (p.filter.map fun c => c.toJson.canonical) ++
        (listMember "group_by" (p.groupBy.map .str) ++
        (optionalMember "limit" (p.limit.map .nat) ++
        (listMember "order_by" (p.orderBy.map SortKey.toJson) ++
        [("select", .arr (p.select.map fun x => x.toJson.canonical)),
          ("table", .str p.table)])))) := by
  obtain ⟨table, select, filter, groupBy, orderBy, limit⟩ := p
  have hselect := Value.canonical_arr_map Selection.toJson select
  have hgroupBy : (Value.arr (groupBy.map .str)).canonical = .arr (groupBy.map .str) :=
    Value.canonical_arr_map Value.str groupBy
  have horderBy : (Value.arr (orderBy.map SortKey.toJson)).canonical
      = .arr (orderBy.map SortKey.toJson) := by
    simp only [Value.canonical_arr_map, SortKey.canonical_toJson]
  rw [toJson, Value.canonical, Value.canonicalFields_eq_ofList]
  -- One case for each choice of the members that are left out.
  rcases listMember_cases "group_by" (groupBy.map .str) with hgroup | hgroup <;>
    rcases listMember_cases "order_by" (orderBy.map SortKey.toJson) with horder | horder <;>
    cases filter <;> cases limit <;>
    simp only [hgroup, horder, optionalMember, Option.map_some, Option.map_none, List.cons_append,
      List.nil_append, List.append_nil, List.map_cons, List.map_nil, hselect, hgroupBy, horderBy,
      Value.nat] <;>
    simp only [Value.canonical, Json.Fields.ofList, Json.Fields.insert, List.foldl_cons,
      List.foldl_nil, String.reduceEq, String.reduceLT, ↓reduceIte]

/-- The condition of a plan lies a level further in than the plan. -/
theorem nesting_filter_lt {p : Plan} {c : Condition} (hc : p.filter = some c) :
    c.toJson.canonical.nesting < p.toJson.nesting := by
  have hmember : c.toJson.nesting < p.toJson.nesting :=
    Value.nesting_lt_obj (k := "filter") (by simp [hc, optionalMember])
  exact (Json.nesting_canonical_le c.toJson).trans_lt hmember

/-- What a plan selects lies two levels further in than the plan, and is an object. -/
theorem nesting_of_select {p : Plan} {x : Selection} (hx : x ∈ p.select) :
    2 < p.toJson.nesting := by
  have hobject : 0 < x.toJson.nesting := by
    cases x <;> simp only [Selection.toJson, Value.nesting] <;> omega
  have hitem : x.toJson.nesting < (Value.arr (p.select.map Selection.toJson)).nesting :=
    Value.nesting_lt_arr (List.mem_map_of_mem hx)
  have hmember : (Value.arr (p.select.map Selection.toJson)).nesting < p.toJson.nesting :=
    Value.nesting_lt_obj (k := "select") (by simp)
  omega

/-- **The value of a plan decodes to the plan**, whatever is left out of it and however deep its
condition is nested. -/
theorem decodeValue_tree {p : Plan} (hwords : ∀ l ∈ p.literals, l.InWord)
    (hfinite : ∀ l ∈ p.literals, l.IsFinite) (hlimit : ∀ n ∈ p.limit, n < 2 ^ 64) :
    Json.decodeValue decoder p.toJson = .ok p := by
  -- A value at hand is as deep as it is, so that no part of it is out of reach.
  set s := (Scope.ofTree p.toJson).inner with hs
  have hfilter : ∀ c ∈ p.filter, Condition.decoder s (Doc.ofValue c.toJson.canonical) = .ok c ∧
      c.toJson.canonical ≠ .null := by
    intro c hc
    have hliterals : p.literals = c.literals := by simp [literals, Option.mem_def.mp hc]
    have hfits : ∀ l ∈ c.literals, l.InWord ∧ l.IsFinite := fun l hl => by
      rw [← hliterals] at hl
      exact ⟨hwords l hl, hfinite l hl⟩
    exact ⟨Condition.decoder_canonical (Nat.le_sub_one_of_lt (nesting_filter_lt hc)) hfits,
      by cases c <;> simp [Condition.toJson, Value.canonical]⟩
  have hselect : ∀ x ∈ p.select, Selection.decoder s.inner (Doc.ofValue x.toJson.canonical)
      = .ok x := by
    intro x hx
    have hlevels := nesting_of_select hx
    refine Selection.decoder_canonical ?_ x
    simp only [hs, Scope.inner, Scope.ofTree]
    omega
  have hbound : ∀ n ∈ p.limit, Json.word64 s (Doc.ofValue (.nat n)) = .ok n ∧
      Value.nat n ≠ .null := fun n hn =>
    ⟨Json.word_ofValue 64 "u64" _ (hlimit n hn), by simp [Value.nat]⟩
  rw [Json.decodeValue, canonical_toJson]
  refine Json.RecordShape.decode_fields ("table" :: "select" ::
    met (!p.orderBy.isEmpty) "order_by" (met p.limit.isSome "limit"
      (met (!p.groupBy.isEmpty) "group_by" (met p.filter.isSome "filter" []))))
    rfl ?_ (by simp)
  rw [Json.docFields_append, Json.docFields_append, Json.docFields_append, Json.docFields_append,
    takeFields_optionalMember rfl rfl rfl hfilter,
    takeFields_listMember rfl (by simp) rfl rfl fun t _ => Json.text_ofValue _ t,
    takeFields_optionalMember rfl (by simp) rfl hbound,
    takeFields_listMember rfl (by simp) rfl rfl fun k _ => SortKey.decoder_ofValue rfl k,
    docFields, Json.takeFields_cons rfl (by simp) (Json.list_ofValues rfl hselect),
    docFields, Json.takeFields_cons rfl (by simp) (Json.text_ofValue _ p.table)]
  rfl

/-- Literals of every kind, texts that look like them, every comparison and operator, selections
with and without labels and columns, and lists of keys that are left out. -/
theorem decodeValue_tree_nested :
    let filter := Condition.all [
      .not (.any [.compare "a" .eq .null, .compare "a" .ne (.bool false), .all []]),
      .compare "b" .lt (.int (-(2 ^ 63))), .compare "b" .ge (.float 3.0),
      .compare "c" .gt (.float (-0.0)), .compare "d" .le (.text "-1"),
      .any [.compare "d" .eq (.text "null"), .isNull "e", .not (.isNotNull "f")]]
    let p : Plan := ⟨"t", [.column "a" (some "b"), .column "c" none, .aggregate .count none none,
      .aggregate .sum (some "d") (some "e")], some filter, [], [], some (2 ^ 64 - 1)⟩
    Json.decodeValue decoder p.toJson = .ok p := by
  refine decodeValue_tree ?_ ?_ ?_
  · simp [literals, Condition.literals, Condition.literalsOf, Literal.InWord]
  · have hzero : Decimal.isFinite (-0.0) = true := by decide +kernel
    have hthree : Decimal.isFinite 3.0 = true := by decide +kernel
    simp [literals, Condition.literals, Condition.literalsOf, Literal.IsFinite, hzero, hthree]
  · simp

end Plan

end Enclave
