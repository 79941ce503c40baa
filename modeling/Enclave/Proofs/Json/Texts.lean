import Enclave.Proofs.Json.Decode

/-!
# Texts in values

The strings of a value and the names of its members are the texts in it (`Value.Mentions`), and
those of a tree likewise (`Doc.Mentions`). A value has no other texts than the tree that it was made
of (`mentions_of_toValue`). Brought into order, it still has all of them unless a name occurs twice
in one object (`Value.Mentions.canonical`).
-/

namespace Enclave.Json

/-- A text that occurs in a value, as a string or as a name. -/
inductive Value.Mentions (t : String) : Value → Prop where
  | str : Mentions t (.str t)
  | item {v : Value} {vs : List Value} (hv : v ∈ vs) (h : Mentions t v) : Mentions t (.arr vs)
  | name {v : Value} {kvs : List (String × Value)} (h : (t, v) ∈ kvs) : Mentions t (.obj kvs)
  | member {kv : String × Value} {kvs : List (String × Value)} (hkv : kv ∈ kvs)
      (h : Mentions t kv.2) : Mentions t (.obj kvs)

/-- A text that occurs in a tree, as a string or as a name. -/
inductive Doc.Mentions (t : String) : Doc → Prop where
  | str {flaw : Option Fault} : Mentions t (.str t flaw)
  | item {d : Doc} {ds : List Doc} {stop : Option Fault} (hd : d ∈ ds) (h : Mentions t d) :
      Mentions t (.arr ds stop)
  | name {flaw : Option Fault} {d : Doc} {fields : List (String × Option Fault × Doc)}
      {stop : Option Fault} (h : (t, flaw, d) ∈ fields) : Mentions t (.obj fields stop)
  | member {x : String × Option Fault × Doc} {fields : List (String × Option Fault × Doc)}
      {stop : Option Fault} (hx : x ∈ fields) (h : Mentions t x.2.2) :
      Mentions t (.obj fields stop)

/-! ## Values in order -/

/-- No object in a value has a name twice. -/
inductive Value.Distinct : Value → Prop where
  | leaf {v : Value} (h : v.nesting = 0) : Distinct v
  | arr {vs : List Value} (h : ∀ v ∈ vs, Distinct v) : Distinct (.arr vs)
  | obj {kvs : List (String × Value)} (hnames : (kvs.map Prod.fst).Nodup)
      (h : ∀ kv ∈ kvs, Distinct kv.2) : Distinct (.obj kvs)

/-- A member whose name occurs once is still there when the members are in order. -/
theorem mem_canonicalFields {kvs : List (String × Value)} (hnames : (kvs.map Prod.fst).Nodup)
    {k : String} {v : Value} (h : (k, v) ∈ kvs) : (k, v.canonical) ∈ Value.canonicalFields kvs := by
  rw [← Fields.lookup_eq_some_iff_mem (Value.sorted_canonicalFields kvs).nodup,
    Value.lookup_canonicalFields, Fields.lookup_perm (List.reverse_perm kvs) hnames,
    (Fields.lookup_eq_some_iff_mem hnames).mpr h]
  rfl

/-- A value in order has all the texts of the value. -/
theorem Value.Mentions.canonical {t : String} {v : Value} (h : v.Mentions t) (hv : v.Distinct) :
    v.canonical.Mentions t := by
  induction h with
  | str => exact .str
  | item hmem _ ih =>
    obtain hleaf | hitems | - := hv
    · cases hleaf
    · rw [Value.canonical, canonicalItems_eq]
      exact .item (List.mem_map_of_mem hmem) (ih (hitems _ hmem))
  | name hmem =>
    obtain hleaf | - | ⟨hnames, -⟩ := hv
    · cases hleaf
    · exact .name (mem_canonicalFields hnames hmem)
  | member hmem _ ih =>
    obtain hleaf | - | ⟨hnames, hmembers⟩ := hv
    · cases hleaf
    · exact .member (mem_canonicalFields hnames hmem) (ih (hmembers _ hmem))

/-! ## Values of trees -/

/-- A tree with a value is the tree of a leaf, or a container that was closed and whose parts have
values. -/
theorem toValue_eq_ok {d : Doc} {depth : Nat} {v : Value} (h : d.toValue depth = .ok v) :
    v.nesting = 0 ∧ d = Doc.ofValue v ∨
      (∃ n ds vs, d = .arr ds none ∧ itemValues n ds = .ok vs ∧ v = .arr vs) ∨
        ∃ n fields kvs, d = .obj fields none ∧ fieldValues n fields = .ok kvs ∧
          v = .object kvs := by
  cases d with
  | null =>
    cases h
    exact .inl ⟨rfl, rfl⟩
  | bool b =>
    cases h
    exact .inl ⟨rfl, rfl⟩
  | num n =>
    cases n <;> cases h
    all_goals exact .inl ⟨rfl, rfl⟩
  | str s flaw =>
    cases flaw <;> cases h
    exact .inl ⟨rfl, rfl⟩
  | broken f => cases h
  | arr ds stop =>
    unfold Doc.toValue at h
    split at h
    · cases h
    split at h
    · cases h
    · cases h
    · rename_i hitems
      cases h
      exact .inr (.inl ⟨_, ds, _, rfl, hitems, rfl⟩)
  | obj fields stop =>
    unfold Doc.toValue at h
    split at h
    · cases h
    split at h
    · cases h
    · cases h
    · rename_i hfields
      cases h
      exact .inr (.inr ⟨_, fields, _, rfl, hfields, rfl⟩)

theorem mem_itemValues {depth : Nat} {ds : List Doc} {vs : List Value}
    (h : itemValues depth ds = .ok vs) : ∀ v ∈ vs, ∃ d ∈ ds, d.toValue depth = .ok v := by
  induction ds generalizing vs with
  | nil =>
    cases h
    nofun
  | cons d ds ih =>
    unfold itemValues at h
    split at h
    · cases h
    rename_i hvalue
    split at h
    · cases h
    rename_i hvalues
    cases h
    refine List.forall_mem_cons.mpr ⟨⟨d, List.mem_cons_self, hvalue⟩, fun v hv => ?_⟩
    obtain ⟨d', hd', hvalue'⟩ := ih hvalues v hv
    exact ⟨d', List.mem_cons_of_mem _ hd', hvalue'⟩

theorem mem_fieldValues {depth : Nat} {fields : List (String × Option Fault × Doc)}
    {kvs : List (String × Value)} (h : fieldValues depth fields = .ok kvs) :
    ∀ kv ∈ kvs, ∃ d, (kv.1, none, d) ∈ fields ∧ d.toValue depth = .ok kv.2 := by
  induction fields generalizing kvs with
  | nil =>
    cases h
    nofun
  | cons x fields ih =>
    obtain ⟨k, flaw, d⟩ := x
    cases flaw with
    | some f => cases h
    | none =>
      unfold fieldValues at h
      split at h
      · cases h
      rename_i hvalue
      split at h
      · cases h
      rename_i hvalues
      cases h
      refine List.forall_mem_cons.mpr ⟨⟨d, List.mem_cons_self, hvalue⟩, fun kv hkv => ?_⟩
      obtain ⟨d', hd', hvalue'⟩ := ih hvalues kv hkv
      exact ⟨d', List.mem_cons_of_mem _ hd', hvalue'⟩

/-- The texts of a value occur in its tree. -/
theorem mentions_of_toValue {t : String} {v : Value} (h : v.Mentions t) {d : Doc} {depth : Nat}
    (hd : d.toValue depth = .ok v) : d.Mentions t := by
  induction h generalizing d depth with
  | str =>
    obtain ⟨-, rfl⟩ | ⟨_, _, _, -, -, heq⟩ | ⟨_, _, _, -, -, heq⟩ := toValue_eq_ok hd
    · exact .str
    · cases heq
    · cases heq
  | item hmem _ ih =>
    obtain ⟨hleaf, -⟩ | ⟨_, _, _, rfl, hitems, heq⟩ | ⟨_, _, _, -, -, heq⟩ := toValue_eq_ok hd
    · cases hleaf
    · cases heq
      obtain ⟨d, hd, hvalue⟩ := mem_itemValues hitems _ hmem
      exact .item hd (ih hvalue)
    · cases heq
  | name hmem =>
    obtain ⟨hleaf, -⟩ | ⟨_, _, _, -, -, heq⟩ | ⟨_, _, _, rfl, hfields, heq⟩ := toValue_eq_ok hd
    · cases hleaf
    · cases heq
    · cases heq
      obtain ⟨d, hd, -⟩ := mem_fieldValues hfields _ (Fields.mem_ofList hmem)
      exact .name hd
  | member hmem _ ih =>
    obtain ⟨hleaf, -⟩ | ⟨_, _, _, -, -, heq⟩ | ⟨_, _, _, rfl, hfields, heq⟩ := toValue_eq_ok hd
    · cases hleaf
    · cases heq
    · cases heq
      obtain ⟨d, hd, hvalue⟩ := mem_fieldValues hfields _ (Fields.mem_ofList hmem)
      exact .member hd (ih hvalue)

/-! ## Decoded texts -/

theorem mentions_of_child {t : String} {d d' : Doc} (hd' : d' ∈ d.children) (h : d'.Mentions t) :
    d.Mentions t := by
  cases d with
  | arr items stop => exact .item hd' h
  | obj fields stop =>
    obtain ⟨x, hx, rfl⟩ := List.mem_map.mp hd'
    exact .member hx h
  | _ => cases hd'

theorem mentions_of_text {t : String} {s : Scope} {d : Doc} (h : text s d = .ok t) :
    d.Mentions t := by
  unfold text textAs at h
  split at h
  · cases h
    exact .str
  · exact absurd h (wrongKind_ne_ok _ _ _)

end Enclave.Json
