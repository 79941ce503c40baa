import Enclave.Json.Document
import Mathlib.Data.List.Nodup

/-!
# Objects in order

An object that was read has its members in the order of their names, and a name that stood twice
keeps its last value. Such member lists are determined by what `lookup` finds in them
(`Fields.eq_of_lookup`), so the two ways to bring members into order, `Fields.ofList` while a tree
is turned into a value and `canonicalFields` on a value at hand, give the same object.
`toValue_ofValue` says what comes of it: the tree of a value that is not nested too deep has the
value in order.
-/

namespace Enclave.Json

namespace Fields

variable {fs gs : Fields} {k j : String} {v : Value}

theorem lookup_cons_eq (i j : String) (w : Value) (fs : Fields) :
    List.lookup j ((i, w) :: fs) = if j = i then some w else fs.lookup j := by
  by_cases h : j = i
  · subst h
    rw [List.lookup_cons_self, if_pos rfl]
  · rw [List.lookup_cons, beq_eq_false_iff_ne.mpr h, if_neg h]

/-- The members stand in the order of their names, and no name stands twice. -/
def Sorted (fs : Fields) : Prop := fs.Pairwise fun a b => a.1 < b.1

theorem lookup_insert (k j : String) (v : Value) (fs : Fields) :
    (insert k v fs).lookup j = if j = k then some v else fs.lookup j := by
  induction fs with
  | nil => rw [insert, lookup_cons_eq]
  | cons kv fs ih =>
    obtain ⟨i, w⟩ := kv
    unfold insert
    split
    · rename_i h
      subst h
      rw [lookup_cons_eq, lookup_cons_eq]
      by_cases hj : j = k <;> simp [hj]
    split
    · rw [lookup_cons_eq]
    · rename_i hne _
      rw [lookup_cons_eq, lookup_cons_eq, ih]
      by_cases hj : j = k
      · subst hj
        simp [hne]
      · simp [hj]

theorem mem_insert {x : String × Value} (h : x ∈ insert k v fs) : x = (k, v) ∨ x ∈ fs := by
  induction fs with
  | nil => exact .inl (List.mem_singleton.mp h)
  | cons kv fs ih =>
    unfold insert at h
    split at h
    · rcases List.mem_cons.mp h with rfl | h
      · exact .inl rfl
      · exact .inr (List.mem_cons_of_mem _ h)
    split at h
    · rcases List.mem_cons.mp h with rfl | h
      · exact .inl rfl
      · exact .inr h
    · rcases List.mem_cons.mp h with rfl | h
      · exact .inr List.mem_cons_self
      · exact (ih h).imp_right (List.mem_cons_of_mem _)

theorem Sorted.insert (h : Sorted fs) (k : String) (v : Value) : Sorted (insert k v fs) := by
  induction fs with
  | nil => exact List.pairwise_singleton _ _
  | cons kv fs ih =>
    obtain ⟨i, w⟩ := kv
    obtain ⟨hfirst, hrest⟩ := List.pairwise_cons.mp h
    unfold Fields.insert
    split
    · rename_i hk
      subst hk
      exact List.pairwise_cons.mpr ⟨hfirst, hrest⟩
    split
    · rename_i hlt
      refine List.pairwise_cons.mpr ⟨fun x hx => ?_, h⟩
      rcases List.mem_cons.mp hx with rfl | hx
      · exact hlt
      · exact String.lt_trans hlt (hfirst x hx)
    · rename_i hne hlt
      have hgt : i < k := by grind
      refine List.pairwise_cons.mpr ⟨fun x hx => ?_, ih hrest⟩
      rcases mem_insert hx with rfl | hx
      · exact hgt
      · exact hfirst x hx

theorem lookup_eq_none (h : ∀ x ∈ fs, k < x.1) : fs.lookup k = none := by
  rw [List.lookup_eq_none_iff]
  intro x hx
  have hne : k ≠ x.1 := fun heq => String.lt_irrefl k (by simpa [← heq] using h x hx)
  simpa using hne

theorem lookup_cons_eq_none (h : Sorted ((k, v) :: fs)) (hj : j < k) :
    List.lookup j ((k, v) :: fs) = none := by
  refine lookup_eq_none fun x hx => ?_
  rcases List.mem_cons.mp hx with rfl | hx
  · exact hj
  · exact String.lt_trans hj ((List.pairwise_cons.mp h).1 x hx)

/-- A list of members in order is determined by what is found in it. -/
theorem eq_of_lookup (hf : Sorted fs) (hg : Sorted gs) (h : ∀ j, fs.lookup j = gs.lookup j) :
    fs = gs := by
  induction fs generalizing gs with
  | nil =>
    cases gs with
    | nil => rfl
    | cons kv gs =>
      have hfound := h kv.1
      rw [lookup_cons_eq, if_pos rfl] at hfound
      cases hfound
  | cons kv fs ih =>
    obtain ⟨k, v⟩ := kv
    cases gs with
    | nil =>
      have hfound := h k
      rw [lookup_cons_eq, if_pos rfl] at hfound
      cases hfound
    | cons kv' gs =>
      obtain ⟨k', v'⟩ := kv'
      -- The smaller of two different first names would be missing from the other list.
      have hsooner : ¬ k < k' := fun hlt => by
        have hnone := h k
        rw [lookup_cons_eq_none hg hlt, lookup_cons_eq, if_pos rfl] at hnone
        cases hnone
      have hlater : ¬ k' < k := fun hlt => by
        have hnone := h k'
        rw [lookup_cons_eq_none hf hlt, lookup_cons_eq, if_pos rfl] at hnone
        cases hnone
      obtain rfl : k = k' := by grind
      have hv := h k
      rw [lookup_cons_eq, lookup_cons_eq, if_pos rfl, if_pos rfl] at hv
      cases hv
      obtain ⟨hfirst, hf⟩ := List.pairwise_cons.mp hf
      obtain ⟨hfirst', hg⟩ := List.pairwise_cons.mp hg
      refine congrArg _ (ih hf hg fun j => ?_)
      by_cases hj : j = k
      · subst hj
        rw [lookup_eq_none hfirst, lookup_eq_none hfirst']
      · have hrest := h j
        rwa [lookup_cons_eq, lookup_cons_eq, if_neg hj, if_neg hj] at hrest

theorem sorted_foldl {kvs : List (String × Value)} (h : Sorted fs) :
    Sorted (kvs.foldl (fun acc kv => acc.insert kv.1 kv.2) fs) := by
  induction kvs generalizing fs with
  | nil => exact h
  | cons kv kvs ih => exact ih (h.insert kv.1 kv.2)

theorem sorted_ofList (kvs : List (String × Value)) : Sorted (ofList kvs) :=
  sorted_foldl List.Pairwise.nil

theorem mem_foldl {kvs : List (String × Value)} {x : String × Value}
    (h : x ∈ kvs.foldl (fun acc kv => acc.insert kv.1 kv.2) fs) : x ∈ kvs ∨ x ∈ fs := by
  induction kvs generalizing fs with
  | nil => exact .inr h
  | cons kv kvs ih =>
    rcases ih h with h | h
    · exact .inl (List.mem_cons_of_mem _ h)
    · rcases mem_insert h with rfl | h
      · exact .inl List.mem_cons_self
      · exact .inr h

theorem mem_ofList {kvs : List (String × Value)} {x : String × Value} (h : x ∈ ofList kvs) :
    x ∈ kvs :=
  (mem_foldl h).resolve_right List.not_mem_nil

theorem lookup_foldl (kvs : List (String × Value)) (fs : Fields) (j : String) :
    (kvs.foldl (fun acc kv => acc.insert kv.1 kv.2) fs).lookup j
      = (kvs.reverse.lookup j).or (fs.lookup j) := by
  induction kvs generalizing fs with
  | nil => rfl
  | cons kv kvs ih =>
    obtain ⟨k, v⟩ := kv
    rw [List.foldl_cons, ih, List.reverse_cons, List.lookup_append, lookup_insert,
      Option.or_assoc, lookup_cons_eq]
    by_cases hj : j = k <;> simp [hj]

/-- Members brought into order hold the last value of each name. -/
theorem lookup_ofList (kvs : List (String × Value)) (j : String) :
    (ofList kvs).lookup j = kvs.reverse.lookup j := by
  rw [ofList, lookup_foldl, List.lookup_nil, Option.or_none]

/-- In a list with no name twice, a member is found by its name. -/
theorem lookup_eq_some_iff_mem (h : (fs.map Prod.fst).Nodup) :
    fs.lookup k = some v ↔ (k, v) ∈ fs := by
  induction fs with
  | nil => simp
  | cons x fs ih =>
    obtain ⟨k', v'⟩ := x
    obtain ⟨hfresh, hrest⟩ := List.nodup_cons.mp h
    rw [lookup_cons_eq, List.mem_cons, Prod.mk.injEq]
    split
    · rename_i hk
      subst hk
      have hnot : (k, v) ∉ fs := fun hmem => hfresh (List.mem_map.mpr ⟨_, hmem, rfl⟩)
      simp [hnot, eq_comm]
    · rename_i hk
      simp [hk, ih hrest]

/-- What is found by a name does not depend on the order of the members. -/
theorem lookup_perm (hperm : fs.Perm gs) (h : (gs.map Prod.fst).Nodup) (j : String) :
    fs.lookup j = gs.lookup j := by
  have hfs : (fs.map Prod.fst).Nodup := (hperm.map Prod.fst).nodup_iff.mpr h
  refine Option.ext fun v => ?_
  rw [lookup_eq_some_iff_mem hfs, lookup_eq_some_iff_mem h, hperm.mem_iff]

theorem Sorted.nodup (h : Sorted fs) : (fs.map Prod.fst).Nodup :=
  List.pairwise_map.mpr (h.imp fun hlt => String.ne_of_lt hlt)

end Fields

namespace Value

/-! ## Values in order -/

theorem canonicalItems_eq (vs : List Value) : canonicalItems vs = vs.map canonical := by
  induction vs with
  | nil => rfl
  | cons v vs ih => rw [canonicalItems, ih, List.map_cons]

/-- A list of written values is brought into order value by value. -/
theorem canonical_arr_map {α : Type} (write : α → Value) (as : List α) :
    (arr (as.map write)).canonical = .arr (as.map fun a => (write a).canonical) := by
  rw [canonical, canonicalItems_eq, List.map_map]
  rfl

theorem lookup_canonicalFields (kvs : List (String × Value)) (j : String) :
    (canonicalFields kvs).lookup j = (kvs.reverse.lookup j).map canonical := by
  induction kvs with
  | nil => rfl
  | cons kv kvs ih =>
    obtain ⟨k, v⟩ := kv
    rw [List.reverse_cons, List.lookup_append, Option.map_or, ← ih, canonicalFields,
      Fields.lookup_cons_eq]
    split
    · rename_i hsome
      obtain ⟨w, hw⟩ := Option.isSome_iff_exists.mp hsome
      by_cases hj : j = k
      · subst hj
        rw [hw]
        rfl
      · simp [hj]
    · rename_i hnone
      rw [Fields.lookup_insert]
      by_cases hj : j = k
      · subst hj
        rw [Bool.not_eq_true, Option.isSome_eq_false_iff, Option.isNone_iff_eq_none] at hnone
        simp [hnone]
      · simp [hj]

theorem sorted_canonicalFields (kvs : List (String × Value)) :
    Fields.Sorted (canonicalFields kvs) := by
  induction kvs with
  | nil => exact List.Pairwise.nil
  | cons kv kvs ih =>
    rw [canonicalFields]
    split
    · exact ih
    · exact ih.insert _ _

theorem lookup_map_canonical (kvs : List (String × Value)) (j : String) :
    (kvs.map fun kv => (kv.1, kv.2.canonical)).lookup j = (kvs.lookup j).map canonical := by
  induction kvs with
  | nil => rfl
  | cons kv kvs ih =>
    obtain ⟨k, v⟩ := kv
    rw [List.map_cons, Fields.lookup_cons_eq, Fields.lookup_cons_eq, ih]
    by_cases hj : j = k <;> simp [hj]

/-- Both ways to bring members into order agree. -/
theorem canonicalFields_eq_ofList (kvs : List (String × Value)) :
    canonicalFields kvs = Fields.ofList (kvs.map fun kv => (kv.1, kv.2.canonical)) := by
  refine Fields.eq_of_lookup (sorted_canonicalFields kvs) (Fields.sorted_ofList _) fun j => ?_
  rw [lookup_canonicalFields, Fields.lookup_ofList, ← List.map_reverse, lookup_map_canonical]

/-- An object with no name twice has the same members when it is in order. -/
theorem get?_canonical {fs : Fields} (h : (fs.map Prod.fst).Nodup) (k : String) :
    (obj fs).canonical.get? k = ((obj fs).get? k).map canonical := by
  rw [canonical, get?, get?, lookup_canonicalFields, Fields.lookup_perm (List.reverse_perm fs) h]

/-- The order of the members of an object does not matter. -/
theorem canonicalFields_perm {fs gs : Fields} (hperm : fs.Perm gs) (h : (gs.map Prod.fst).Nodup) :
    canonicalFields fs = canonicalFields gs := by
  have hlast : fs.reverse.Perm gs := (List.reverse_perm fs).trans hperm
  refine Fields.eq_of_lookup (sorted_canonicalFields fs) (sorted_canonicalFields gs) fun j => ?_
  rw [lookup_canonicalFields, lookup_canonicalFields, Fields.lookup_perm hlast h,
    Fields.lookup_perm (List.reverse_perm gs) h]

/-- Members in order whose values are in order stay as they are. -/
theorem canonicalFields_of_sorted {fs : Fields} (hsorted : Fields.Sorted fs)
    (h : ∀ x ∈ fs, x.2.canonical = x.2) : canonicalFields fs = fs := by
  have hmap : fs.map (fun kv => (kv.1, kv.2.canonical)) = fs := by
    conv_rhs => rw [← List.map_id fs]
    exact List.map_congr_left fun x hx => by rw [h x hx]; rfl
  refine Fields.eq_of_lookup (sorted_canonicalFields fs) hsorted fun j => ?_
  rw [lookup_canonicalFields, Fields.lookup_perm (List.reverse_perm fs) hsorted.nodup,
    ← lookup_map_canonical, hmap]

/-- Two members change places if they are not in order. -/
theorem canonical_pair {k j : String} {v w : Value} (h : j < k) :
    (obj [(k, v), (j, w)]).canonical = .obj [(j, w.canonical), (k, v.canonical)] := by
  have hne : k ≠ j := fun hkj => String.lt_irrefl j (hkj ▸ h)
  have hnot : ¬ k < j := fun hkj => String.lt_irrefl j (String.lt_trans h hkj)
  simp only [canonical, canonicalFields, Fields.lookup_cons_eq, List.lookup_nil, Fields.insert,
    if_neg hne, if_neg hnot, Option.isSome_none, Bool.false_eq_true, if_false]

/-- An object made of values in order is in order. -/
theorem canonical_object {kvs : List (String × Value)} (h : ∀ x ∈ kvs, x.2.canonical = x.2) :
    (object kvs).canonical = object kvs := by
  rw [object, canonical, canonicalFields_of_sorted (Fields.sorted_ofList kvs)
    fun x hx => h x (Fields.mem_ofList hx)]

mutual

/-- A value in order is in order. -/
theorem canonical_canonical : (v : Value) → v.canonical.canonical = v.canonical
  | .null => rfl
  | .bool _ => rfl
  | .int _ => rfl
  | .float _ => rfl
  | .str _ => rfl
  | .arr items => by
    rw [canonical, canonical, canonicalItems_eq, canonicalItems_eq, List.map_map]
    exact congrArg _ (List.map_congr_left (canonical_items items))
  | .obj fields => by
    rw [canonical, canonicalFields_eq_ofList]
    refine canonical_object fun x hx => ?_
    obtain ⟨kv, hkv, rfl⟩ := List.mem_map.mp hx
    exact canonical_fields fields kv hkv

theorem canonical_items : (vs : List Value) → ∀ v ∈ vs, v.canonical.canonical = v.canonical
  | [] => by simp
  | v :: vs => List.forall_mem_cons.mpr ⟨canonical_canonical v, canonical_items vs⟩

theorem canonical_fields : (kvs : List (String × Value)) →
    ∀ x ∈ kvs, x.2.canonical.canonical = x.2.canonical
  | [] => by simp
  | (_, v) :: kvs => List.forall_mem_cons.mpr ⟨canonical_canonical v, canonical_fields kvs⟩

end

/-! ## Trees of values -/

mutual

/-- The tree of a value that is not nested too deep has the value in order. -/
theorem toValue_ofValue : (v : Value) → (depth : Nat) → v.nesting ≤ depth →
    (Doc.ofValue v).toValue depth = .ok v.canonical
  | .null, _, _ => rfl
  | .bool _, _, _ => rfl
  | .int _, _, _ => rfl
  | .float _, _, _ => rfl
  | .str _, _, _ => rfl
  | .arr items, depth, h => by
    obtain ⟨depth, rfl⟩ := Nat.exists_eq_add_one_of_ne_zero (n := depth) (by
      rw [nesting] at h
      omega)
    rw [nesting] at h
    simp only [Doc.ofValue, Doc.toValue, itemValues_docItems items depth (by omega), canonical]
  | .obj fields, depth, h => by
    obtain ⟨depth, rfl⟩ := Nat.exists_eq_add_one_of_ne_zero (n := depth) (by
      rw [nesting] at h
      omega)
    rw [nesting] at h
    simp only [Doc.ofValue, Doc.toValue, fieldValues_docFields fields depth (by omega), canonical,
      canonicalFields_eq_ofList, object]

theorem itemValues_docItems : (vs : List Value) → (depth : Nat) → itemNesting vs ≤ depth →
    itemValues depth (docItems vs) = .ok (canonicalItems vs)
  | [], _, _ => rfl
  | v :: vs, depth, h => by
    rw [itemNesting] at h
    simp only [docItems, itemValues, toValue_ofValue v depth (by omega),
      itemValues_docItems vs depth (by omega), canonicalItems]

theorem fieldValues_docFields : (kvs : List (String × Value)) → (depth : Nat) →
    fieldNesting kvs ≤ depth →
    fieldValues depth (docFields kvs) = .ok (kvs.map fun kv => (kv.1, kv.2.canonical))
  | [], _, _ => rfl
  | (k, v) :: kvs, depth, h => by
    rw [fieldNesting] at h
    simp only [docFields, fieldValues, toValue_ofValue v depth (by omega),
      fieldValues_docFields kvs depth (by omega), List.map_cons]

end

mutual

/-- A value that is nested too deep is refused. -/
theorem toValue_ofValue_deep : (v : Value) → (depth : Nat) → depth < v.nesting →
    (Doc.ofValue v).toValue depth = .error .recursionLimit
  | .null, _, h => (Nat.not_lt_zero _ h).elim
  | .bool _, _, h => (Nat.not_lt_zero _ h).elim
  | .int _, _, h => (Nat.not_lt_zero _ h).elim
  | .float _, _, h => (Nat.not_lt_zero _ h).elim
  | .str _, _, h => (Nat.not_lt_zero _ h).elim
  | .arr _, 0, _ => rfl
  | .arr items, depth + 1, h => by
    rw [nesting] at h
    simp only [Doc.ofValue, Doc.toValue, itemValues_docItems_deep items depth (by omega)]
  | .obj _, 0, _ => rfl
  | .obj fields, depth + 1, h => by
    rw [nesting] at h
    simp only [Doc.ofValue, Doc.toValue, fieldValues_docFields_deep fields depth (by omega)]

theorem itemValues_docItems_deep : (vs : List Value) → (depth : Nat) → depth < itemNesting vs →
    itemValues depth (docItems vs) = .error .recursionLimit
  | [], _, h => (Nat.not_lt_zero _ h).elim
  | v :: vs, depth, h => by
    rw [itemNesting] at h
    by_cases hv : depth < v.nesting
    · simp only [docItems, itemValues, toValue_ofValue_deep v depth hv]
    · simp only [docItems, itemValues, toValue_ofValue v depth (by omega),
        itemValues_docItems_deep vs depth (by omega)]

theorem fieldValues_docFields_deep : (kvs : List (String × Value)) → (depth : Nat) →
    depth < fieldNesting kvs → fieldValues depth (docFields kvs) = .error .recursionLimit
  | [], _, h => (Nat.not_lt_zero _ h).elim
  | (k, v) :: kvs, depth, h => by
    rw [fieldNesting] at h
    by_cases hv : depth < v.nesting
    · simp only [docFields, fieldValues, toValue_ofValue_deep v depth hv]
    · simp only [docFields, fieldValues, toValue_ofValue v depth (by omega),
        fieldValues_docFields_deep kvs depth (by omega)]

end

/-! ## Nesting -/

theorem itemNesting_le_iff {vs : List Value} {depth : Nat} :
    itemNesting vs ≤ depth ↔ ∀ v ∈ vs, v.nesting ≤ depth := by
  induction vs with
  | nil => simp [itemNesting]
  | cons v vs ih => rw [itemNesting, Nat.max_le, ih, List.forall_mem_cons]

theorem fieldNesting_le_iff {kvs : List (String × Value)} {depth : Nat} :
    fieldNesting kvs ≤ depth ↔ ∀ kv ∈ kvs, kv.2.nesting ≤ depth := by
  induction kvs with
  | nil => simp [fieldNesting]
  | cons kv kvs ih => rw [fieldNesting, Nat.max_le, ih, List.forall_mem_cons]

theorem nesting_lt_arr {vs : List Value} {v : Value} (h : v ∈ vs) :
    v.nesting < (Value.arr vs).nesting := by
  rw [nesting]
  exact Nat.lt_succ_of_le (itemNesting_le_iff.mp (Nat.le_refl _) v h)

theorem nesting_lt_obj {kvs : List (String × Value)} {k : String} {v : Value}
    (h : (k, v) ∈ kvs) : v.nesting < (Value.obj kvs).nesting := by
  rw [nesting]
  exact Nat.lt_succ_of_le (fieldNesting_le_iff.mp (Nat.le_refl _) (k, v) h)

end Value

end Enclave.Json
