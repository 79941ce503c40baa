import Enclave.Proofs.Json.Decode
import Enclave.Proofs.Json.RoundTrip

/-!
# Documents and variants

A document that was written is decoded from its value (`decodeText_pretty`). What is said of
records carries over to records that name their variant in a member: written with the name in front,
they are put together member by member (`taggedVariant_ofValue`), and what was decoded was put
together by the fields of one of the variants (`taggedVariant_taken`). The names of the fields that
were met matter there, since a field that has to be there was decoded (`takeFields_single`).
-/

namespace Enclave.Json

variable {α β : Type}

/-! ## Written documents -/

/-- A text that reads as a tree is decoded from it. -/
theorem decodeText_of_read {item : Decoder α} {source : String} {d : Doc}
    (h : Doc.read source = (d, none)) : decodeText item source = item .ofText d := by
  rw [decodeText, h]
  cases hitem : item .ofText d with
  | error e => simp only [hitem]
  | ok a => simp only [hitem]

/-- A document that was written over lines is decoded from the tree of its value. -/
theorem decodeText_pretty {item : Decoder α} {v : Value} (h : ∀ n ∈ v.numbers, n.Carried) :
    decodeText item v.pretty = item .ofText (Doc.ofValue v) :=
  decodeText_of_read (Doc.read_pretty h)

/-- The same of a document that was written on one line. -/
theorem decodeText_compact {item : Decoder α} {v : Value} (h : ∀ n ∈ v.numbers, n.Carried) :
    decodeText item v.compact = item .ofText (Doc.ofValue v) :=
  decodeText_of_read (Doc.read_compact h)

/-! ## Written variants -/

section Written

variable {s : Scope} {tag name : String}

/-- Members with other names than the tag are set aside as they are. -/
theorem takeTag_docFields (choices : List (String × α)) {kvs : List (String × Value)}
    (htag : ∀ kv ∈ kvs, kv.1 ≠ tag) (hdepth : Value.fieldNesting kvs ≤ s.depth) :
    takeTag tag choices s (docFields kvs) = .ok (none, docFields kvs) := by
  induction kvs with
  | nil => rfl
  | cons kv kvs ih =>
    obtain ⟨k, v⟩ := kv
    obtain ⟨hk, hrest⟩ := List.forall_mem_cons.mp htag
    rw [Value.fieldNesting, Nat.max_le] at hdepth
    rw [docFields, takeTag, if_neg hk, v.toValue_ofValue s.depth hdepth.1]
    simp only [ih hrest hdepth.2]

/-- The name of a variant among other members selects it. -/
theorem takeTag_among (front : List (String × Value)) {choices : List (String × α)} {a : α}
    {kvs : List (String × Value)} (hname : choices.lookup name = some a) (hfront : ∀ kv ∈ front, kv.1 ≠ tag)
    (htag : ∀ kv ∈ kvs, kv.1 ≠ tag) (hdepth : Value.fieldNesting (front ++ kvs) ≤ s.depth) :
    takeTag tag choices s (docFields (front ++ (tag, .str name) :: kvs))
      = .ok (some a, docFields (front ++ kvs)) := by
  induction front with
  | nil =>
    have hvariant : variantName choices s (.str name none) = .ok a := by
      rw [variantName, nameOf, hname]
    rw [List.nil_append, docFields, Doc.ofValue, takeTag, if_pos rfl, hvariant]
    simp only [takeTag_docFields choices htag hdepth]
    rfl
  | cons kv front ih =>
    obtain ⟨k, v⟩ := kv
    obtain ⟨hk, hrest⟩ := List.forall_mem_cons.mp hfront
    rw [List.cons_append, Value.fieldNesting, Nat.max_le] at hdepth
    rw [List.cons_append, docFields, takeTag, if_neg hk, v.toValue_ofValue s.depth hdepth.1]
    simp only [ih hrest hdepth.2]
    rfl

/-- The name of a variant in front of other members selects it. -/
theorem takeTag_name {choices : List (String × α)} {a : α} {kvs : List (String × Value)}
    (hname : choices.lookup name = some a) (htag : ∀ kv ∈ kvs, kv.1 ≠ tag)
    (hdepth : Value.fieldNesting kvs ≤ s.depth) :
    takeTag tag choices s (docFields ((tag, .str name) :: kvs)) = .ok (some a, docFields kvs) :=
  takeTag_among [] hname (by simp) htag hdepth

/-- A variant is read from its members and its name, wherever the name stands. -/
theorem taggedVariant_among (front : List (String × Value)) (seen : List String) {title : String}
    {choices : List (String × RecordShape α)} {r : RecordShape α} {kvs : List (String × Value)}
    {acc : α} (hname : choices.lookup name = some r) (hfront : ∀ kv ∈ front, kv.1 ≠ tag)
    (htag : ∀ kv ∈ kvs, kv.1 ≠ tag) (hdepth : Value.fieldNesting (front ++ kvs) < s.depth)
    (htake : takeFields r.set ⟨.aside, s.depth - 1⟩ [] r.start (docFields (front ++ kvs))
      = .ok (seen, acc))
    (hrequired : ∀ n ∈ r.required, n ∈ seen) :
    taggedVariant title tag choices s (Doc.ofValue (.obj (front ++ (tag, .str name) :: kvs)))
      = .ok acc := by
  have hguard : guardDepth s = .ok () := guardDepth_of_pos (Nat.zero_lt_of_lt hdepth)
  have htagged := takeTag_among (s := s.inner) front hname hfront htag (Nat.le_sub_one_of_lt hdepth)
  rw [Doc.ofValue, taggedVariant, hguard]
  simp only [bind, Except.bind, htagged, RecordShape.ofFields_of_take htake hrequired]

/-- A variant is read from its name and its members. -/
theorem taggedVariant_ofValue (seen : List String) {title : String}
    {choices : List (String × RecordShape α)} {r : RecordShape α} {kvs : List (String × Value)}
    {acc : α}
    (hname : choices.lookup name = some r) (htag : ∀ kv ∈ kvs, kv.1 ≠ tag)
    (hdepth : Value.fieldNesting kvs < s.depth)
    (htake : takeFields r.set ⟨.aside, s.depth - 1⟩ [] r.start (docFields kvs) = .ok (seen, acc))
    (hrequired : ∀ n ∈ r.required, n ∈ seen) :
    taggedVariant title tag choices s (Doc.ofValue (.obj ((tag, .str name) :: kvs))) = .ok acc :=
  taggedVariant_among [] seen hname (by simp) htag hdepth htake hrequired

/-- A variant with content is read from its name and the content. -/
theorem contentVariant_single {choices : List (String × Decoder α)} {bare : String → Misfit}
    {item : Decoder α} {v : Value} {a : α} (hname : choices.lookup name = some item)
    (hguard : guardDepth s = .ok ()) (hitem : item s.inner (Doc.ofValue v) = .ok a) :
    contentVariant choices bare s (Doc.ofValue (.obj [(name, v)])) = .ok a := by
  have hmember : singleMember s [(name, none, Doc.ofValue v)] none
      = .ok (name, Doc.ofValue v, none) := by
    unfold singleMember
    cases s.origin <;> rfl
  simp only [Doc.ofValue, docFields, contentVariant, hguard, hmember, nameOf, hname, hitem, bind,
    Except.bind]

/-- The content of a variant that is a record is an object wherever it comes from. -/
theorem recordVariant_obj {r : RecordShape α} {fields : List (String × Option Fault × Doc)}
    {stop : Option Fault} : recordVariant r s (.obj fields stop) = r.decode s (.obj fields stop) := by
  unfold recordVariant
  cases s.origin <;> rfl

/-- A variant of one field is read from its name and the value of the field. -/
theorem taggedVariant_single {title k : String} {choices : List (String × RecordShape α)}
    {r : RecordShape α} {item : Decoder β} {make : β → α} {v : Value} {b : β}
    (hname : choices.lookup name = some r) (hset : r.set k = field item fun _ b => make b)
    (hrequired : r.required = [k]) (htag : k ≠ tag) (hdepth : v.nesting < s.depth)
    (hitem : item ⟨.aside, s.depth - 1⟩ (Doc.ofValue v) = .ok b) :
    taggedVariant title tag choices s (Doc.ofValue (.obj [(tag, .str name), (k, v)]))
      = .ok (make b) := by
  refine taggedVariant_ofValue [k] hname (by simpa using htag) ?_ ?_ (by simp [hrequired])
  · simpa [Value.fieldNesting] using hdepth
  · rw [docFields, takeFields_cons hset rfl hitem]
    rfl

/-- The same of a variant whose name comes last. -/
theorem taggedVariant_single_last {title k : String} {choices : List (String × RecordShape α)}
    {r : RecordShape α} {item : Decoder β} {make : β → α} {v : Value} {b : β}
    (hname : choices.lookup name = some r) (hset : r.set k = field item fun _ b => make b)
    (hrequired : r.required = [k]) (htag : k ≠ tag) (hdepth : v.nesting < s.depth)
    (hitem : item ⟨.aside, s.depth - 1⟩ (Doc.ofValue v) = .ok b) :
    taggedVariant title tag choices s (Doc.ofValue (.obj [(k, v), (tag, .str name)]))
      = .ok (make b) := by
  refine taggedVariant_among [(k, v)] [k] hname (by simpa using htag) (by simp) ?_ ?_
    (by simp [hrequired])
  · simpa [Value.fieldNesting] using hdepth
  · rw [List.append_nil, docFields, takeFields_cons hset rfl hitem]
    rfl

/-! ### A variant among the members of a record -/

section Spread

variable {set : String → Option (α → Decoder α)} {seen : List String} {acc : α} {k : String}
  {v : Value} {aside rest : List (String × Option Fault × Doc)}

/-- A member that is a field is put into the record. -/
theorem takeSome_cons {item : Decoder β} {put : α → β → α} {b : β} (hset : set k = field item put)
    (hseen : seen.contains k = false) (hitem : item s (Doc.ofValue v) = .ok b) :
    takeSome set s seen acc aside ((k, none, Doc.ofValue v) :: rest)
      = takeSome set s (k :: seen) (put acc b) aside rest := by
  rw [field] at hset
  rw [takeSome, hset]
  simp only [hseen, hitem, Except.map, Bool.false_eq_true, if_false]

/-- A member that is no field is set aside. -/
theorem takeSome_aside (hset : set k = none) (hdepth : v.nesting ≤ s.depth) :
    takeSome set s seen acc aside ((k, none, Doc.ofValue v) :: rest)
      = takeSome set s seen acc ((k, none, Doc.ofValue v) :: aside) rest := by
  rw [takeSome, hset]
  simp only [v.toValue_ofValue s.depth hdepth]

/-- A record with a variant is read from its members if those that are set aside are the name of
the variant and the members of the variant. -/
theorem spreadVariant_ofValue (seen seen' : List String) (acc : α) {r : RecordShape α}
    {choices : List (String × RecordShape β)} {shape : RecordShape β} {put : α → β → α}
    {kvs others : List (String × Value)} {b : β}
    (htake : takeSome r.set s.inner [] r.start [] (docFields kvs)
      = .ok (seen, acc, docFields ((tag, .str name) :: others)))
    (hrequired : ∀ n ∈ r.required, n ∈ seen) (hname : choices.lookup name = some shape)
    (htag : ∀ kv ∈ others, kv.1 ≠ tag) (hdepth : Value.fieldNesting others < s.depth)
    (hvariant : takeFields shape.set ⟨.aside, s.depth - 1⟩ [] shape.start (docFields others)
      = .ok (seen', b))
    (hneeded : ∀ n ∈ shape.required, n ∈ seen') :
    spreadVariant r tag choices put s (Doc.ofValue (.obj kvs)) = .ok (put acc b) := by
  have hguard : guardDepth s = .ok () := guardDepth_of_pos (Nat.zero_lt_of_lt hdepth)
  have htagged := takeTag_name (s := ⟨.aside, s.depth - 1⟩) hname htag
    (Nat.le_sub_one_of_lt hdepth)
  rw [Doc.ofValue, spreadVariant, hguard]
  simp only [bind, Except.bind, htake, find?_required hrequired, htagged,
    RecordShape.ofFields_of_take hvariant hneeded, Except.map]

end Spread

end Written

/-! ## Decoded variants -/

section Decoded

variable {set : String → Option (α → Decoder α)} {s : Scope} {seen seen' : List String}
  {acc acc' : α} {fields : List (String × Option Fault × Doc)}

/-- A record of one field that was met was made of what the field was decoded to. -/
theorem takeFields_single {item : Decoder β} {make : β → α} {k : String}
    (hset : set k = field item fun _ b => make b) (hother : ∀ j, j ≠ k → set j = none)
    (h : takeFields set s [] acc fields = .ok (seen', acc')) (hk : k ∈ seen') :
    ∃ x ∈ fields, ∃ b, item s x.2.2 = .ok b ∧ acc' = make b := by
  have hextends : Extends set s (fun d => ∃ x ∈ fields, x.2.2 = d) fun seen a =>
      seen = [] ∨ ∃ x ∈ fields, ∃ b, item s x.2.2 = .ok b ∧ a = make b := by
    rintro seen j step d a a' hstep ⟨x, hx, rfl⟩ hok -
    by_cases hj : j = k
    · subst hj
      rw [hset, field] at hstep
      cases hstep
      obtain ⟨b, hb, rfl⟩ := map_eq_ok.mp hok
      exact .inr ⟨x, hx, b, hb, rfl⟩
    · rw [hother j hj] at hstep
      cases hstep
  have hmade := takeFields_extends hextends (fun x hx => ⟨x, hx, rfl⟩) h (.inl rfl)
  exact hmade.resolve_left (List.ne_nil_of_mem hk)

/-- What a field gives does not depend on the other fields: if all that is read of it is one thing,
a record with the field has it. -/
theorem takeFields_keeps {k : String} {item : Decoder β} {put : α → β → α} {get : α → β} {b : β}
    (hset : set k = field item put) (hput : ∀ a b, get (put a b) = b)
    (hother : ∀ j step d a a', j ≠ k → set j = some step → step a s d = .ok a' → get a' = get a)
    (hfields : ∀ x ∈ fields, x.1 = k → ∀ b', item s x.2.2 = .ok b' → b' = b)
    (h : takeFields set s seen acc fields = .ok (seen', acc')) (hacc : k ∈ seen → get acc = b) :
    k ∈ seen' → get acc' = b := by
  induction fields generalizing seen acc with
  | nil =>
    cases h
    exact hacc
  | cons x fields ih =>
    obtain ⟨j, flaw, d⟩ := x
    obtain ⟨hfirst, hrest⟩ := List.forall_mem_cons.mp hfields
    cases flaw with
    | some f => cases h
    | none =>
      unfold takeFields at h
      split at h
      · split at h
        · cases h
        · exact ih hrest h hacc
      · rename_i step hstep
        split at h
        · cases h
        split at h
        · cases h
        · rename_i a hok
          refine ih hrest h fun hmem => ?_
          by_cases hj : j = k
          · subst hj
            rw [hset, field] at hstep
            cases hstep
            obtain ⟨b', hb', rfl⟩ := map_eq_ok.mp hok
            rw [hput, hfirst rfl b' hb']
          · rw [hother j step d acc a hj hstep hok]
            exact hacc (List.mem_of_ne_of_mem (Ne.symm hj) hmem)

/-- The field of a member is what the member is decoded to, and that of a missing member is as it
was. No field is met twice. -/
theorem takeFields_member {k : String} {item : Decoder β} {put : α → β → α} {get : α → β}
    (hset : set k = field item put) (hput : ∀ a b, get (put a b) = b)
    (hother : ∀ j step d a a', j ≠ k → set j = some step → step a s d = .ok a' → get a' = get a)
    {kvs : Fields} (h : takeFields set s seen acc (docFields kvs) = .ok (seen', acc')) :
    (k ∈ seen → kvs.lookup k = none) ∧ (kvs.lookup k = none → get acc' = get acc) ∧
      ∀ v, kvs.lookup k = some v → item s (Doc.ofValue v) = .ok (get acc') := by
  induction kvs generalizing seen acc with
  | nil =>
    cases h
    exact ⟨fun _ => rfl, fun _ => rfl, fun v hv => by cases hv⟩
  | cons kv kvs ih =>
    obtain ⟨j, v⟩ := kv
    rw [docFields, takeFields] at h
    by_cases hj : j = k
    · subst hj
      rw [hset] at h
      simp only [field] at h
      split at h
      · cases h
      rename_i hseen
      split at h
      · cases h
      rename_i a hstep
      obtain ⟨b, hb, rfl⟩ := map_eq_ok.mp hstep
      obtain ⟨hnone, hkeeps, -⟩ := ih h
      refine ⟨fun hmem => absurd (by simpa using hmem) hseen, ?_, ?_⟩
      · intro hlookup
        simp at hlookup
      · intro w hw
        rw [List.lookup_cons_self, Option.some.injEq] at hw
        rw [hkeeps (hnone List.mem_cons_self), hput, ← hw, hb]
    · have hlookup : ((j, v) :: kvs).lookup k = kvs.lookup k := by
        rw [List.lookup_cons, beq_false_of_ne (Ne.symm hj)]
      rw [hlookup]
      split at h
      · split at h
        · cases h
        · exact ih h
      · rename_i step hstep
        split at h
        · cases h
        split at h
        · cases h
        rename_i a hok
        obtain ⟨hnone, hkeeps, hsome⟩ := ih h
        refine ⟨fun hmem => hnone (List.mem_cons_of_mem _ hmem), fun hmissing => ?_, hsome⟩
        rw [hkeeps hmissing, hother j step _ acc a hj hstep hok]

/-- Every member that is a field was met. -/
theorem takeFields_seen (h : takeFields set s seen acc fields = .ok (seen', acc')) :
    seen ⊆ seen' ∧ ∀ x ∈ fields, (set x.1).isSome → x.1 ∈ seen' := by
  induction fields generalizing seen acc with
  | nil =>
    cases h
    exact ⟨List.Subset.refl _, by simp⟩
  | cons x fields ih =>
    obtain ⟨k, flaw, d⟩ := x
    cases flaw with
    | some f => cases h
    | none =>
      unfold takeFields at h
      split at h
      case h_1 hnone =>
        split at h
        · cases h
        obtain ⟨hsub, hmet⟩ := ih h
        exact ⟨hsub, List.forall_mem_cons.mpr ⟨fun hsome => by simp [hnone] at hsome, hmet⟩⟩
      case h_2 =>
        split at h
        · cases h
        split at h
        · cases h
        obtain ⟨hsub, hmet⟩ := ih h
        exact ⟨List.subset_of_cons_subset hsub,
          List.forall_mem_cons.mpr ⟨fun _ => hsub List.mem_cons_self, hmet⟩⟩

/-- A record whose required fields are fields. -/
def RecordShape.Sound (r : RecordShape α) : Prop :=
  ∀ n ∈ r.required, n ∈ r.names ∧ (r.set n).isSome = true

/-- A record that was put together from members, all that are required among them. -/
structure RecordShape.Taken (r : RecordShape α) (s : Scope)
    (fields : List (String × Option Fault × Doc)) (seen : List String) (a : α) : Prop where
  take : takeFields r.set s [] r.start fields = .ok (seen, a)
  required : ∀ n ∈ r.required, n ∈ seen

theorem RecordShape.ofFields_taken {r : RecordShape α} {stop : Option Fault} {a : α}
    (h : r.ofFields s fields stop = .ok a) : ∃ seen, r.Taken s fields seen a := by
  obtain ⟨⟨seen, acc⟩, htake, h⟩ := bind_eq_ok.mp h
  simp only at h
  split at h
  · cases h
  split at h
  · cases h
  · rename_i hfind
    cases h
    refine ⟨seen, htake, fun n hn => ?_⟩
    simpa using List.find?_eq_none.mp hfind n hn

/-- What a record that was decoded from an object has in a field is what the member is decoded to,
or the start of the record where the member is missing. -/
theorem RecordShape.decode_member {r : RecordShape α} {k : String} {item : Decoder β}
    {put : α → β → α} {get : α → β} {kvs : Fields} {a : α} (hset : r.set k = field item put)
    (hput : ∀ a b, get (put a b) = b)
    (hother : ∀ j step d a a', j ≠ k → r.set j = some step → step a s.inner d = .ok a' →
      get a' = get a)
    (h : r.decode s (Doc.ofValue (.obj kvs)) = .ok a) :
    (kvs.lookup k = none → get a = get r.start) ∧
      ∀ v, kvs.lookup k = some v → item s.inner (Doc.ofValue v) = .ok (get a) := by
  obtain ⟨_, -, h⟩ := bind_eq_ok.mp h
  obtain ⟨seen, htaken⟩ := RecordShape.ofFields_taken h
  exact (takeFields_member hset hput hother htaken.take).2

theorem RecordShape.ofItems_taken {r : RecordShape α} (hr : r.Sound) {items : List Doc}
    {stop : Option Fault} {a : α} (h : r.ofItems s items stop = .ok a) :
    ∃ fields seen, r.Taken s fields seen a ∧ ∀ x ∈ fields, x.2.2 ∈ items := by
  obtain ⟨⟨seen, acc⟩, htake, h⟩ := bind_eq_ok.mp h
  simp only at h
  split at h
  · cases h
  split at h
  · cases h
  · cases h
  · rename_i hfind _
    cases h
    refine ⟨_, seen, ⟨htake, fun n hn => ?_⟩, ?_⟩
    · obtain ⟨hname, hset⟩ := hr n hn
      -- A field that the array did not reach would have been missed.
      have hreached : n ∉ r.names.drop items.length := fun hdrop => by
        have hneeded := List.find?_eq_none.mp hfind n hdrop
        simp [hn] at hneeded
      have htaken : n ∈ r.names.take items.length := by
        rw [← List.take_append_drop items.length r.names, List.mem_append] at hname
        exact hname.resolve_right hreached
      obtain ⟨i, hi, rfl⟩ := List.mem_iff_getElem.mp htaken
      rw [List.length_take, Nat.lt_min] at hi
      have hzip : (r.names[i], items[i]) ∈ r.names.zip items :=
        List.mem_iff_getElem.mpr ⟨i, by rw [List.length_zip]; omega, List.getElem_zip⟩
      rw [List.getElem_take] at hset ⊢
      exact (takeFields_seen htake).2 _ (List.mem_map_of_mem hzip) hset
    · rw [List.forall_mem_map]
      exact fun p hp => (List.of_mem_zip hp).2

/-- The members that are set aside are values that are not nested too deep. -/
theorem takeTag_toValue {tag : String} {choices : List (String × β)} {variant : Option β}
    {others : List (String × Option Fault × Doc)}
    (h : takeTag tag choices s fields = .ok (variant, others)) :
    ∀ x ∈ others, ∃ v, x.2.2.toValue s.depth = .ok v := by
  induction fields generalizing variant others with
  | nil =>
    cases h
    simp
  | cons x fields ih =>
    obtain ⟨k, flaw, d⟩ := x
    cases flaw with
    | some f => cases h
    | none =>
      unfold takeTag at h
      split at h
      · split at h
        · cases h
        split at h
        · cases h
        · cases h
        · rename_i hrest
          cases h
          exact ih hrest
      · split at h
        · cases h
        rename_i hvalue
        split at h
        · cases h
        · rename_i hrest
          cases h
          exact List.forall_mem_cons.mpr ⟨⟨_, hvalue⟩, ih hrest⟩

theorem itemValues_eq_ok {depth : Nat} {ds : List Doc} {vs : List Value}
    (h : itemValues depth ds = .ok vs) : ∀ d ∈ ds, ∃ v, d.toValue depth = .ok v := by
  induction ds generalizing vs with
  | nil => simp
  | cons d ds ih =>
    unfold itemValues at h
    split at h
    · cases h
    rename_i hvalue
    split at h
    · cases h
    rename_i hvalues
    exact List.forall_mem_cons.mpr ⟨⟨_, hvalue⟩, ih hvalues⟩

theorem fieldValues_eq_ok {depth : Nat} {kvs : List (String × Value)}
    (h : fieldValues depth fields = .ok kvs) :
    ∀ x ∈ fields, ∃ v, x.2.2.toValue depth = .ok v := by
  induction fields generalizing kvs with
  | nil => simp
  | cons x fields ih =>
    obtain ⟨k, flaw, d⟩ := x
    cases flaw with
    | some f => cases h
    | none =>
      unfold fieldValues at h
      split at h
      · cases h
      rename_i hvalue
      split at h
      · cases h
      rename_i hvalues
      exact List.forall_mem_cons.mpr ⟨⟨_, hvalue⟩, ih hvalues⟩

/-- The trees in a value are values, one level further in. -/
theorem toValue_children {d d' : Doc} {depth : Nat} {v : Value} (h : d.toValue depth = .ok v)
    (hd' : d' ∈ d.children) : 0 < depth ∧ ∃ w, d'.toValue (depth - 1) = .ok w := by
  cases d with
  | arr items stop =>
    cases depth with
    | zero => cases h
    | succ depth =>
      simp only [Doc.toValue] at h
      split at h
      · cases h
      · cases h
      · rename_i hitems
        exact ⟨Nat.succ_pos _, itemValues_eq_ok hitems d' hd'⟩
  | obj fields stop =>
    cases depth with
    | zero => cases h
    | succ depth =>
      simp only [Doc.toValue] at h
      split at h
      · cases h
      · cases h
      · rename_i hfields
        obtain ⟨x, hx, rfl⟩ := List.mem_map.mp hd'
        exact ⟨Nat.succ_pos _, fieldValues_eq_ok hfields x hx⟩
  | _ => cases hd'

theorem variantName_eq_ok {choices : List (String × β)} {d : Doc} {b : β}
    (h : variantName choices s d = .ok b) : ∃ name, (name, b) ∈ choices := by
  unfold variantName at h
  split at h
  · rename_i name
    unfold nameOf at h
    split at h
    · rename_i hlookup
      cases h
      obtain ⟨_, _, rfl, -⟩ := List.lookup_eq_some_iff.mp hlookup
      exact ⟨name, by simp⟩
    · cases h
  · exact absurd h (wrongKind_ne_ok _ _ _)

theorem takeTag_variant {tag : String} {choices : List (String × β)} {b : β}
    {others : List (String × Option Fault × Doc)}
    (h : takeTag tag choices s fields = .ok (some b, others)) : ∃ name, (name, b) ∈ choices := by
  induction fields generalizing others with
  | nil => cases h
  | cons x fields ih =>
    obtain ⟨k, flaw, d⟩ := x
    cases flaw with
    | some f => cases h
    | none =>
      unfold takeTag at h
      split at h
      · split at h
        · cases h
        rename_i hvariant
        split at h
        · cases h
        · cases h
        · cases h
          exact variantName_eq_ok hvariant
      · split at h
        · cases h
        split at h
        · cases h
        · rename_i hrest
          cases h
          exact ih hrest

/-- A variant that was decoded was put together from values that are not nested too deep, by the
fields of one of the choices. -/
theorem taggedVariant_taken {title tag : String} {choices : List (String × RecordShape α)}
    (hsound : ∀ choice ∈ choices, choice.2.Sound) {d : Doc} {a : α}
    (h : taggedVariant title tag choices s d = .ok a) :
    ∃ choice ∈ choices, ∃ fields seen, choice.2.Taken ⟨.aside, s.depth - 1⟩ fields seen a ∧
      ∀ x ∈ fields, ∃ v, x.2.2.toValue (s.depth - 1) = .ok v := by
  unfold taggedVariant at h
  split at h
  · rename_i fields stop
    obtain ⟨_, -, h⟩ := bind_eq_ok.mp h
    obtain ⟨⟨shape, others⟩, htag, h⟩ := bind_eq_ok.mp h
    simp only at h
    split at h
    · cases h
    · cases h
    · obtain ⟨name, hchoice⟩ := takeTag_variant htag
      obtain ⟨seen, htaken⟩ := RecordShape.ofFields_taken h
      exact ⟨_, hchoice, others, seen, htaken, takeTag_toValue htag⟩
  · rename_i items stop
    obtain ⟨_, -, h⟩ := bind_eq_ok.mp h
    split at h
    · split at h <;> cases h
    · rename_i first rest _
      obtain ⟨r, hvariant, h⟩ := bind_eq_ok.mp h
      obtain ⟨vs, hvalues, h⟩ := bind_eq_ok.mp h
      have hitems : itemValues (s.depth - 1) rest = .ok vs := by
        unfold ofFault at hvalues
        split at hvalues
        · rename_i hok
          cases hvalues
          exact hok
        · cases hvalues
      split at h
      · cases h
      · obtain ⟨name, hchoice⟩ := variantName_eq_ok hvariant
        obtain ⟨fields, seen, htaken, hfields⟩ := RecordShape.ofItems_taken (hsound _ hchoice) h
        exact ⟨_, hchoice, fields, seen, htaken, fun x hx =>
          itemValues_eq_ok hitems _ (hfields x hx)⟩
  · exact absurd h (wrongKind_ne_ok _ _ _)

/-- Only what is nested is a variant, and a text may be nested no deeper than there are levels
left. -/
theorem taggedVariant_depth {title tag : String} {choices : List (String × RecordShape α)} {d : Doc}
    {a : α} (h : taggedVariant title tag choices s d = .ok a)
    (hs : s.origin = .text ∨ ∃ v, d.toValue s.depth = .ok v) : 0 < s.depth := by
  by_contra hdepth
  have hzero : s.depth = 0 := by omega
  unfold taggedVariant at h
  rcases hs with htext | ⟨v, hv⟩
  · have hguard : guardDepth s = .error (.fault .recursionLimit) := by
      simp [guardDepth, htext, hzero]
    rw [hguard] at h
    split at h
    · cases h
    · cases h
    · exact absurd h (wrongKind_ne_ok _ _ _)
  · rw [hzero] at hv
    split at h
    · cases hv
    · cases hv
    · exact absurd h (wrongKind_ne_ok _ _ _)

end Decoded

end Enclave.Json
