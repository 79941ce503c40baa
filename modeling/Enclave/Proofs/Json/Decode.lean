import Enclave.Json.Decode
import Enclave.Proofs.Json.Canonical
import Enclave.Proofs.Outcome

/-!
# Decoding

Two ways to reason about a decoder without running it. Where a tree was made from a value, each
decoder gives the value back (`text_ofValue`, `list_ofValues`, `anyValue_ofValue`), and a record is
put together member by member (`takeFields_cons`, `RecordShape.decode_fields`). Where nothing is
known of the tree, a property of records that each field keeps holds of what was decoded
(`RecordShape.decode_preserves`), and a decoder that skips no part of the tree succeeds only where
the tree has no fault (`Thorough`).
-/

namespace Enclave.Json

variable {α β : Type}

/-! ## Trees of values -/

section Values

variable {s : Scope}

theorem guardDepth_of_pos (h : 0 < s.depth) : guardDepth s = .ok () := by
  rw [guardDepth, if_neg]
  simp only [Bool.and_eq_true, beq_iff_eq]
  omega

theorem guardDepth_of_tree (h : s.origin = .tree) : guardDepth s = .ok () := by
  simp [guardDepth, h]

theorem text_ofValue (s : Scope) (t : String) : text s (Doc.ofValue (.str t)) = .ok t := rfl

theorem flag_ofValue (s : Scope) (b : Bool) : flag s (Doc.ofValue (.bool b)) = .ok b := rfl

theorem word_ofValue (bits : Nat) (expected : String) (s : Scope) {n : Nat} (h : n < 2 ^ bits) :
    word bits expected s (Doc.ofValue (.nat n)) = .ok n := by
  have hword : (0 : Int) ≤ n ∧ (n : Int) < 2 ^ bits := ⟨by omega, by exact_mod_cast h⟩
  rw [Value.nat, Doc.ofValue, word]
  simp only [if_pos hword, Int.toNat_natCast]

theorem optional_ofValue (s : Scope) (t : Option String) :
    optional text s (Doc.ofValue (.ofOption t)) = .ok t := by
  cases t <;> rfl

theorem optional_ofValue_of_ne {item : Decoder α} {v : Value} {a : α} (hv : v ≠ .null)
    (h : item s (Doc.ofValue v) = .ok a) : optional item s (Doc.ofValue v) = .ok (some a) := by
  have hsome : optional item s (Doc.ofValue v) = (item s (Doc.ofValue v)).map some := by
    cases v <;> first | rfl | exact absurd rfl hv
  rw [hsome, h]
  rfl

theorem anyValue_ofValue {v : Value} (hdepth : v.nesting ≤ s.depth) (h : v.canonical = v) :
    anyValue s (Doc.ofValue v) = .ok v := by
  rw [anyValue, v.toValue_ofValue s.depth hdepth, h, ofFault]

theorem anyValue_ofValue_iff {v w : Value} :
    anyValue s (Doc.ofValue v) = .ok w ↔ v.nesting ≤ s.depth ∧ w = v.canonical := by
  by_cases hdepth : v.nesting ≤ s.depth
  · simp [anyValue, v.toValue_ofValue s.depth hdepth, ofFault, hdepth, eq_comm]
  · simp [anyValue, v.toValue_ofValue_deep s.depth (Nat.not_le.mp hdepth), ofFault, hdepth]

theorem decodeItems_ofValues {item : Doc → Except Misfit α} {write : α → Value} {as : List α}
    (h : ∀ a ∈ as, item (Doc.ofValue (write a)) = .ok a) :
    decodeItems item (docItems (as.map write)) = .ok as := by
  induction as with
  | nil => rfl
  | cons a as ih =>
    obtain ⟨ha, has⟩ := List.forall_mem_cons.mp h
    rw [List.map_cons, docItems, decodeItems, ha]
    simp only [ih has]

/-- A list fails if one of its items does, and all that do fail alike. -/
theorem decodeItems_ofValues_error {item : Doc → Except Misfit α} {write : α → Value} {as : List α}
    {e : Misfit} (h : ∀ a ∈ as, item (Doc.ofValue (write a)) = .ok a ∨
      item (Doc.ofValue (write a)) = .error e)
    (hsome : ∃ a ∈ as, item (Doc.ofValue (write a)) = .error e) :
    decodeItems item (docItems (as.map write)) = .error e := by
  induction as with
  | nil =>
    obtain ⟨_, hmem, -⟩ := hsome
    cases hmem
  | cons a as ih =>
    obtain ⟨ha, has⟩ := List.forall_mem_cons.mp h
    rw [List.map_cons, docItems, decodeItems]
    rcases ha with hok | herror
    · obtain ⟨b, hb, herror⟩ := hsome
      have hrest : ∃ b ∈ as, item (Doc.ofValue (write b)) = .error e := by
        rcases List.mem_cons.mp hb with rfl | hb
        · rw [hok] at herror
          cases herror
        · exact ⟨b, hb, herror⟩
      rw [hok]
      simp only [ih has hrest]
    · rw [herror]

theorem list_ofValue {item : Decoder α} {vs : List Value} {as : List α}
    (hguard : guardDepth s = .ok ()) (h : decodeItems (item s.inner) (docItems vs) = .ok as) :
    list item s (Doc.ofValue (.arr vs)) = .ok as := by
  rw [Doc.ofValue, list, hguard, h]
  rfl

/-- A list of written items is decoded if each of its items is. -/
theorem list_ofValues {item : Decoder α} {write : α → Value} {as : List α}
    (hguard : guardDepth s = .ok ())
    (h : ∀ a ∈ as, item s.inner (Doc.ofValue (write a)) = .ok a) :
    list item s (Doc.ofValue (.arr (as.map write))) = .ok as :=
  list_ofValue hguard (decodeItems_ofValues h)

theorem list_ofValues_error {item : Decoder α} {write : α → Value} {as : List α} {e : Misfit}
    (hguard : guardDepth s = .ok ())
    (h : ∀ a ∈ as, item s.inner (Doc.ofValue (write a)) = .ok a ∨
      item s.inner (Doc.ofValue (write a)) = .error e)
    (hsome : ∃ a ∈ as, item s.inner (Doc.ofValue (write a)) = .error e) :
    list item s (Doc.ofValue (.arr (as.map write))) = .error e := by
  rw [Doc.ofValue, list, hguard, decodeItems_ofValues_error h hsome]
  rfl

theorem decodeItems_ofValues_iff {item : Doc → Except Misfit β} {write : α → Value} {f : α → β}
    {P : α → Prop} {as : List α} {bs : List β}
    (h : ∀ a ∈ as, ∀ b, item (Doc.ofValue (write a)) = .ok b ↔ P a ∧ b = f a) :
    decodeItems item (docItems (as.map write)) = .ok bs ↔ (∀ a ∈ as, P a) ∧ bs = as.map f := by
  induction as generalizing bs with
  | nil => simp [docItems, decodeItems, eq_comm]
  | cons a as ih =>
    obtain ⟨ha, has⟩ := List.forall_mem_cons.mp h
    rw [List.map_cons, docItems, decodeItems, List.forall_mem_cons, List.map_cons]
    cases hfirst : item (Doc.ofValue (write a)) with
    | error e =>
      have hnot : ¬P a := fun hP => by
        rw [(ha (f a)).mpr ⟨hP, rfl⟩] at hfirst
        cases hfirst
      simp [hnot]
    | ok b =>
      obtain ⟨hP, rfl⟩ := (ha b).mp hfirst
      cases hrest : decodeItems item (docItems (as.map write)) with
      | error e =>
        have hnot : ¬∀ a ∈ as, P a := fun hall => by
          rw [(ih has).mpr ⟨hall, rfl⟩] at hrest
          cases hrest
        simp [hnot]
      | ok cs =>
        obtain ⟨hall, rfl⟩ := (ih has).mp hrest
        simp only [Except.ok.injEq]
        exact ⟨fun h => ⟨⟨hP, hall⟩, h.symm⟩, fun h => h.2.symm⟩

/-- A list of written items is decoded exactly if each of them is. -/
theorem list_ofValues_iff {item : Decoder β} {write : α → Value} {f : α → β} {P : α → Prop}
    {as : List α} {bs : List β} (hguard : guardDepth s = .ok ())
    (h : ∀ a ∈ as, ∀ b, item s.inner (Doc.ofValue (write a)) = .ok b ↔ P a ∧ b = f a) :
    list item s (Doc.ofValue (.arr (as.map write))) = .ok bs ↔
      (∀ a ∈ as, P a) ∧ bs = as.map f := by
  rw [← decodeItems_ofValues_iff h, Doc.ofValue, list, hguard]
  cases hitems : decodeItems (item s.inner) (docItems (as.map write)) with
  | error e => simp [bind, Except.bind]
  | ok cs => simp [bind, Except.bind]

end Values

/-! ## Records -/

section Records

variable {set : String → Option (α → Decoder α)} {s : Scope} {seen : List String} {acc : α}
  {k : String} {d : Doc} {fields : List (String × Option Fault × Doc)}

/-- A member whose field has not been met yet is put into the record. -/
theorem takeFields_cons {item : Decoder β} {put : α → β → α} {b : β}
    (hset : set k = field item put) (hseen : seen.contains k = false) (hitem : item s d = .ok b) :
    takeFields set s seen acc ((k, none, d) :: fields)
      = takeFields set s (k :: seen) (put acc b) fields := by
  rw [field] at hset
  rw [takeFields, hset]
  simp only [hseen, hitem, Except.map, Bool.false_eq_true, if_false]

/-- A member that does not fit its field ends the record. -/
theorem takeFields_cons_error {item : Decoder β} {put : α → β → α} {e : Misfit}
    (hset : set k = field item put) (hseen : seen.contains k = false)
    (hitem : item s d = .error e) :
    takeFields set s seen acc ((k, none, d) :: fields) = .error e := by
  rw [field] at hset
  rw [takeFields, hset]
  simp only [hseen, hitem, Except.map, Bool.false_eq_true, if_false]

theorem docFields_append (kvs kvs' : List (String × Value)) :
    docFields (kvs ++ kvs') = docFields kvs ++ docFields kvs' := by
  induction kvs with
  | nil => rfl
  | cons kv kvs ih => rw [List.cons_append, docFields, docFields, ih, List.cons_append]

/-- No field is missing if all that are required were met. -/
theorem find?_required {required : List String} (h : ∀ n ∈ required, n ∈ seen) :
    (required.find? fun n => !seen.contains n) = none := by
  rw [List.find?_eq_none]
  intro n hn
  simp [h n hn]

/-- A record is put together from its members if all that are required are among them. -/
theorem RecordShape.ofFields_of_take {r : RecordShape α}
    (htake : takeFields r.set s [] r.start fields = .ok (seen, acc))
    (hrequired : ∀ n ∈ r.required, n ∈ seen) : r.ofFields s fields none = .ok acc := by
  rw [RecordShape.ofFields, htake]
  simp only [bind, Except.bind, find?_required hrequired]

theorem RecordShape.decode_fields (seen : List String) {r : RecordShape α}
    (hguard : guardDepth s = .ok ())
    (htake : takeFields r.set s.inner [] r.start fields = .ok (seen, acc))
    (hrequired : ∀ n ∈ r.required, n ∈ seen) :
    r.decode s (.obj fields none) = .ok acc := by
  rw [RecordShape.decode, hguard]
  exact RecordShape.ofFields_of_take htake hrequired

theorem RecordShape.decode_fields_error {r : RecordShape α} {e : Misfit}
    (hguard : guardDepth s = .ok ())
    (htake : takeFields r.set s.inner [] r.start fields = .error e) :
    r.decode s (.obj fields none) = .error e := by
  rw [RecordShape.decode, hguard, RecordShape.ofFields, htake]
  rfl

end Records

/-! ## Successful decoders -/

section Success

variable {s : Scope} {d : Doc}

theorem wrongKind_ne_ok (expected : String) (d : Doc) (a : α) : wrongKind expected d ≠ .ok a := by
  unfold wrongKind
  split <;> simp

theorem word_eq_ok {bits : Nat} {expected : String} {n : Nat}
    (h : word bits expected s d = .ok n) : n < 2 ^ bits := by
  unfold word at h
  split at h
  · split at h
    · rename_i m hword
      cases h
      have hlt : m < ((2 ^ bits : Nat) : Int) := by
        push_cast
        exact hword.2
      omega
    · cases h
  · exact absurd h (wrongKind_ne_ok _ _ _)

/-- A natural is decoded from the number that it is. -/
theorem word_eq_num {bits : Nat} {expected : String} {n : Nat}
    (h : word bits expected s d = .ok n) : d = .num (.int n) := by
  unfold word at h
  split at h
  · split at h
    · rename_i m hword
      cases h
      rw [Int.toNat_of_nonneg hword.1]
    · cases h
  · exact absurd h (wrongKind_ne_ok _ _ _)

theorem optional_eq_ok {item : Decoder α} {a : α} (h : optional item s d = .ok (some a)) :
    item s d = .ok a := by
  unfold optional at h
  split at h
  · cases h
  · obtain ⟨b, hb, hsome⟩ := map_eq_ok.mp h
    cases hsome
    exact hb

theorem anyValue_eq_ok {v : Value} (h : anyValue s d = .ok v) : d.toValue s.depth = .ok v := by
  unfold anyValue ofFault at h
  split at h
  · rename_i hvalue
    cases h
    exact hvalue
  · cases h

theorem decodeItems_eq_ok {item : Doc → Except Misfit α} {ds : List Doc} {as : List α}
    (h : decodeItems item ds = .ok as) : ∀ a ∈ as, ∃ d ∈ ds, item d = .ok a := by
  induction ds generalizing as with
  | nil =>
    cases h
    simp
  | cons d ds ih =>
    unfold decodeItems at h
    split at h
    · cases h
    rename_i hfirst
    split at h
    · cases h
    rename_i hrest
    cases h
    refine List.forall_mem_cons.mpr ⟨⟨d, List.mem_cons_self, hfirst⟩, fun b hb => ?_⟩
    obtain ⟨d', hd', hb⟩ := ih hrest b hb
    exact ⟨d', List.mem_cons_of_mem _ hd', hb⟩

/-- The trees directly in a tree. -/
def Doc.children : Doc → List Doc
  | .arr items _ => items
  | .obj fields _ => fields.map fun x => x.2.2
  | _ => []

/-- Each item of a decoded list comes from a tree in the tree of the list. -/
theorem list_eq_ok {item : Decoder α} {as : List α} (h : list item s d = .ok as) :
    ∀ a ∈ as, ∃ d' ∈ d.children, item s.inner d' = .ok a := by
  unfold list at h
  split at h
  · obtain ⟨_, -, h⟩ := bind_eq_ok.mp h
    obtain ⟨bs, hitems, h⟩ := bind_eq_ok.mp h
    split at h
    · cases h
    · cases h
      exact decodeItems_eq_ok hitems
  · exact absurd h (wrongKind_ne_ok _ _ _)

/-- What was decoded from a text was decoded from its tree, with nothing behind it. -/
theorem decodeText_eq_read {item : Decoder α} {source : String} {a : α}
    (h : decodeText item source = .ok a) :
    ∃ d, Doc.read source = (d, none) ∧ item .ofText d = .ok a := by
  unfold decodeText at h
  split at h
  rename_i d trailing hread
  split at h
  · cases h
  · cases h
  · rename_i hitem
    cases h
    exact ⟨d, hread, hitem⟩

theorem decodeText_eq_ok {item : Decoder α} {source : String} {a : α}
    (h : decodeText item source = .ok a) : item .ofText (Doc.read source).1 = .ok a := by
  obtain ⟨d, hread, hitem⟩ := decodeText_eq_read h
  rwa [hread]

end Success

/-! ## Decoders that look at the whole tree -/

mutual

/-- A tree with a value was read to its end. -/
theorem hardFault_of_toValue : (d : Doc) → (depth : Nat) → (v : Value) → d.toValue depth = .ok v →
    d.hardFault = none
  | .null, _, _, _ => rfl
  | .bool _, _, _, _ => rfl
  | .num _, _, _, _ => rfl
  | .str _ _, _, _, _ => rfl
  | .broken _, _, _, h => by cases h
  | .arr _ _, 0, _, h => by cases h
  | .arr items stop, depth + 1, v, h => by
    simp only [Doc.toValue] at h
    split at h
    · cases h
    · cases h
    · rename_i hitems
      rw [Doc.hardFault, itemsFault_of_itemValues items depth _ hitems]
      rfl
  | .obj _ _, 0, _, h => by cases h
  | .obj fields stop, depth + 1, v, h => by
    simp only [Doc.toValue] at h
    split at h
    · cases h
    · cases h
    · rename_i hfields
      rw [Doc.hardFault, fieldsFault_of_fieldValues fields depth _ hfields]
      rfl

theorem itemsFault_of_itemValues : (ds : List Doc) → (depth : Nat) → (vs : List Value) →
    itemValues depth ds = .ok vs → itemsFault ds = none
  | [], _, _, _ => rfl
  | d :: ds, depth, vs, h => by
    unfold itemValues at h
    split at h
    · cases h
    split at h
    · cases h
    · rename_i hvalue _ _ hvalues
      rw [itemsFault, hardFault_of_toValue d depth _ hvalue,
        itemsFault_of_itemValues ds depth _ hvalues]
      rfl

theorem fieldsFault_of_fieldValues : (fields : List (String × Option Fault × Doc)) →
    (depth : Nat) → (kvs : List (String × Value)) → fieldValues depth fields = .ok kvs →
    fieldsFault fields = none
  | [], _, _, _ => rfl
  | (_, some f, _) :: _, _, _, h => by cases h
  | (k, none, d) :: rest, depth, kvs, h => by
    unfold fieldValues at h
    split at h
    · cases h
    split at h
    · cases h
    · rename_i hvalue _ _ hvalues
      rw [fieldsFault, hardFault_of_toValue d depth _ hvalue,
        fieldsFault_of_fieldValues rest depth _ hvalues]
      rfl

end

/-- A decoder that meets every fault at which the reader stopped. -/
def Thorough (item : Decoder α) : Prop := ∀ s d a, item s d = .ok a → d.hardFault = none

theorem anyValue_thorough : Thorough anyValue := fun _ d _ h =>
  hardFault_of_toValue d _ _ (anyValue_eq_ok h)

theorem text_thorough : Thorough text := by
  intro s d a h
  unfold text textAs at h
  split at h
  · rfl
  · exact absurd h (wrongKind_ne_ok _ _ _)

theorem optional_thorough {item : Decoder α} (hitem : Thorough item) :
    Thorough (optional item) := by
  intro s d a h
  unfold optional at h
  split at h
  · rfl
  · obtain ⟨b, hb, -⟩ := map_eq_ok.mp h
    exact hitem s d b hb

theorem itemsFault_of_decodeItems {item : Doc → Except Misfit α}
    (hitem : ∀ d a, item d = .ok a → d.hardFault = none) {ds : List Doc} {as : List α}
    (h : decodeItems item ds = .ok as) : itemsFault ds = none := by
  induction ds generalizing as with
  | nil => rfl
  | cons d ds ih =>
    unfold decodeItems at h
    split at h
    · cases h
    rename_i hfirst
    split at h
    · cases h
    rename_i hrest
    rw [itemsFault, hitem d _ hfirst, ih hrest]
    rfl

theorem list_thorough {item : Decoder α} (hitem : Thorough item) : Thorough (list item) := by
  intro s d as h
  unfold list at h
  split at h
  · obtain ⟨_, -, h⟩ := bind_eq_ok.mp h
    obtain ⟨bs, hitems, h⟩ := bind_eq_ok.mp h
    split at h
    · cases h
    · rw [Doc.hardFault, itemsFault_of_decodeItems (hitem s.inner) hitems]
      rfl
  · exact absurd h (wrongKind_ne_ok _ _ _)

theorem fieldsFault_of_takeFields {set : String → Option (α → Decoder α)} {s : Scope}
    (hset : ∀ k step, set k = some step → ∀ acc, Thorough (step acc)) {seen seen' : List String}
    {acc acc' : α} {fields : List (String × Option Fault × Doc)}
    (h : takeFields set s seen acc fields = .ok (seen', acc')) : fieldsFault fields = none := by
  induction fields generalizing seen acc with
  | nil => rfl
  | cons x fields ih =>
    obtain ⟨k, flaw, d⟩ := x
    cases flaw with
    | some f => cases h
    | none =>
      unfold takeFields at h
      split at h
      · split at h
        · cases h
        · rename_i hfault
          rw [fieldsFault, hfault, ih h]
          rfl
      · rename_i step hstep
        split at h
        · cases h
        split at h
        · cases h
        · rename_i hok
          rw [fieldsFault, hset k step hstep acc s d _ hok, ih h]
          rfl

theorem fieldsFault_zip {names : List String} {items : List Doc} (h : items.length ≤ names.length) :
    fieldsFault ((names.zip items).map fun p => (p.1, none, p.2)) = itemsFault items := by
  induction items generalizing names with
  | nil => simp [fieldsFault, itemsFault]
  | cons d items ih =>
    cases names with
    | nil => cases h
    | cons k names =>
      rw [List.zip_cons_cons, List.map_cons, fieldsFault, itemsFault]
      rw [ih (Nat.le_of_succ_le_succ h)]

theorem RecordShape.decode_thorough {r : RecordShape α}
    (hset : ∀ k step, r.set k = some step → ∀ acc, Thorough (step acc)) : Thorough r.decode := by
  intro s d a h
  unfold RecordShape.decode at h
  split at h
  · obtain ⟨_, -, h⟩ := bind_eq_ok.mp h
    obtain ⟨⟨seen, acc⟩, htake, h⟩ := bind_eq_ok.mp h
    simp only at h
    split at h
    · cases h
    · rw [Doc.hardFault, fieldsFault_of_takeFields hset htake]
      rfl
  · rename_i items stop
    obtain ⟨_, -, h⟩ := bind_eq_ok.mp h
    obtain ⟨⟨seen, acc⟩, htake, h⟩ := bind_eq_ok.mp h
    simp only at h
    split at h
    · cases h
    rename_i hlength
    split at h
    · cases h
    · cases h
    · -- An array with no more items than the record has fields is looked at up to its end.
      rw [Doc.hardFault, ← fieldsFault_zip (Nat.not_lt.mp hlength),
        fieldsFault_of_takeFields hset htake]
      rfl
  · exact absurd h (wrongKind_ne_ok _ _ _)

/-! ## What the fields of a record keep -/

section Preserves

variable {set : String → Option (α → Decoder α)} {s : Scope} {seen seen' : List String}
  {acc acc' : α} {d : Doc} {fields : List (String × Option Fault × Doc)} {P : Doc → Prop}
  {Q : α → Prop} {R : List String → α → Prop}

/-- The fields of a record keep a property of records, each decoded from a tree with a property of
trees. -/
def Preserves (set : String → Option (α → Decoder α)) (s : Scope) (P : Doc → Prop)
    (Q : α → Prop) : Prop :=
  ∀ k step d acc acc', set k = some step → P d → step acc s d = .ok acc' → Q acc → Q acc'

/-- A field keeps a property of the names that were met and of the record. -/
def Extends (set : String → Option (α → Decoder α)) (s : Scope) (P : Doc → Prop)
    (R : List String → α → Prop) : Prop :=
  ∀ seen k step d acc acc', set k = some step → P d → step acc s d = .ok acc' → R seen acc →
    R (k :: seen) acc'

theorem takeFields_extends (hset : Extends set s P R) (hfields : ∀ x ∈ fields, P x.2.2)
    (h : takeFields set s seen acc fields = .ok (seen', acc')) (hacc : R seen acc) :
    R seen' acc' := by
  induction fields generalizing seen acc with
  | nil =>
    cases h
    exact hacc
  | cons x fields ih =>
    obtain ⟨k, flaw, d⟩ := x
    obtain ⟨hd, hrest⟩ := List.forall_mem_cons.mp hfields
    cases flaw with
    | some f => cases h
    | none =>
      unfold takeFields at h
      split at h
      · split at h
        · cases h
        · exact ih hrest h hacc
      · rename_i step hstep
        split at h
        · cases h
        split at h
        · cases h
        · rename_i hok
          exact ih hrest h (hset seen k step d acc _ hstep hd hok hacc)

theorem takeFields_preserves (hset : Preserves set s P Q) (hfields : ∀ x ∈ fields, P x.2.2)
    (h : takeFields set s seen acc fields = .ok (seen', acc')) (hacc : Q acc) : Q acc' := by
  have hextends : Extends set s P fun _ => Q := fun _ => hset
  exact takeFields_extends hextends hfields h hacc

/-- A property that the fields of a record keep holds of every record that is decoded. -/
theorem RecordShape.decode_preserves {r : RecordShape α} (hset : Preserves r.set s.inner P Q)
    (hstart : Q r.start) (hd : ∀ d' ∈ d.children, P d') {a : α} (h : r.decode s d = .ok a) :
    Q a := by
  unfold RecordShape.decode at h
  split at h
  · rename_i fields stop
    have hfields : ∀ x ∈ fields, P x.2.2 := List.forall_mem_map.mp hd
    obtain ⟨_, -, h⟩ := bind_eq_ok.mp h
    obtain ⟨⟨seen, acc⟩, htake, h⟩ := bind_eq_ok.mp h
    have hacc := takeFields_preserves hset hfields htake hstart
    simp only at h
    split at h
    · cases h
    split at h
    · cases h
    · cases h
      exact hacc
  · rename_i items stop
    have hpairs : ∀ x ∈ (r.names.zip items).map fun p => (p.1, (none : Option Fault), p.2),
        P x.2.2 := by
      rw [List.forall_mem_map]
      exact fun p hp => hd _ (List.of_mem_zip hp).2
    obtain ⟨_, -, h⟩ := bind_eq_ok.mp h
    obtain ⟨⟨seen, acc⟩, htake, h⟩ := bind_eq_ok.mp h
    have hacc := takeFields_preserves hset hpairs htake hstart
    simp only at h
    split at h
    · cases h
    split at h
    · cases h
    · cases h
    · cases h
      exact hacc
  · exact absurd h (wrongKind_ne_ok _ _ _)

end Preserves

end Enclave.Json
