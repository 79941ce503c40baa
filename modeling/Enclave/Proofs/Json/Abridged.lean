import Enclave.Proofs.Json.Variant

/-!
# Documents with members left out

A document that somebody edits by hand lacks members of the one that was written, and the others
stand in any order. `Abridges` says so of an object and `AbridgesDeep` of an object with sections,
objects in its members that are abridged too. A record all of whose fields have defaults is decoded
from what is left (`RecordShape.decode_abridged`): what matters is which names are met, never when.
-/

namespace Enclave.Json

variable {α β : Type}

/-- An object without the members that are left out, the others in any order. -/
inductive Abridges (gone : String → Bool) : Value → Value → Prop where
  | obj {kvs kept : Fields} (h : kept.Perm (kvs.filter fun kv => !gone kv.1)) :
      Abridges gone (.obj kvs) (.obj kept)

/-- A member that is kept: the objects of sections may be abridged. -/
def KeepsMember (sections : List String) (within : String → String → Bool)
    (kv kept : String × Value) : Prop :=
  kept.1 = kv.1 ∧
    if kv.1 ∈ sections then Abridges (within kv.1) kv.2 kept.2 else kept.2 = kv.2

/-- An object without the members that are left out of it or of its sections. -/
inductive AbridgesDeep (sections : List String) (gone : String → Bool)
    (within : String → String → Bool) : Value → Value → Prop where
  | obj {kvs inner kept : Fields} (hinner : List.Forall₂ (KeepsMember sections within) kvs inner)
      (h : Abridges gone (.obj inner) (.obj kept)) :
      AbridgesDeep sections gone within (.obj kvs) (.obj kept)

/-- An object without the members that are left out. -/
def abridge (gone : String → Bool) : Value → Value
  | .obj kvs => .obj (kvs.filter fun kv => !gone kv.1)
  | v => v

/-- Members with the sections among them abridged. -/
def abridgeSections (sections : List String) (within : String → String → Bool) (kvs : Fields) :
    Fields :=
  kvs.map fun kv => (kv.1, if kv.1 ∈ sections then abridge (within kv.1) kv.2 else kv.2)

/-- Whatever is left out of an object and of its sections, there is a document of the rest. -/
theorem AbridgesDeep.of_perm {sections : List String} {gone : String → Bool}
    {within : String → String → Bool} {kvs kept : Fields}
    (hobj : ∀ kv ∈ kvs, kv.1 ∈ sections → ∃ fields, kv.2 = .obj fields)
    (h : kept.Perm ((abridgeSections sections within kvs).filter fun kv => !gone kv.1)) :
    AbridgesDeep sections gone within (.obj kvs) (.obj kept) := by
  refine .obj ?_ (.obj h)
  rw [abridgeSections, List.forall₂_map_right_iff, List.forall₂_same]
  intro kv hkv
  refine ⟨rfl, ?_⟩
  split
  · rename_i hk
    obtain ⟨fields, hfields⟩ := hobj kv hkv hk
    rw [hfields]
    exact .obj .rfl
  · rfl

/-- A text of a document: on one line, over lines, or written in another way that reads as it. -/
inductive Holds (doc : Value) : String → Prop where
  | compact : Holds doc doc.compact
  | pretty : Holds doc doc.pretty
  | read {text : String} (h : Doc.read text = (Doc.ofValue doc, none)) : Holds doc text

theorem Holds.decodeText {doc : Value} {text : String} (h : Holds doc text)
    (hnumbers : ∀ n ∈ doc.numbers, n.Carried) (item : Decoder α) :
    Json.decodeText item text = item .ofText (Doc.ofValue doc) := by
  cases h with
  | compact => exact decodeText_compact hnumbers
  | pretty => exact decodeText_pretty hnumbers
  | read h => exact decodeText_of_read h

/-! ## What is left -/

theorem fieldNumbers_eq (kvs : Fields) :
    fieldNumbers kvs = kvs.flatMap fun kv => kv.2.numbers := by
  induction kvs with
  | nil => rfl
  | cons kv kvs ih => rw [fieldNumbers, ih, List.flatMap_cons]

/-- What is left of an object has no other numbers. -/
theorem Abridges.numbers {gone : String → Bool} {v w : Value} (h : Abridges gone v w)
    {n : Numeral} (hn : n ∈ w.numbers) : n ∈ v.numbers := by
  obtain ⟨hperm⟩ := h
  rw [Value.numbers, fieldNumbers_eq, List.mem_flatMap] at hn ⊢
  obtain ⟨kv, hkv, hn⟩ := hn
  exact ⟨kv, List.mem_of_mem_filter (hperm.mem_iff.mp hkv), hn⟩

theorem KeepsMember.names {sections : List String} {within : String → String → Bool}
    {kvs inner : Fields} (h : List.Forall₂ (KeepsMember sections within) kvs inner) :
    inner.map Prod.fst = kvs.map Prod.fst := by
  induction h with
  | nil => rfl
  | cons hmember _ ih => rw [List.map_cons, List.map_cons, hmember.1, ih]

theorem KeepsMember.numbers {sections : List String} {within : String → String → Bool}
    {kv kept : String × Value} (h : KeepsMember sections within kv kept) {n : Numeral}
    (hn : n ∈ kept.2.numbers) : n ∈ kv.2.numbers := by
  obtain ⟨-, hvalue⟩ := h
  split at hvalue
  · exact hvalue.numbers hn
  · rwa [hvalue] at hn

theorem AbridgesDeep.numbers {sections : List String} {gone : String → Bool}
    {within : String → String → Bool} {v w : Value} (h : AbridgesDeep sections gone within v w)
    {n : Numeral} (hn : n ∈ w.numbers) : n ∈ v.numbers := by
  obtain ⟨hinner, hkept⟩ := h
  have hn := hkept.numbers hn
  rw [Value.numbers, fieldNumbers_eq, List.mem_flatMap] at hn ⊢
  obtain ⟨kept, hmem, hn⟩ := hn
  obtain ⟨i, hi, rfl⟩ := List.getElem_of_mem hmem
  have hlength := hinner.length_eq
  exact ⟨_, List.getElem_mem (hlength ▸ hi), (hinner.get (hlength ▸ hi) hi).numbers hn⟩

/-! ## Records -/

section Records

variable {r : RecordShape α} {s : Scope} {without : (String → Bool) → α} {kvs : Fields}
  {gone : String → Bool} {sections : List String} {within : String → String → Bool}

/-- Which names have not been met. -/
def unmet (seen : List String) (k : String) : Bool := !seen.contains k

/-- A member that fills one field more of a record `without` the fields whose names have not been
met. -/
def Fills (r : RecordShape α) (s : Scope) (without : (String → Bool) → α)
    (kv : String × Value) : Prop :=
  ∃ step, r.set kv.1 = some step ∧ ∀ seen,
    step (without (unmet seen)) s (Doc.ofValue kv.2) = .ok (without (unmet (kv.1 :: seen)))

/-- One member after the other, the record is without those that have not been met. -/
theorem takeFields_fills (hfills : ∀ kv ∈ kvs, Fills r s without kv)
    (hnodup : (kvs.map Prod.fst).Nodup) {seen : List String}
    (hseen : ∀ kv ∈ kvs, kv.1 ∉ seen) :
    takeFields r.set s seen (without (unmet seen)) (docFields kvs)
      = .ok ((kvs.map Prod.fst).reverse ++ seen,
          without (unmet ((kvs.map Prod.fst).reverse ++ seen))) := by
  induction kvs generalizing seen with
  | nil => rfl
  | cons kv kvs ih =>
    obtain ⟨k, v⟩ := kv
    obtain ⟨⟨step, hset, hstep⟩, hfills⟩ := List.forall_mem_cons.mp hfills
    obtain ⟨hk, hseen⟩ := List.forall_mem_cons.mp hseen
    obtain ⟨hkvs, hnodup⟩ := List.nodup_cons.mp hnodup
    have hmet : ∀ kv ∈ kvs, kv.1 ∉ k :: seen := by
      intro kv hkv hmem
      rcases List.mem_cons.mp hmem with heq | hmem
      · exact hkvs (List.mem_map.mpr ⟨kv, hkv, heq⟩)
      · exact hseen kv hkv hmem
    have hcontains : seen.contains k = false := by simpa using hk
    rw [docFields, takeFields, hset]
    simp only [hcontains, Bool.false_eq_true, if_false, hstep, ih hfills hnodup hmet]
    rw [List.map_cons, List.reverse_cons, List.append_assoc, List.singleton_append]

/-- **A record is decoded from what is left of its document.** Its fields fill it from its start on,
in whatever order they come, and in the end it is without those that are gone. -/
theorem RecordShape.decode_abridged (without : (String → Bool) → α) {w : Value}
    (hguard : guardDepth s = .ok ()) (hrequired : r.required = [])
    (hstart : without (unmet []) = r.start)
    (hfills : ∀ kv ∈ kvs, Fills r s.inner without kv) (hnodup : (kvs.map Prod.fst).Nodup)
    (hnames : ∀ g, (∀ k ∈ kvs.map Prod.fst, g k = gone k) → without g = without gone)
    (h : Abridges gone (.obj kvs) w) : r.decode s (Doc.ofValue w) = .ok (without gone) := by
  obtain ⟨hperm⟩ := h
  rename_i kept
  have hmem : ∀ kv ∈ kept, kv ∈ kvs := fun kv hkv =>
    List.mem_of_mem_filter (hperm.mem_iff.mp hkv)
  have hkept : (kept.map Prod.fst).Nodup := by
    rw [(hperm.map Prod.fst).nodup_iff]
    exact hnodup.sublist (List.filter_sublist.map Prod.fst)
  have hseen : ∀ kv ∈ kept, kv.1 ∉ ([] : List String) := fun _ _ => List.not_mem_nil
  have htake := takeFields_fills (fun kv hkv => hfills kv (hmem kv hkv)) hkept hseen
  rw [List.append_nil, hnames (unmet (kept.map Prod.fst).reverse), hstart] at htake
  · exact RecordShape.decode_fields _ hguard htake (by simp [hrequired])
  · intro k hk
    obtain ⟨⟨k, v⟩, hkv, rfl⟩ := List.mem_map.mp hk
    -- A name that was kept is not gone, and a member of one that is not gone was kept.
    rw [unmet, Bool.not_eq_eq_eq_not, List.contains_eq_mem, Bool.eq_iff_iff, decide_eq_true_eq,
      List.mem_reverse, (hperm.map Prod.fst).mem_iff, List.mem_map]
    constructor
    · rintro ⟨kv, hkeep, hname⟩
      rw [← hname]
      exact (List.mem_filter.mp hkeep).2
    · exact fun hkeep => ⟨(k, v), List.mem_filter.mpr ⟨hkv, hkeep⟩, rfl⟩

/-- The same where members are left out of sections too. -/
theorem RecordShape.decode_abridgedDeep (without : (String → Bool) → α) {w : Value}
    (hguard : guardDepth s = .ok ()) (hrequired : r.required = [])
    (hstart : without (unmet []) = r.start)
    (hfills : ∀ kv ∈ kvs, ∀ kept, KeepsMember sections within kv kept →
      Fills r s.inner without kept)
    (hnodup : (kvs.map Prod.fst).Nodup)
    (hnames : ∀ g, (∀ k ∈ kvs.map Prod.fst, g k = gone k) → without g = without gone)
    (h : AbridgesDeep sections gone within (.obj kvs) w) :
    r.decode s (Doc.ofValue w) = .ok (without gone) := by
  obtain ⟨hinner, hkept⟩ := h
  have hsame := KeepsMember.names hinner
  refine RecordShape.decode_abridged without hguard hrequired hstart ?_ (hsame ▸ hnodup)
    (hsame ▸ hnames) hkept
  intro kept hmem
  obtain ⟨i, hi, rfl⟩ := List.getElem_of_mem hmem
  have hlength := hinner.length_eq
  exact hfills _ (List.getElem_mem (hlength ▸ hi)) _ (hinner.get (hlength ▸ hi) hi)

/-! ### Single members -/

variable {k : String} {v : Value} {item : Decoder β} {put : α → β → α} {b : β}

theorem fills_of_field (hset : r.set k = field item put) (hitem : item s (Doc.ofValue v) = .ok b)
    (hput : ∀ seen, put (without (unmet seen)) b = without (unmet (k :: seen))) :
    Fills r s without (k, v) := by
  refine ⟨_, hset, fun seen => ?_⟩
  simp only [hitem, Except.map, hput]

/-- A member that is no section fills the record with what is decoded from its value. -/
theorem fills_of_plain (hk : k ∉ sections) (hset : r.set k = field item put)
    (hitem : item s (Doc.ofValue v) = .ok b)
    (hput : ∀ seen, put (without (unmet seen)) b = without (unmet (k :: seen))) :
    ∀ kept, KeepsMember sections within (k, v) kept → Fills r s without kept := by
  rintro ⟨_, w⟩ ⟨rfl, hvalue⟩
  rw [if_neg hk] at hvalue
  subst hvalue
  exact fills_of_field hset hitem hput

/-- A section fills the record with what is decoded from all that may be left of it. -/
theorem fills_of_section (hk : k ∈ sections) (hset : r.set k = field item put)
    (hitem : ∀ w, Abridges (within k) v w → item s (Doc.ofValue w) = .ok b)
    (hput : ∀ seen, put (without (unmet seen)) b = without (unmet (k :: seen))) :
    ∀ kept, KeepsMember sections within (k, v) kept → Fills r s without kept := by
  rintro ⟨_, w⟩ ⟨rfl, hvalue⟩
  rw [if_pos hk] at hvalue
  exact fills_of_field hset (hitem w hvalue) hput

end Records

end Enclave.Json
