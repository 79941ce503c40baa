import Enclave.Plan.Document
import Enclave.Proofs.Json.Variant

/-!
# Plans as documents

The document of a plan decodes to the plan (`Plan.decoder_ofValue`), whatever is left out of it, if
its integers fit into words and its condition is nested no deeper than the text allows. Every plan
that is decoded is like that (`Plan.fits_of_decoder`): a condition that was decoded is written in no
more levels than it was read from.
-/

namespace Enclave

open Json (Decoder RecordShape Value Doc Misfit Scope Numeral field docFields takeFields)

/-! ## Members that may be left out -/

/-- The names that were met, with one more if it was there. -/
def met (present : Bool) (k : String) (seen : List String) : List String :=
  if present then k :: seen else seen

@[simp]
theorem mem_met {present : Bool} {k j : String} {seen : List String} :
    j ∈ met present k seen ↔ present = true ∧ j = k ∨ j ∈ seen := by
  cases present <;> simp [met]

theorem mem_optionalMember {k : String} {v : Option Value} {kv : String × Value} :
    kv ∈ optionalMember k v ↔ ∃ w ∈ v, kv = (k, w) := by
  cases v <;> simp [optionalMember]

theorem mem_listMember {k : String} {vs : List Value} {kv : String × Value}
    (h : kv ∈ listMember k vs) : kv = (k, .arr vs) := by
  unfold listMember at h
  split at h
  · cases h
  · exact List.mem_singleton.mp h

section Members

variable {α β : Type} {set : String → Option (α → Decoder α)} {s : Scope} {seen : List String}
  {acc : α} {k : String} {rest : List (String × Option Json.Fault × Doc)}

/-- A member that may be absent is put into the record, where it is absent as yet. -/
theorem takeFields_optionalMember {item : Decoder β} {write : β → Value} {put : α → Option β → α}
    {v : Option β} (hset : set k = field (Json.optional item) put)
    (hseen : seen.contains k = false) (hput : put acc none = acc)
    (hitem : ∀ b ∈ v, item s (Doc.ofValue (write b)) = .ok b ∧ write b ≠ .null) :
    takeFields set s seen acc (docFields (optionalMember k (v.map write)) ++ rest)
      = takeFields set s (met v.isSome k seen) (put acc v) rest := by
  cases v with
  | none => rw [hput]; rfl
  | some b =>
    obtain ⟨hb, hne⟩ := hitem b rfl
    exact Json.takeFields_cons hset hseen (Json.optional_ofValue_of_ne hne hb)

theorem takeFields_optionalMember_last {item : Decoder β} {write : β → Value}
    {put : α → Option β → α} {v : Option β} (hset : set k = field (Json.optional item) put)
    (hseen : seen.contains k = false) (hput : put acc none = acc)
    (hitem : ∀ b ∈ v, item s (Doc.ofValue (write b)) = .ok b ∧ write b ≠ .null) :
    takeFields set s seen acc (docFields (optionalMember k (v.map write)))
      = .ok (met v.isSome k seen, put acc v) := by
  rw [← List.append_nil (docFields _), takeFields_optionalMember hset hseen hput hitem]
  rfl

/-- A list that may be empty is put into the record, where it is empty as yet. -/
theorem takeFields_listMember {item : Decoder β} {write : β → Value} {put : α → List β → α}
    {bs : List β} (hset : set k = field (Json.list item) put) (hseen : seen.contains k = false)
    (hput : put acc [] = acc) (hguard : Json.guardDepth s = .ok ())
    (hitem : ∀ b ∈ bs, item s.inner (Doc.ofValue (write b)) = .ok b) :
    takeFields set s seen acc (docFields (listMember k (bs.map write)) ++ rest)
      = takeFields set s (met (!bs.isEmpty) k seen) (put acc bs) rest := by
  cases bs with
  | nil => rw [hput]; rfl
  | cons b bs => exact Json.takeFields_cons hset hseen (Json.list_ofValues hguard hitem)

end Members

/-! ## Literals -/

namespace Literal

/-- An integer that fits into a signed word. -/
def InWord : Literal → Prop
  | .int n => -(2 ^ 63) ≤ n ∧ n < 2 ^ 63
  | _ => True

/-- A double that is one, and is still the same after it was written and read. -/
def Survives : Literal → Prop
  | .float f => Decimal.isFinite f = true ∧ Json.Survives f
  | _ => True

variable {l : Literal}

/-- A double that is one. -/
def IsFinite : Literal → Prop
  | .float f => Decimal.isFinite f = true
  | _ => True

theorem Survives.isFinite (h : l.Survives) : l.IsFinite := by
  cases l with
  | float f => exact h.1
  | _ => trivial

/-- **A literal is told from its value alone.** -/
theorem decoder_ofValue (hword : l.InWord) (hfinite : l.IsFinite) (s : Scope) :
    decoder s (Doc.ofValue l.toJson) = .ok l := by
  cases l with
  | int n => exact if_pos hword
  | float f =>
    have hf : Decimal.isFinite f = true := hfinite
    rw [toJson, if_pos hf]
    rfl
  | _ => rfl

theorem inWord_of_decoder {s : Scope} {d : Doc} (h : decoder s d = .ok l) : l.InWord := by
  unfold decoder at h
  split at h
  case h_3 =>
    split at h
    case isTrue hword =>
      cases h
      exact hword
    case isFalse =>
      obtain ⟨f, -, rfl⟩ := map_eq_ok.mp h
      trivial
  case h_6 => split at h <;> cases h
  all_goals
    cases h
    trivial

theorem nesting_toJson (l : Literal) : l.toJson.nesting = 0 := by
  cases l with
  | float f => rw [toJson]; split <;> rfl
  | _ => rfl

theorem numbers_toJson (hword : l.InWord) (hdouble : l.Survives) :
    ∀ n ∈ l.toJson.numbers, n.Carried := by
  cases l with
  | int n =>
    intro m hm
    obtain rfl := List.mem_singleton.mp hm
    obtain ⟨hlow, hhigh⟩ := hword
    exact ⟨hlow, by omega⟩
  | float f =>
    rw [toJson, if_pos hdouble.1]
    intro m hm
    obtain rfl := List.mem_singleton.mp hm
    exact hdouble.2
  | _ => simp [toJson, Value.numbers]

end Literal

/-! ## Selections and sort keys -/

theorem Aggregate.decoder_ofValue (s : Scope) (a : Aggregate) :
    decoder s (Doc.ofValue (.str a.wire)) = .ok a := by
  cases a <;> rfl

theorem Comparison.decoder_ofValue (s : Scope) (c : Comparison) :
    decoder s (Doc.ofValue (.str c.wire)) = .ok c := by
  cases c <;> rfl

theorem text_of_optional (s : Scope) {t : Option String} :
    ∀ u ∈ t, Json.text s (Doc.ofValue (.str u)) = .ok u ∧ Value.str u ≠ .null :=
  fun u _ => ⟨rfl, by simp⟩

theorem nesting_optionalMember_str (k : String) (t : Option String) :
    Value.fieldNesting (optionalMember k (t.map .str)) = 0 := by
  cases t <;> rfl

theorem Selection.decoder_ofValue {s : Scope} (hs : 0 < s.depth) (x : Selection) :
    decoder s (Doc.ofValue x.toJson) = .ok x := by
  cases x with
  | column name label =>
    change Json.taggedVariant _ "kind" _ s (Doc.ofValue (.obj (("kind", .str "column") ::
      ("column", .str name) :: optionalMember "alias" (label.map .str)))) = _
    refine Json.taggedVariant_ofValue (met label.isSome "alias" ["column"]) (r := columnShape)
      rfl ?_ ?_ ?_ (by simp [columnShape])
    · cases label <;> simp [optionalMember]
    · simpa [Value.fieldNesting, Value.nesting, nesting_optionalMember_str] using hs
    · rw [docFields, Json.takeFields_cons rfl rfl (Json.text_ofValue _ name),
        takeFields_optionalMember_last rfl rfl rfl (text_of_optional _)]
  | aggregate how target label =>
    change Json.taggedVariant _ "kind" _ s (Doc.ofValue (.obj (("kind", .str "aggregate") ::
      ("func", .str how.wire) :: (optionalMember "column" (target.map .str) ++
        optionalMember "alias" (label.map .str))))) = _
    refine Json.taggedVariant_ofValue
      (met label.isSome "alias" (met target.isSome "column" ["func"])) (r := aggregateShape)
      rfl ?_ ?_ ?_ (by simp [aggregateShape])
    · cases target <;> cases label <;> simp [optionalMember]
    · cases target <;> cases label <;>
        simpa [Value.fieldNesting, Value.nesting, optionalMember] using hs
    · rw [docFields, Json.docFields_append,
        Json.takeFields_cons rfl rfl (Aggregate.decoder_ofValue _ how),
        takeFields_optionalMember rfl rfl rfl (text_of_optional _),
        takeFields_optionalMember_last rfl (by simp) rfl (text_of_optional _)]
      rfl

theorem Selection.numbers_toJson (x : Selection) : x.toJson.numbers = [] := by
  cases x with
  | column name label => cases label <;> rfl
  | aggregate how target label => cases target <;> cases label <;> rfl

theorem SortKey.decoder_ofValue {s : Scope} (hguard : Json.guardDepth s = .ok ()) (k : SortKey) :
    decoder s (Doc.ofValue k.toJson) = .ok k := by
  refine Json.RecordShape.decode_fields ["descending", "column"] hguard ?_ (by simp)
  simp only [docFields]
  rw [Json.takeFields_cons rfl rfl (Json.text_ofValue _ k.column),
    Json.takeFields_cons rfl rfl (Json.flag_ofValue _ k.descending)]
  rfl

/-! ## Conditions -/

namespace Condition

mutual

/-- The literals of a condition. -/
def literals : Condition → List Literal
  | .compare _ _ value => [value]
  | .isNull _ => []
  | .isNotNull _ => []
  | .all parts => literalsOf parts
  | .any parts => literalsOf parts
  | .not inner => inner.literals

def literalsOf : List Condition → List Literal
  | [] => []
  | p :: ps => p.literals ++ literalsOf ps

end

/-- The document of a condition is an object, so that one step at least is made. -/
theorem fuel_of_nesting {c : Condition} {fuel : Nat} (h : c.toJson.nesting ≤ fuel) :
    ∃ rest, fuel = rest + 1 := by
  have hpos : 0 < c.toJson.nesting := by
    cases c <;> simp only [toJson, Value.nesting] <;> omega
  exact Nat.exists_eq_add_one_of_ne_zero (by omega)

mutual

/-- A condition decodes from its document, by as many steps as it is nested deep. -/
theorem decode_ofValue : (c : Condition) → (∀ l ∈ c.literals, l.InWord ∧ l.Survives) →
    (fuel : Nat) → c.toJson.nesting ≤ fuel → (s : Scope) → c.toJson.nesting ≤ s.depth →
    decode fuel s (Doc.ofValue c.toJson) = .ok c
  | .compare column how value, hc, fuel, hfuel, s, hs => by
    obtain ⟨fuel, rfl⟩ := fuel_of_nesting hfuel
    obtain ⟨hword, hdouble⟩ := hc value (by simp [literals])
    have hflat := value.nesting_toJson
    refine Json.taggedVariant_ofValue ["value", "cmp", "column"] rfl (by simp) ?_ ?_
      (by simp)
    · simp only [toJson, Value.nesting, Value.fieldNesting, hflat] at hs ⊢
      omega
    · simp only [docFields]
      rw [Json.takeFields_cons rfl rfl (Json.text_ofValue _ column),
        Json.takeFields_cons rfl rfl (Comparison.decoder_ofValue _ how),
        Json.takeFields_cons rfl rfl (Literal.decoder_ofValue hword hdouble.isFinite _)]
      rfl
  | .isNull column, _, fuel, hfuel, s, hs => by
    obtain ⟨fuel, rfl⟩ := fuel_of_nesting hfuel
    exact Json.taggedVariant_single rfl rfl rfl (by simp) hs (Json.text_ofValue _ column)
  | .isNotNull column, _, fuel, hfuel, s, hs => by
    obtain ⟨fuel, rfl⟩ := fuel_of_nesting hfuel
    exact Json.taggedVariant_single rfl rfl rfl (by simp) hs (Json.text_ofValue _ column)
  | .all parts, hc, fuel, hfuel, s, hs => by
    obtain ⟨fuel, rfl⟩ := fuel_of_nesting hfuel
    simp only [toJson, Value.nesting, Value.fieldNesting] at hfuel hs
    have hparts := decodeItems_ofValue parts hc fuel (by omega) ⟨.aside, s.depth - 1 - 1⟩
      (by simp only; omega)
    exact Json.taggedVariant_single rfl rfl rfl (by simp) (by rw [Value.nesting]; omega)
      (Json.list_ofValue rfl hparts)
  | .any parts, hc, fuel, hfuel, s, hs => by
    obtain ⟨fuel, rfl⟩ := fuel_of_nesting hfuel
    simp only [toJson, Value.nesting, Value.fieldNesting] at hfuel hs
    have hparts := decodeItems_ofValue parts hc fuel (by omega) ⟨.aside, s.depth - 1 - 1⟩
      (by simp only; omega)
    exact Json.taggedVariant_single rfl rfl rfl (by simp) (by rw [Value.nesting]; omega)
      (Json.list_ofValue rfl hparts)
  | .not inner, hc, fuel, hfuel, s, hs => by
    obtain ⟨fuel, rfl⟩ := fuel_of_nesting hfuel
    simp only [toJson, Value.nesting, Value.fieldNesting] at hfuel hs
    have hinner := decode_ofValue inner hc fuel (by omega) ⟨.aside, s.depth - 1⟩
      (by simp only; omega)
    exact Json.taggedVariant_single rfl rfl rfl (by simp) (by omega) hinner

theorem decodeItems_ofValue : (parts : List Condition) →
    (∀ l ∈ literalsOf parts, l.InWord ∧ l.Survives) →
    (fuel : Nat) → Value.itemNesting (partsToJson parts) ≤ fuel → (s : Scope) →
    Value.itemNesting (partsToJson parts) ≤ s.depth →
    Json.decodeItems (decode fuel s) (Json.docItems (partsToJson parts)) = .ok parts
  | [], _, _, _, _, _ => rfl
  | p :: ps, hc, fuel, hfuel, s, hs => by
    rw [partsToJson, Value.itemNesting, Nat.max_le] at hfuel hs
    rw [literalsOf, List.forall_mem_append] at hc
    rw [partsToJson, Json.docItems, Json.decodeItems,
      decode_ofValue p hc.1 fuel hfuel.1 s hs.1]
    simp only [decodeItems_ofValue ps hc.2 fuel hfuel.2 s hs.2]

end

mutual

/-- The numbers in a document of a condition are those of its literals. -/
theorem numbers_toJson : (c : Condition) → (∀ l ∈ c.literals, l.InWord ∧ l.Survives) →
    ∀ n ∈ c.toJson.numbers, n.Carried
  | .compare column how value, hc, n, hn => by
    obtain ⟨hword, hdouble⟩ := hc value (by simp [literals])
    refine Literal.numbers_toJson hword hdouble n ?_
    simpa [toJson, Value.numbers, Json.fieldNumbers] using hn
  | .isNull _, _, n, hn => by simp [toJson, Value.numbers, Json.fieldNumbers] at hn
  | .isNotNull _, _, n, hn => by simp [toJson, Value.numbers, Json.fieldNumbers] at hn
  | .all parts, hc, n, hn =>
    partsNumbers_toJson parts hc n
      (by simpa [toJson, Value.numbers, Json.fieldNumbers] using hn)
  | .any parts, hc, n, hn =>
    partsNumbers_toJson parts hc n
      (by simpa [toJson, Value.numbers, Json.fieldNumbers] using hn)
  | .not inner, hc, n, hn =>
    numbers_toJson inner hc n (by simpa [toJson, Value.numbers, Json.fieldNumbers] using hn)

theorem partsNumbers_toJson : (parts : List Condition) →
    (∀ l ∈ literalsOf parts, l.InWord ∧ l.Survives) →
    ∀ n ∈ Json.itemNumbers (partsToJson parts), n.Carried
  | [], _, n, hn => by cases hn
  | p :: ps, hc, n, hn => by
    rw [literalsOf, List.forall_mem_append] at hc
    rw [partsToJson, Json.itemNumbers, List.mem_append] at hn
    exact hn.elim (numbers_toJson p hc.1 n) (partsNumbers_toJson ps hc.2 n)

end

/-- A condition whose integers are signed words and that is written in at most so many levels. -/
structure Fits (depth : Nat) (c : Condition) : Prop where
  words : ∀ l ∈ c.literals, l.InWord
  nesting : c.toJson.nesting ≤ depth

theorem mem_literalsOf {parts : List Condition} {l : Literal} :
    l ∈ literalsOf parts ↔ ∃ p ∈ parts, l ∈ p.literals := by
  induction parts with
  | nil => simp [literalsOf]
  | cons p ps ih => simp [literalsOf, ih]

theorem partsToJson_eq (parts : List Condition) : partsToJson parts = parts.map toJson := by
  induction parts with
  | nil => rfl
  | cons p ps ih => rw [partsToJson, ih, List.map_cons]

/-- Parts that fit are written one level further out, in a list. -/
theorem itemNesting_parts {depth : Nat} {parts : List Condition} (h : ∀ p ∈ parts, p.Fits depth) :
    Value.itemNesting (partsToJson parts) ≤ depth := by
  rw [partsToJson_eq, Value.itemNesting_le_iff, List.forall_mem_map]
  exact fun p hp => (h p hp).nesting

theorem Fits.all {depth : Nat} {parts : List Condition} (h : ∀ p ∈ parts, p.Fits depth) :
    (Condition.all parts).Fits (depth + 2) where
  words l hl := by
    obtain ⟨p, hp, hl⟩ := mem_literalsOf.mp hl
    exact (h p hp).words l hl
  nesting := by
    have hparts := itemNesting_parts h
    simp only [toJson, Value.nesting, Value.fieldNesting]
    omega

theorem Fits.any {depth : Nat} {parts : List Condition} (h : ∀ p ∈ parts, p.Fits depth) :
    (Condition.any parts).Fits (depth + 2) where
  words := (Fits.all h).words
  nesting := (Fits.all h).nesting

theorem Fits.not {depth : Nat} {inner : Condition} (h : inner.Fits depth) :
    (Condition.not inner).Fits (depth + 1) where
  words := h.words
  nesting := by
    have hinner := h.nesting
    simp only [toJson, Value.nesting, Value.fieldNesting]
    omega

theorem sound_shapes (inner : Decoder Condition) :
    ∀ choice ∈ shapes inner, RecordShape.Sound choice.2 := by
  simp [shapes, RecordShape.Sound, field]

/-- What the members of a comparison make is a comparison with a literal that was decoded. -/
theorem comparison_of_takeFields (inner : Decoder Condition) {r : RecordShape Condition} {s : Scope}
    {fields : List (String × Option Json.Fault × Doc)} {seen : List String} {c : Condition}
    (hr : (shapes inner).lookup "compare" = some r)
    (h : Json.takeFields r.set s [] r.start fields = .ok (seen, c)) :
    ∃ column how value, c = .compare column how value ∧ value.InWord := by
  cases hr
  refine Json.takeFields_extends (P := fun _ => True)
    (R := fun _ c => ∃ column how value, c = .compare column how value ∧ value.InWord)
    ?_ (fun _ _ => trivial) h ⟨"", .eq, .null, rfl, trivial⟩
  rintro _ k step d _ acc' hset - hstep ⟨column, how, value, rfl, hword⟩
  simp only at hset
  split at hset
  case h_1 =>
    cases hset
    obtain ⟨v, -, rfl⟩ := map_eq_ok.mp hstep
    exact ⟨v, how, value, rfl, hword⟩
  case h_2 =>
    cases hset
    obtain ⟨v, -, rfl⟩ := map_eq_ok.mp hstep
    exact ⟨column, v, value, rfl, hword⟩
  case h_3 =>
    cases hset
    obtain ⟨v, hv, rfl⟩ := map_eq_ok.mp hstep
    exact ⟨column, how, v, rfl, Literal.inWord_of_decoder hv⟩
  case h_4 => cases hset

/-- What is known of the conditions inside a condition: those that were decoded from a value fit
into its levels. -/
def Bounded (inner : Decoder Condition) : Prop :=
  ∀ (depth : Nat) (d : Doc) (c : Condition), inner ⟨.aside, depth⟩ d = .ok c →
    (∃ v, d.toValue depth = .ok v) → c.Fits depth

section Decoded

variable {inner : Decoder Condition} (hinner : Bounded inner) {depth : Nat}
include hinner

theorem list_decoded {d : Doc} {parts : List Condition} (hd : ∃ v, d.toValue depth = .ok v)
    (h : Json.list inner ⟨.aside, depth⟩ d = .ok parts) :
    0 < depth ∧ ∀ p ∈ parts, p.Fits (depth - 1) := by
  obtain ⟨v, hv⟩ := hd
  refine ⟨?_, fun p hp => ?_⟩
  · by_contra hzero
    obtain rfl : depth = 0 := by omega
    unfold Json.list at h
    split at h
    · cases hv
    · exact absurd h (Json.wrongKind_ne_ok _ _ _)
  · obtain ⟨d', hd', hp⟩ := Json.list_eq_ok h p hp
    exact hinner _ d' p hp (Json.toValue_children hv hd').2

/-- What the members of a variant make of it fits into one level more than they do. -/
theorem fits_of_taken {choice : String × RecordShape Condition} (hchoice : choice ∈ shapes inner)
    {fields : List (String × Option Json.Fault × Doc)} {seen : List String} {c : Condition}
    (htaken : choice.2.Taken ⟨.aside, depth⟩ fields seen c)
    (hfields : ∀ x ∈ fields, ∃ v, x.2.2.toValue depth = .ok v) : c.Fits (depth + 1) := by
  obtain ⟨htake, hrequired⟩ := htaken
  simp only [shapes, List.mem_cons, List.not_mem_nil, or_false] at hchoice
  rcases hchoice with rfl | rfl | rfl | rfl | rfl | rfl
  -- a comparison
  · obtain ⟨column, how, value, rfl, hword⟩ := comparison_of_takeFields inner rfl htake
    refine ⟨by simpa [literals] using hword, ?_⟩
    simp [toJson, Value.nesting, Value.fieldNesting, Literal.nesting_toJson]
  -- a column that is null, and one that is not
  · obtain ⟨x, -, column, -, rfl⟩ := Json.takeFields_single (k := "column") rfl
      (fun j hj => by simp only) htake (hrequired _ (by simp))
    exact ⟨by simp [literals], by simp [toJson, Value.nesting, Value.fieldNesting]⟩
  · obtain ⟨x, -, column, -, rfl⟩ := Json.takeFields_single (k := "column") rfl
      (fun j hj => by simp only) htake (hrequired _ (by simp))
    exact ⟨by simp [literals], by simp [toJson, Value.nesting, Value.fieldNesting]⟩
  -- all, and any
  · obtain ⟨x, hx, parts, hparts, rfl⟩ := Json.takeFields_single (k := "all") rfl
      (fun j hj => by simp only) htake (hrequired _ (by simp))
    obtain ⟨hdepth, hfits⟩ := list_decoded hinner (hfields x hx) hparts
    have h := Fits.all hfits
    rwa [show depth - 1 + 2 = depth + 1 by omega] at h
  · obtain ⟨x, hx, parts, hparts, rfl⟩ := Json.takeFields_single (k := "any") rfl
      (fun j hj => by simp only) htake (hrequired _ (by simp))
    obtain ⟨hdepth, hfits⟩ := list_decoded hinner (hfields x hx) hparts
    have h := Fits.any hfits
    rwa [show depth - 1 + 2 = depth + 1 by omega] at h
  -- not
  · obtain ⟨x, hx, part, hpart, rfl⟩ := Json.takeFields_single (k := "inner") rfl
      (fun j hj => by simp only) htake (hrequired _ (by simp))
    exact Fits.not (hinner depth _ part hpart (hfields x hx))

end Decoded

/-- What is decoded fits into the levels of the text or of the value that it is decoded from. -/
theorem fits_of_decode (fuel : Nat) {s : Scope} {d : Doc} {c : Condition}
    (h : decode fuel s d = .ok c) (hs : s.origin = .text ∨ ∃ v, d.toValue s.depth = .ok v) :
    c.Fits s.depth := by
  -- On the steps that are left; a condition inside is decoded from a value, with one step less.
  induction fuel generalizing s d c with
  | zero => cases h
  | succ fuel ih =>
    have hinner : Bounded (decode fuel) := fun depth d c hc hd => ih hc (.inr hd)
    have hdepth := Json.taggedVariant_depth h hs
    obtain ⟨choice, hchoice, fields, seen, htaken, hfields⟩ :=
      Json.taggedVariant_taken (sound_shapes _) h
    have hfits := fits_of_taken hinner hchoice htaken hfields
    rwa [Nat.sub_add_cancel hdepth] at hfits

/-- A condition is read back from its document. -/
theorem Fits.decoder_ofValue {c : Condition} {s : Scope} (h : c.Fits s.depth)
    (hdoubles : ∀ l ∈ c.literals, l.Survives) : decoder s (Doc.ofValue c.toJson) = .ok c :=
  decode_ofValue c (fun l hl => ⟨h.words l hl, hdoubles l hl⟩) _
    (Nat.le_succ_of_le h.nesting) s h.nesting

end Condition

/-! ## Plans -/

namespace Plan

/-- The literals of a plan. -/
def literals (p : Plan) : List Literal := (p.filter.map Condition.literals).getD []

/-- A plan whose integers fit into words and whose condition is written in at most so many
levels. -/
structure Fits (depth : Nat) (p : Plan) : Prop where
  filter : ∀ c ∈ p.filter, c.Fits depth
  limit : ∀ n ∈ p.limit, n < 2 ^ 64

theorem fits_of_decoder {s : Scope} (hs : s.origin = .text) {d : Doc} {p : Plan}
    (h : decoder s d = .ok p) : p.Fits s.inner.depth := by
  refine Json.RecordShape.decode_preserves (P := fun _ => True) (Q := Fits s.inner.depth) ?_
    ⟨by simp, by simp⟩ (fun _ _ => trivial) h
  intro k step d acc acc' hset _ hstep hacc
  simp only at hset
  split at hset
  case h_3 =>
    cases hset
    obtain ⟨v, hv, rfl⟩ := map_eq_ok.mp hstep
    refine ⟨fun c hc => ?_, hacc.limit⟩
    obtain rfl : v = some c := hc
    exact Condition.fits_of_decode _ (Json.optional_eq_ok hv) (.inl hs)
  case h_6 =>
    cases hset
    obtain ⟨v, hv, rfl⟩ := map_eq_ok.mp hstep
    refine ⟨hacc.filter, fun n hn => ?_⟩
    obtain rfl : v = some n := hn
    exact Json.word_eq_ok (Json.optional_eq_ok hv)
  case h_7 => cases hset
  all_goals
    cases hset
    obtain ⟨v, -, rfl⟩ := map_eq_ok.mp hstep
    exact ⟨hacc.filter, hacc.limit⟩

/-- **The document of a plan decodes to the plan.** -/
theorem Fits.decoder_ofValue {s : Scope} {p : Plan} (h : p.Fits s.inner.depth)
    (hlevels : 3 ≤ s.depth) (hdoubles : ∀ l ∈ p.literals, l.Survives) :
    decoder s (Doc.ofValue p.toJson) = .ok p := by
  obtain ⟨table, select, filter, groupBy, orderBy, limit⟩ := p
  have hinner : 0 < s.inner.depth := by simp only [Scope.inner]; omega
  have hitem : 0 < s.inner.inner.depth := by simp only [Scope.inner]; omega
  have hguard := Json.guardDepth_of_pos hinner
  refine Json.RecordShape.decode_fields (met limit.isSome "limit"
    (met (!orderBy.isEmpty) "order_by" (met (!groupBy.isEmpty) "group_by"
      (met filter.isSome "filter" ["select", "table"]))))
    (Json.guardDepth_of_pos (by omega)) ?_ (by simp)
  have hfilter : ∀ c ∈ filter, Condition.decoder s.inner (Doc.ofValue c.toJson) = .ok c ∧
      c.toJson ≠ .null := by
    rintro c rfl
    exact ⟨(h.filter c rfl).decoder_ofValue hdoubles, by cases c <;> simp [Condition.toJson]⟩
  have hlimit : ∀ n ∈ limit, Json.word64 s.inner (Doc.ofValue (.nat n)) = .ok n ∧
      Value.nat n ≠ .null := fun n hn =>
    ⟨Json.word_ofValue 64 "u64" _ (h.limit n hn), by simp [Value.nat]⟩
  simp only [Json.docFields_append, List.append_assoc]
  simp only [docFields, List.cons_append, List.nil_append]
  rw [Json.takeFields_cons rfl rfl (Json.text_ofValue _ table),
    Json.takeFields_cons rfl rfl
      (Json.list_ofValues hguard fun x _ => Selection.decoder_ofValue hitem x),
    takeFields_optionalMember rfl rfl rfl hfilter,
    takeFields_listMember rfl (by simp) rfl hguard fun t _ => Json.text_ofValue _ t,
    takeFields_listMember rfl (by simp) rfl hguard fun k _ =>
      SortKey.decoder_ofValue (Json.guardDepth_of_pos hitem) k,
    ← List.append_nil (docFields (optionalMember "limit" _)),
    takeFields_optionalMember rfl (by simp) rfl hlimit]
  rfl

/-- The numbers in a document of a plan are those of its literals, and its limit. -/
theorem Fits.numbers_toJson {p : Plan} {depth : Nat} (h : p.Fits depth)
    (hdoubles : ∀ l ∈ p.literals, l.Survives) : ∀ n ∈ p.toJson.numbers, n.Carried := by
  obtain ⟨table, select, filter, groupBy, orderBy, limit⟩ := p
  intro n hn
  obtain ⟨kv, hkv, hn⟩ := Json.mem_fieldNumbers.mp hn
  simp only [List.mem_append, List.mem_cons, List.not_mem_nil, or_false] at hkv
  rcases hkv with ((((rfl | rfl) | hkv) | hkv) | hkv) | hkv
  · cases hn
  · obtain ⟨v, hv, hn⟩ := Json.mem_itemNumbers.mp hn
    obtain ⟨x, -, rfl⟩ := List.mem_map.mp hv
    rw [x.numbers_toJson] at hn
    cases hn
  · obtain ⟨v, hv, rfl⟩ := mem_optionalMember.mp hkv
    obtain ⟨c, rfl, rfl⟩ := Option.map_eq_some_iff.mp hv
    exact Condition.numbers_toJson c
      (fun l hl => ⟨(h.filter c rfl).words l hl, hdoubles l hl⟩) n hn
  · obtain rfl := mem_listMember hkv
    obtain ⟨v, hv, hn⟩ := Json.mem_itemNumbers.mp hn
    obtain ⟨t, -, rfl⟩ := List.mem_map.mp hv
    cases hn
  · obtain rfl := mem_listMember hkv
    obtain ⟨v, hv, hn⟩ := Json.mem_itemNumbers.mp hn
    obtain ⟨k, -, rfl⟩ := List.mem_map.mp hv
    cases hn
  · obtain ⟨v, hv, rfl⟩ := mem_optionalMember.mp hkv
    obtain ⟨m, rfl, rfl⟩ := Option.map_eq_some_iff.mp hv
    obtain rfl := List.mem_singleton.mp hn
    have hlimit := h.limit m rfl
    constructor <;> omega

end Plan

end Enclave
