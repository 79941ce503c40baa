import Enclave.Json.Document
import Enclave.Proofs.Json.Canonical

/-!
# What the reader can give
-/

namespace Enclave.Json

/-! ## Reading a whole text -/

/-- What a text was read as, when nothing is wrong behind it. -/
theorem Doc.read_eq {text : String} {d : Doc} (h : Doc.read text = (d, none)) :
    ∃ rest, readValue (3 * text.toList.length + 3) text.toList = (d, rest) ∧
      ∀ cs, rest = some cs → skipBlank cs = [] := by
  unfold Doc.read at h
  simp only at h
  split at h
  · rename_i hread
    cases h
    exact ⟨none, hread, by simp⟩
  · rename_i rest hread
    simp only [Prod.mk.injEq, ite_eq_left_iff, reduceCtorEq, imp_false, not_not,
      List.isEmpty_iff] at h
    obtain ⟨rfl, hblank⟩ := h
    exact ⟨some rest, hread, by rintro _ ⟨⟩; exact hblank⟩

theorem Value.parse_eq_ok {text : String} {v : Value} (h : Value.parse text = .ok v) :
    ∃ d, Doc.read text = (d, none) ∧ d.toValue maxDepth = .ok v := by
  rcases hread : Doc.read text with ⟨d, trailing⟩
  rw [Value.parse, hread] at h
  cases hvalue : d.toValue maxDepth with
  | error f =>
    simp only [hvalue] at h
    cases h
  | ok w =>
    cases trailing with
    | some f =>
      simp only [hvalue] at h
      cases h
    | none =>
      simp only [hvalue] at h
      cases h
      exact ⟨d, rfl, hvalue⟩

theorem Value.parse_of_read {text : String} {d : Doc} {v : Value}
    (hread : Doc.read text = (d, none)) (hvalue : d.toValue maxDepth = .ok v) :
    Value.parse text = .ok v := by
  rw [Value.parse, hread]
  simp only [hvalue]

/-! ## Objects -/

theorem readWord_eq {ws cs : List Char} {d d' : Doc} {rest : Option (List Char)}
    (h : readWord ws d cs = (d', rest)) : d' = d ∨ ∃ f, d' = .broken f := by
  induction ws generalizing cs with
  | nil =>
    cases h
    exact .inl rfl
  | cons w ws ih =>
    cases cs with
    | nil =>
      cases h
      exact .inr ⟨_, rfl⟩
    | cons c cs =>
      rw [readWord] at h
      split at h
      · exact ih h
      · cases h
        exact .inr ⟨_, rfl⟩

theorem leaf_eq {r : Except Fault (Numeral × List Char)} {d : Doc} {rest : Option (List Char)}
    (h : leaf r = (d, rest)) :
    (∃ n cs, r = .ok (n, cs) ∧ d = .num n ∧ rest = some cs) ∨ ∃ f, d = .broken f := by
  cases r with
  | ok p =>
    cases h
    exact .inl ⟨_, _, rfl, rfl, rfl⟩
  | error f =>
    cases h
    exact .inr ⟨f, rfl⟩

/-- An object is read where a text opens one. -/
theorem readValue_obj {fuel : Nat} {cs : List Char}
    {fields : List (String × Option Fault × Doc)} {stop : Option Fault}
    {rest : Option (List Char)} (h : readValue fuel cs = (.obj fields stop, rest)) :
    (skipBlank cs).head? = some '{' := by
  cases fuel with
  | zero => cases h
  | succ fuel =>
    have hword : ∀ {ws d r}, readWord ws d r = (.obj fields stop, rest) →
        (∀ fs s, d ≠ .obj fs s) → False := by
      intro ws d r hword hd
      obtain heq | ⟨f, heq⟩ := readWord_eq hword
      · exact hd _ _ heq.symm
      · cases heq
    have hleaf : ∀ r, leaf r = (.obj fields stop, rest) → False := by
      intro r hleaf
      obtain ⟨_, _, -, heq, -⟩ | ⟨f, heq⟩ := leaf_eq hleaf <;> cases heq
    unfold readValue at h
    split at h
    case h_1 => cases h
    case h_2 => exact (hword h (by simp)).elim
    case h_3 => exact (hword h (by simp)).elim
    case h_4 => exact (hword h (by simp)).elim
    case h_5 => exact (hleaf _ h).elim
    case h_6 => split at h <;> cases h
    case h_7 => cases h
    case h_8 heq => rw [heq]; rfl
    case h_9 =>
      split at h
      · exact (hleaf _ h).elim
      · cases h

theorem toValue_obj {d : Doc} {depth : Nat} {fields : Fields}
    (h : d.toValue depth = .ok (.obj fields)) : ∃ members stop, d = .obj members stop := by
  cases d with
  | obj members stop => exact ⟨members, stop, rfl⟩
  | null => cases h
  | bool b => cases h
  | num n => cases n <;> cases h
  | str s flaw => cases flaw <;> cases h
  | broken f => cases h
  | arr items stop =>
    unfold Doc.toValue at h
    split at h
    · cases h
    · split at h <;> cases h

theorem Value.parse_obj {text : String} {fields : Fields}
    (h : Value.parse text = .ok (.obj fields)) : (skipBlank text.toList).head? = some '{' := by
  obtain ⟨d, hread, hvalue⟩ := Value.parse_eq_ok h
  obtain ⟨rest, hread, -⟩ := Doc.read_eq hread
  obtain ⟨members, stop, rfl⟩ := toValue_obj hvalue
  exact readValue_obj hread

/-! ## Numbers -/

mutual

/-- The numbers in a tree. -/
def Doc.numbers : Doc → List Numeral
  | .num n => [n]
  | .arr items _ => itemNumerals items
  | .obj fields _ => fieldNumerals fields
  | .null => []
  | .bool _ => []
  | .str _ _ => []
  | .broken _ => []

def itemNumerals : List Doc → List Numeral
  | [] => []
  | d :: rest => d.numbers ++ itemNumerals rest

def fieldNumerals : List (String × Option Fault × Doc) → List Numeral
  | [] => []
  | (_, _, d) :: rest => d.numbers ++ fieldNumerals rest

end

mutual

/-- The numbers in a value, in the order in which they are written. -/
def Value.numbers : Value → List Numeral
  | .int n => [.int n]
  | .float f => [.float f]
  | .arr items => itemNumbers items
  | .obj fields => fieldNumbers fields
  | .null => []
  | .bool _ => []
  | .str _ => []

def itemNumbers : List Value → List Numeral
  | [] => []
  | v :: rest => v.numbers ++ itemNumbers rest

def fieldNumbers : List (String × Value) → List Numeral
  | [] => []
  | (_, v) :: rest => v.numbers ++ fieldNumbers rest

end

theorem itemNumbers_eq (vs : List Value) : itemNumbers vs = vs.flatMap Value.numbers := by
  induction vs with
  | nil => rfl
  | cons v vs ih => rw [itemNumbers, ih, List.flatMap_cons]

theorem mem_itemNumerals {d : Doc} {ds : List Doc} {n : Numeral} (hd : d ∈ ds)
    (hn : n ∈ d.numbers) : n ∈ itemNumerals ds := by
  induction ds with
  | nil => cases hd
  | cons d' ds ih =>
    rcases List.mem_cons.mp hd with rfl | hd
    · exact List.mem_append_left _ hn
    · exact List.mem_append_right _ (ih hd)

theorem mem_fieldNumerals {x : String × Option Fault × Doc}
    {fields : List (String × Option Fault × Doc)} {n : Numeral} (hx : x ∈ fields)
    (hn : n ∈ x.2.2.numbers) : n ∈ fieldNumerals fields := by
  induction fields with
  | nil => cases hx
  | cons y fields ih =>
    rcases List.mem_cons.mp hx with rfl | hx
    · exact List.mem_append_left _ hn
    · exact List.mem_append_right _ (ih hx)

/-- A number whose integer has 64 bits, with or without a sign. -/
def Numeral.InWord : Numeral → Prop
  | .int n => -(2 ^ 63) ≤ n ∧ n < 2 ^ 64
  | .float _ => True
  | .tooLarge => True

theorem accumulate_le {word : Nat} (h : word ≤ maxWord) (ds : List Char) :
    (accumulate word ds).1 ≤ maxWord := by
  induction ds generalizing word with
  | nil => exact h
  | cons d ds ih =>
    simp only [accumulate]
    split
    · rename_i hnext
      exact ih hnext
    · exact h

theorem scaled_ne_int (fuel : Nat) (f : Float) (e : Int) (n : Int) : scaled fuel f e ≠ .int n := by
  induction fuel generalizing f e with
  | zero => simp [scaled]
  | succ fuel ih =>
    unfold scaled
    simp only
    split
    · split
      · split <;> simp
      · simp
    split
    · simp
    split
    · simp
    · exact ih _ _

theorem decimalNumeral_inWord (negative : Bool) (word : Nat) (e : Int) :
    (decimalNumeral negative word e).InWord := by
  unfold decimalNumeral
  cases hscaled : scaled 5 (wordFloat word) e with
  | int n => exact absurd hscaled (scaled_ne_int _ _ _ _)
  | float f => cases negative <;> exact trivial
  | tooLarge => cases negative <;> exact trivial

theorem wholeNumeral_inWord (negative : Bool) {word : Nat} (h : word ≤ maxWord) (left : Nat) :
    (wholeNumeral negative word left).InWord := by
  have hword : word < 2 ^ 64 := by
    rw [maxWord] at h
    omega
  unfold wholeNumeral
  split
  · exact decimalNumeral_inWord _ _ _
  split
  · constructor <;> omega
  split
  · constructor <;> omega
  · exact trivial

variable {negative : Bool} {word left : Nat} {cs r : List Char} {n : Numeral}

theorem readExponent_inWord {start : Int} (h : readExponent negative word start cs = .ok (n, r)) :
    n.InWord := by
  unfold readExponent at h
  simp only at h
  split at h
  · cases h
  split at h
  · cases h
  split at h
  · cases h
    exact decimalNumeral_inWord _ _ _
  split at h <;> cases h <;> exact trivial

theorem readNumberTail_inWord (hword : word ≤ maxWord)
    (h : readNumberTail negative word left cs = .ok (n, r)) : n.InWord := by
  unfold readNumberTail at h
  split at h
  · simp only at h
    split at h
    · cases h
    split at h
    · exact readExponent_inWord h
    · cases h
      exact decimalNumeral_inWord _ _ _
  · split at h
    · exact readExponent_inWord h
    · cases h
      exact wholeNumeral_inWord _ hword _

theorem readNumber_inWord (h : readNumber negative cs = .ok (n, r)) : n.InWord := by
  unfold readNumber at h
  split at h
  · cases h
  · split at h
    · cases h
    · exact readNumberTail_inWord (Nat.zero_le _) h
  · simp only at h
    split at h
    · cases h
    · exact readNumberTail_inWord (accumulate_le (Nat.zero_le _) _) h

/-! ## Values -/

theorem mem_itemNumbers {vs : List Value} {n : Numeral} :
    n ∈ itemNumbers vs ↔ ∃ v ∈ vs, n ∈ v.numbers := by
  rw [itemNumbers_eq, List.mem_flatMap]

theorem mem_fieldNumbers {kvs : List (String × Value)} {n : Numeral} :
    n ∈ fieldNumbers kvs ↔ ∃ kv ∈ kvs, n ∈ kv.2.numbers := by
  induction kvs with
  | nil => simp [fieldNumbers]
  | cons kv kvs ih => simp [fieldNumbers, ih]

mutual

/-- The numbers of a value are numbers. -/
theorem tooLarge_notMem_numbers : (v : Value) → Numeral.tooLarge ∉ v.numbers
  | .null => by simp [Value.numbers]
  | .bool _ => by simp [Value.numbers]
  | .int _ => by simp [Value.numbers]
  | .float _ => by simp [Value.numbers]
  | .str _ => by simp [Value.numbers]
  | .arr items => tooLarge_notMem_itemNumbers items
  | .obj fields => tooLarge_notMem_fieldNumbers fields

theorem tooLarge_notMem_itemNumbers : (vs : List Value) → Numeral.tooLarge ∉ itemNumbers vs
  | [] => by simp [itemNumbers]
  | v :: vs => by
    rw [itemNumbers, List.mem_append, not_or]
    exact ⟨tooLarge_notMem_numbers v, tooLarge_notMem_itemNumbers vs⟩

theorem tooLarge_notMem_fieldNumbers :
    (kvs : List (String × Value)) → Numeral.tooLarge ∉ fieldNumbers kvs
  | [] => by simp [fieldNumbers]
  | (_, v) :: kvs => by
    rw [fieldNumbers, List.mem_append, not_or]
    exact ⟨tooLarge_notMem_numbers v, tooLarge_notMem_fieldNumbers kvs⟩

end

/-- What a tree with these numbers gives within a depth: a value in order, nested no deeper, with no
other numbers. -/
structure ComesFrom (numbers : List Numeral) (depth : Nat) (v : Value) : Prop where
  canonical : v.canonical = v
  nesting : v.nesting ≤ depth
  numbers : ∀ n ∈ v.numbers, n ∈ numbers

theorem ComesFrom.mono {ns ms : List Numeral} {depth : Nat} {v : Value} (h : ComesFrom ns depth v)
    (hsub : ∀ n ∈ ns, n ∈ ms) : ComesFrom ms depth v :=
  ⟨h.canonical, h.nesting, fun n hn => hsub n (h.numbers n hn)⟩

theorem ComesFrom.arr {ns : List Numeral} {depth : Nat} {vs : List Value}
    (h : ∀ v ∈ vs, ComesFrom ns depth v) : ComesFrom ns (depth + 1) (.arr vs) where
  canonical := by
    rw [Value.canonical, Value.canonicalItems_eq]
    exact congrArg _ ((List.map_congr_left fun v hv => (h v hv).canonical).trans (List.map_id vs))
  nesting := by
    rw [Value.nesting]
    exact Nat.add_le_add_right (Value.itemNesting_le_iff.mpr fun v hv => (h v hv).nesting) 1
  numbers n hn := by
    obtain ⟨v, hv, hn⟩ := mem_itemNumbers.mp hn
    exact (h v hv).numbers n hn

theorem ComesFrom.object {ns : List Numeral} {depth : Nat} {kvs : List (String × Value)}
    (h : ∀ kv ∈ kvs, ComesFrom ns depth kv.2) : ComesFrom ns (depth + 1) (.object kvs) where
  canonical := Value.canonical_object fun kv hkv => (h kv hkv).canonical
  nesting := by
    rw [Value.object, Value.nesting]
    refine Nat.add_le_add_right (Value.fieldNesting_le_iff.mpr fun kv hkv => ?_) 1
    exact (h kv (Fields.mem_ofList hkv)).nesting
  numbers n hn := by
    obtain ⟨kv, hkv, hn⟩ := mem_fieldNumbers.mp hn
    exact (h kv (Fields.mem_ofList hkv)).numbers n hn

theorem ComesFrom.leaf {ns : List Numeral} {v : Value} (depth : Nat) (hv : v.canonical = v)
    (hnesting : v.nesting = 0) (hns : v.numbers = ns) : ComesFrom ns depth v :=
  ⟨hv, by omega, fun n hn => by rwa [hns] at hn⟩

mutual

/-- What a tree gives comes from it. -/
theorem comesFrom_toValue : (d : Doc) → (depth : Nat) → (v : Value) → d.toValue depth = .ok v →
    ComesFrom d.numbers depth v
  | .null, depth, _, h => by cases h; exact .leaf depth rfl rfl rfl
  | .bool _, depth, _, h => by cases h; exact .leaf depth rfl rfl rfl
  | .num (.int _), depth, _, h => by cases h; exact .leaf depth rfl rfl rfl
  | .num (.float _), depth, _, h => by cases h; exact .leaf depth rfl rfl rfl
  | .num .tooLarge, _, _, h => by cases h
  | .str _ (some _), _, _, h => by cases h
  | .str _ none, depth, _, h => by cases h; exact .leaf depth rfl rfl rfl
  | .broken _, _, _, h => by cases h
  | .arr _ _, 0, _, h => by cases h
  | .arr items stop, depth + 1, v, h => by
    simp only [Doc.toValue] at h
    split at h
    · cases h
    · cases h
    · rename_i hitems
      cases h
      exact .arr (comesFrom_itemValues items depth _ hitems)
  | .obj _ _, 0, _, h => by cases h
  | .obj fields stop, depth + 1, v, h => by
    simp only [Doc.toValue] at h
    split at h
    · cases h
    · cases h
    · rename_i hfields
      cases h
      exact .object (comesFrom_fieldValues fields depth _ hfields)

theorem comesFrom_itemValues : (ds : List Doc) → (depth : Nat) → (vs : List Value) →
    itemValues depth ds = .ok vs → ∀ v ∈ vs, ComesFrom (itemNumerals ds) depth v
  | [], _, _, h => by cases h; simp
  | d :: ds, depth, vs, h => by
    unfold itemValues at h
    split at h
    · cases h
    split at h
    · cases h
    · rename_i hvalue _ _ hvalues
      cases h
      refine List.forall_mem_cons.mpr ⟨?_, fun w hw => ?_⟩
      · exact (comesFrom_toValue d depth _ hvalue).mono fun n => List.mem_append_left _
      · exact (comesFrom_itemValues ds depth _ hvalues w hw).mono fun n => List.mem_append_right _

theorem comesFrom_fieldValues : (fields : List (String × Option Fault × Doc)) → (depth : Nat) →
    (kvs : List (String × Value)) → fieldValues depth fields = .ok kvs →
    ∀ kv ∈ kvs, ComesFrom (fieldNumerals fields) depth kv.2
  | [], _, _, h => by cases h; simp
  | (_, some f, _) :: _, _, _, h => by cases h
  | (k, none, d) :: rest, depth, kvs, h => by
    unfold fieldValues at h
    split at h
    · cases h
    split at h
    · cases h
    · rename_i hvalue _ _ hvalues
      cases h
      refine List.forall_mem_cons.mpr ⟨?_, fun w hw => ?_⟩
      · exact (comesFrom_toValue d depth _ hvalue).mono fun n => List.mem_append_left _
      · exact (comesFrom_fieldValues rest depth _ hvalues w hw).mono
          fun n => List.mem_append_right _

end

mutual

/-- The tree of a value has the numbers of the value. -/
theorem numbers_ofValue : (v : Value) → (Doc.ofValue v).numbers = v.numbers
  | .null => rfl
  | .bool _ => rfl
  | .int _ => rfl
  | .float _ => rfl
  | .str _ => rfl
  | .arr items => itemNumerals_docItems items
  | .obj fields => fieldNumerals_docFields fields

theorem itemNumerals_docItems : (vs : List Value) → itemNumerals (docItems vs) = itemNumbers vs
  | [] => rfl
  | v :: vs => by
    rw [docItems, itemNumerals, itemNumbers, numbers_ofValue v, itemNumerals_docItems vs]

theorem fieldNumerals_docFields : (kvs : List (String × Value)) →
    fieldNumerals (docFields kvs) = fieldNumbers kvs
  | [] => rfl
  | (k, v) :: kvs => by
    rw [docFields, fieldNumerals, fieldNumbers, numbers_ofValue v, fieldNumerals_docFields kvs]

end

/-- Bringing a value into order adds no number. -/
theorem mem_numbers_canonical {v : Value} {n : Numeral} (h : n ∈ v.canonical.numbers) :
    n ∈ v.numbers := by
  have hvalue := v.toValue_ofValue v.nesting (Nat.le_refl _)
  rw [← numbers_ofValue v]
  exact (comesFrom_toValue _ _ _ hvalue).numbers n h

/-- Nor does it nest anything deeper. -/
theorem nesting_canonical_le (v : Value) : v.canonical.nesting ≤ v.nesting :=
  (comesFrom_toValue _ _ _ (v.toValue_ofValue v.nesting (Nat.le_refl _))).nesting

end Enclave.Json
