import Enclave.Script.Literal
import Enclave.Proofs.Json.Reading

/-!
# Numbers of literals

The integers of a literal fit into signed words, however its containers are nested. A document of
JSON may hold larger ones.
-/

namespace Enclave.Script.Literal

open Json (Value Numeral)

/-- A number whose integer has 64 bits with a sign. -/
def Signed : Numeral → Prop
  | .int n => -(2 ^ 63) ≤ n ∧ n < 2 ^ 63
  | .float _ => True
  | .tooLarge => True

theorem Signed.inWord {n : Numeral} (h : Signed n) : n.InWord := by
  cases n with
  | int n =>
    obtain ⟨hlow, hhigh⟩ := h
    exact ⟨hlow, by omega⟩
  | float f => trivial
  | tooLarge => trivial

/-- A value whose integers fit into signed words. -/
def SignedWords (v : Value) : Prop := ∀ n ∈ v.numbers, Signed n

theorem signedWords_number {cs rest : List Char} {v : Value} (h : number cs = .ok (v, rest)) :
    SignedWords v := by
  unfold number at h
  simp only at h
  split at h
  case h_2 => cases h
  case h_1 hvalue =>
    cases h
    unfold numeralValue? at hvalue
    split at hvalue
    · rename_i n hfilter
      obtain ⟨-, hword⟩ := Option.filter_eq_some_iff.mp hfilter
      cases hvalue
      intro m hm
      obtain rfl := List.mem_singleton.mp hm
      rw [decide_eq_true_eq] at hword
      exact hword
    · obtain ⟨f, -, rfl⟩ := Option.map_eq_some_iff.mp hvalue
      intro m hm
      split at hm
      · obtain rfl := List.mem_singleton.mp hm
        trivial
      · cases hm

theorem signedWords_namedValue {cs rest : List Char} {v : Value}
    (h : namedValue cs = .ok (v, rest)) : SignedWords v := by
  unfold namedValue at h
  simp only at h
  split at h
  all_goals
    cases h
    try exact fun m hm => (List.not_mem_nil hm).elim

theorem signedWords_object {kvs : List (String × Value)} (h : ∀ kv ∈ kvs, SignedWords kv.2) :
    SignedWords (.object kvs) := by
  intro n hn
  obtain ⟨kv, hkv, hn⟩ := Json.mem_fieldNumbers.mp hn
  exact h kv (Json.Fields.mem_ofList hkv) n hn

theorem signedWords_arr {vs : List Value} (h : ∀ v ∈ vs, SignedWords v) : SignedWords (.arr vs) := by
  intro n hn
  obtain ⟨v, hv, hn⟩ := Json.mem_itemNumbers.mp hn
  exact h v hv n hn

/-- What the readers of containers give, with so many steps left. -/
structure ReadsSigned (fuel : Nat) : Prop where
  value : ∀ depth cs v rest, value fuel depth cs = .ok (v, rest) → SignedWords v
  members : ∀ depth found cs kvs rest, (∀ kv ∈ found, SignedWords kv.2) →
    members fuel depth found cs = .ok (kvs, rest) → ∀ kv ∈ kvs, SignedWords kv.2
  items : ∀ depth close found cs vs rest, (∀ v ∈ found, SignedWords v) →
    items fuel depth close found cs = .ok (vs, rest) → ∀ v ∈ vs, SignedWords v

section Containers

variable {fuel depth : Nat} {cs rest : List Char} (ih : ReadsSigned fuel)
include ih

theorem value_signed {v : Value} (h : value (fuel + 1) depth cs = .ok (v, rest)) :
    SignedWords v := by
  unfold value at h
  split at h
  · cases h
  split at h
  · split at h
    · cases h
    split at h
    · split at h
      · cases h
      · rename_i hmembers
        cases h
        exact signedWords_object (ih.members _ _ _ _ _ (by simp) hmembers)
    · split at h
      · cases h
      · rename_i hitems
        cases h
        exact signedWords_arr (ih.items _ _ _ _ _ _ (by simp) hitems)
  split at h
  · split at h
    · cases h
    · cases h
      exact fun n hn => (List.not_mem_nil hn).elim
  split at h
  · exact signedWords_number h
  split at h
  · exact signedWords_namedValue h
  · cases h

theorem members_signed {found kvs : List (String × Value)} (hfound : ∀ kv ∈ found, SignedWords kv.2)
    (h : members (fuel + 1) depth found cs = .ok (kvs, rest)) : ∀ kv ∈ kvs, SignedWords kv.2 := by
  have hmore : ∀ key v, SignedWords v → ∀ kv ∈ (key, v) :: found, SignedWords kv.2 :=
    fun key v hv => List.forall_mem_cons.mpr ⟨hv, hfound⟩
  unfold members at h
  split at h
  · cases h
    simpa using hfound
  split at h
  · cases h
  · split at h
    · split at h
      · cases h
      rename_i hvalue
      have hv := ih.value _ _ _ _ hvalue
      split at h
      · exact ih.members _ _ _ _ _ (hmore _ _ hv) h
      · cases h
        intro kv hkv
        exact hmore _ _ hv kv (List.mem_reverse.mp hkv)
      · cases h
    · cases h
  · cases h

theorem items_signed {close : Char} {found vs : List Value} (hfound : ∀ v ∈ found, SignedWords v)
    (h : items (fuel + 1) depth close found cs = .ok (vs, rest)) : ∀ v ∈ vs, SignedWords v := by
  have hmore : ∀ v, SignedWords v → ∀ w ∈ v :: found, SignedWords w := fun v hv =>
    List.forall_mem_cons.mpr ⟨hv, hfound⟩
  unfold items at h
  split at h
  · cases h
  split at h
  · cases h
    simpa using hfound
  split at h
  · cases h
  rename_i hvalue
  have hv := ih.value _ _ _ _ hvalue
  split at h
  · exact ih.items _ _ _ _ _ _ (hmore _ hv) h
  · split at h
    · cases h
      intro w hw
      exact hmore _ hv w (List.mem_reverse.mp hw)
    · cases h
  · cases h

end Containers

theorem readsSigned (fuel : Nat) : ReadsSigned fuel := by
  -- The three readers call each other with one step less, so they go through together.
  induction fuel with
  | zero => constructor <;> intros <;> simp_all [value, members, items]
  | succ fuel ih =>
    constructor
    case value => exact fun _ _ _ _ h => value_signed ih h
    case members => exact fun _ _ _ _ _ hfound h => members_signed ih hfound h
    case items => exact fun _ _ _ _ _ _ hfound h => items_signed ih hfound h

/-- **The integers of a literal fit into signed words.** -/
theorem signedWords_of_read {text : String} {v : Value} (h : read text = .ok v) :
    SignedWords v := by
  unfold read at h
  simp only at h
  split at h
  · cases h
  · rename_i hvalue
    split at h
    · cases h
      exact (readsSigned _).value _ _ _ _ hvalue
    · cases h

end Enclave.Script.Literal
