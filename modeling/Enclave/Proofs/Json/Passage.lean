import Enclave.Proofs.Json.Leaf
import Enclave.Proofs.Json.Reading
import Enclave.Proofs.Json.Texts

/-!
# What the reader passes over

The reader goes through a text from its beginning on. It reads strings and numbers, and what it
skips between them are neither quotes nor backslashes. So what the text ahead keeps at each of these
(`Passage`) is true of it wherever the reader is, and the tree that is read holds no other strings
and numbers than the text allows (`Passage.passes`, `Passage.read`). Where the reader stops for
good, a decoder that looks at the whole tree meets a fault.
-/

namespace Enclave.Json

/-- What is known of the text ahead of the reader, and with it of the strings and numbers that are
read. -/
structure Passage where
  ahead : List Char → Prop
  string : String → Prop
  number : Numeral → Prop
  skip : ∀ {c cs}, c ≠ '"' → c ≠ '\\' → ahead (c :: cs) → ahead cs
  of_string : ∀ {fuel cs t}, ahead ('"' :: cs) → readString fuel cs = .ok t →
    string (String.ofList t.chars) ∧ ahead t.rest
  of_number : ∀ {negative cs n rest}, readNumber negative cs = .ok (n, rest) → number n

namespace Passage

/-! ## Results of the reader -/

section Results

variable (p : Passage)

/-- What is known of the text that remains; where none remains, there is a fault. -/
def Remains (fault : Option Fault) : Option (List Char) → Prop
  | some rest => p.ahead rest
  | none => fault ≠ none

/-- What the reader makes of a value. -/
structure Value (r : Doc × Option (List Char)) : Prop where
  texts : ∀ t, r.1.Mentions t → p.string t
  numbers : ∀ n ∈ r.1.numbers, p.number n
  remains : p.Remains r.1.hardFault r.2

/-- What it makes of the rest of a list. -/
structure Items (r : List Doc × Option Fault × Option (List Char)) : Prop where
  texts : ∀ d ∈ r.1, ∀ t, d.Mentions t → p.string t
  numbers : ∀ n ∈ itemNumerals r.1, p.number n
  remains : p.Remains ((itemsFault r.1).or r.2.1) r.2.2

/-- What it makes of the rest of an object. -/
structure Fields (r : List (String × Option Fault × Doc) × Option Fault × Option (List Char)) :
    Prop where
  texts : ∀ x ∈ r.1, p.string x.1 ∧ ∀ t, x.2.2.Mentions t → p.string t
  numbers : ∀ n ∈ fieldNumerals r.1, p.number n
  remains : p.Remains ((fieldsFault r.1).or r.2.1) r.2.2

theorem value_broken (f : Fault) : p.Value (.broken f, none) := ⟨nofun, nofun, nofun⟩

theorem items_stop (f : Fault) : p.Items ([], some f, none) := ⟨nofun, nofun, nofun⟩

theorem fields_stop (f : Fault) : p.Fields ([], some f, none) := ⟨nofun, nofun, nofun⟩

variable {p} {d : Doc} {ds : List Doc} {fields : List (String × Option Fault × Doc)}
  {fault stop flaw : Option Fault} {k : String} {rest : List Char} {rest? : Option (List Char)}

theorem items_end (h : p.ahead rest) : p.Items ([], none, some rest) := ⟨nofun, nofun, h⟩

theorem fields_end (h : p.ahead rest) : p.Fields ([], none, some rest) := ⟨nofun, nofun, h⟩

theorem value_null (h : p.ahead rest) : p.Value (.null, some rest) := ⟨nofun, nofun, h⟩

theorem value_bool (b : Bool) (h : p.ahead rest) : p.Value (.bool b, some rest) :=
  ⟨nofun, nofun, h⟩

theorem value_str (hk : p.string k) (h : p.ahead rest) : p.Value (.str k flaw, some rest) where
  texts := by
    rintro t ⟨⟩
    exact hk
  numbers := nofun
  remains := h

/-- A fault further in front makes no difference. -/
theorem Remains.cons (h : p.Remains fault rest?) (front : Option Fault) :
    p.Remains (front.or fault) rest? := by
  cases rest? with
  | some rest => exact h
  | none =>
    cases front with
    | none => exact h
    | some f => nofun

theorem Value.last (h : p.Value (d, none)) : p.Items ([d], none, none) where
  texts := List.forall_mem_singleton.mpr h.texts
  numbers := by simpa [itemNumerals] using h.numbers
  remains := by simpa [Remains, itemsFault] using h.remains

theorem Value.cons (h : p.Value (d, some rest)) (hitems : p.Items (ds, stop, rest?)) :
    p.Items (d :: ds, stop, rest?) where
  texts := List.forall_mem_cons.mpr ⟨h.texts, hitems.texts⟩
  numbers := List.forall_mem_append.mpr ⟨h.numbers, hitems.numbers⟩
  remains := by
    rw [itemsFault, Option.or_assoc]
    exact hitems.remains.cons _

theorem Items.arr (h : p.Items (ds, stop, rest?)) : p.Value (.arr ds stop, rest?) where
  texts := by
    rintro t (_ | @⟨d, _, _, hd, hmem⟩)
    exact h.texts d hd t hmem
  numbers := h.numbers
  remains := h.remains

theorem Value.lastField (hk : p.string k) (h : p.Value (d, none)) :
    p.Fields ([(k, flaw, d)], none, none) where
  texts := List.forall_mem_singleton.mpr ⟨hk, h.texts⟩
  numbers := by simpa [fieldNumerals] using h.numbers
  remains := by simpa [Remains, fieldsFault] using h.remains

theorem Value.consField (hk : p.string k) (h : p.Value (d, some rest))
    (hfields : p.Fields (fields, stop, rest?)) :
    p.Fields ((k, flaw, d) :: fields, stop, rest?) where
  texts := List.forall_mem_cons.mpr ⟨⟨hk, h.texts⟩, hfields.texts⟩
  numbers := List.forall_mem_append.mpr ⟨h.numbers, hfields.numbers⟩
  remains := by
    rw [fieldsFault, Option.or_assoc]
    exact hfields.remains.cons _

theorem Fields.obj (h : p.Fields (fields, stop, rest?)) : p.Value (.obj fields stop, rest?) where
  texts := by
    rintro t (_ | _ | hname | @⟨x, _, _, hx, hmem⟩)
    · exact (h.texts _ hname).1
    · exact (h.texts x hx).2 t hmem
  numbers := h.numbers
  remains := h.remains

end Results

/-! ## The reader -/

variable (p : Passage)

theorem skips {as cs : List Char} (has : ∀ c ∈ as, c ≠ '"' ∧ c ≠ '\\') (h : p.ahead (as ++ cs)) :
    p.ahead cs := by
  induction as with
  | nil => exact h
  | cons c as ih =>
    obtain ⟨hc, has⟩ := List.forall_mem_cons.mp has
    exact ih has (p.skip hc.1 hc.2 h)

theorem skipBlank {cs : List Char} (h : p.ahead cs) : p.ahead (Json.skipBlank cs) := by
  rw [← List.takeWhile_append_dropWhile (p := isJsonBlank) (l := cs)] at h
  refine p.skips (fun c hc => ?_) h
  have hblank := List.mem_takeWhile_imp hc
  constructor <;> rintro rfl <;> cases hblank

theorem value_number {negative : Bool} {cs : List Char} (h : p.ahead cs) :
    p.Value (leaf (readNumber negative cs)) := by
  cases hread : readNumber negative cs with
  | error f => exact p.value_broken f
  | ok r =>
    obtain ⟨whole, fraction, exponent, rfl, hshape⟩ := readNumber_shape hread
    refine ⟨nofun, List.forall_mem_singleton.mpr (p.of_number hread), p.skips (fun c hc => ?_) h⟩
    have hchar := hshape.isNumberChar c hc
    exact ⟨ne_of_isNumberChar hchar rfl, ne_of_isNumberChar hchar rfl⟩

theorem value_word {ws cs : List Char} {d : Doc} (hws : ∀ c ∈ ws, c ≠ '"' ∧ c ≠ '\\')
    (hd : ∀ {rest}, p.ahead rest → p.Value (d, some rest)) (h : p.ahead cs) :
    p.Value (readWord ws d cs) := by
  induction ws generalizing cs with
  | nil => exact hd h
  | cons w ws ih =>
    obtain ⟨hw, hrest⟩ := List.forall_mem_cons.mp hws
    cases cs with
    | nil => exact p.value_broken _
    | cons c cs =>
      rw [readWord]
      split
      · rename_i hc
        subst hc
        exact ih hrest (p.skip hw.1 hw.2 h)
      · exact p.value_broken _

/-- What the reader gives within some steps. -/
structure Passes (fuel : Nat) : Prop where
  value : ∀ {cs}, p.ahead cs → p.Value (readValue fuel cs)
  items : ∀ {first cs}, p.ahead cs → p.Items (readItems fuel first cs)
  item : ∀ {cs}, p.ahead cs → p.Items (readItem fuel cs)
  fields : ∀ {first cs}, p.ahead cs → p.Fields (readFields fuel first cs)
  field : ∀ {cs}, p.ahead cs → p.Fields (readField fuel cs)

section Step

variable {p} {fuel : Nat} (ih : p.Passes fuel)
include ih

theorem Passes.value_succ {cs : List Char} (h : p.ahead cs) :
    p.Value (readValue (fuel + 1) cs) := by
  have hskip := p.skipBlank h
  unfold readValue
  split
  case h_1 => exact p.value_broken _
  all_goals
    rename_i heq
    rw [heq] at hskip
  case h_2 =>
    have hrest := p.skip (by decide) (by decide) hskip
    exact p.value_word (by simp) value_null hrest
  case h_3 =>
    have hrest := p.skip (by decide) (by decide) hskip
    exact p.value_word (by simp) (value_bool true) hrest
  case h_4 =>
    have hrest := p.skip (by decide) (by decide) hskip
    exact p.value_word (by simp) (value_bool false) hrest
  case h_5 => exact p.value_number (p.skip (by decide) (by decide) hskip)
  case h_6 =>
    split
    · exact p.value_broken _
    · rename_i hstring
      obtain ⟨htext, hrest⟩ := p.of_string hskip hstring
      exact value_str htext hrest
  case h_7 => exact (ih.items (p.skip (by decide) (by decide) hskip)).arr
  case h_8 => exact (ih.fields (p.skip (by decide) (by decide) hskip)).obj
  case h_9 =>
    split
    · exact p.value_number hskip
    · exact p.value_broken _

theorem Passes.items_succ {first : Bool} {cs : List Char} (h : p.ahead cs) :
    p.Items (readItems (fuel + 1) first cs) := by
  have hskip := p.skipBlank h
  unfold readItems
  split
  · exact p.items_stop _
  rename_i c r heq
  rw [heq] at hskip
  split
  · rename_i hc
    subst hc
    exact items_end (p.skip (by decide) (by decide) hskip)
  split
  · rename_i hcomma
    rw [Bool.and_eq_true, decide_eq_true_eq] at hcomma
    obtain ⟨rfl, -⟩ := hcomma
    have hbehind := p.skipBlank (p.skip (by decide) (by decide) hskip)
    split
    · exact p.items_stop _
    · exact p.items_stop _
    · exact ih.item hbehind
  split
  · exact ih.item hskip
  · exact p.items_stop _

theorem Passes.item_succ {cs : List Char} (h : p.ahead cs) :
    p.Items (readItem (fuel + 1) cs) := by
  have hvalue := ih.value h
  unfold readItem
  split
  · rename_i hread
    rw [hread] at hvalue
    exact hvalue.last
  · rename_i hread
    rw [hread] at hvalue
    exact hvalue.cons (ih.items hvalue.remains)

theorem Passes.fields_succ {first : Bool} {cs : List Char} (h : p.ahead cs) :
    p.Fields (readFields (fuel + 1) first cs) := by
  have hskip := p.skipBlank h
  unfold readFields
  split
  · exact p.fields_stop _
  rename_i c r heq
  rw [heq] at hskip
  split
  · rename_i hc
    subst hc
    exact fields_end (p.skip (by decide) (by decide) hskip)
  split
  · rename_i hcomma
    rw [Bool.and_eq_true, decide_eq_true_eq] at hcomma
    obtain ⟨rfl, -⟩ := hcomma
    have hbehind := p.skipBlank (p.skip (by decide) (by decide) hskip)
    split
    · exact p.fields_stop _
    · exact p.fields_stop _
    · exact ih.field hbehind
  split
  · exact ih.field hskip
  · exact p.fields_stop _

theorem Passes.field_succ {cs : List Char} (h : p.ahead cs) :
    p.Fields (readField (fuel + 1) cs) := by
  unfold readField
  split
  · split
    · exact p.fields_stop _
    rename_i hstring
    obtain ⟨hk, hrest⟩ := p.of_string h hstring
    have hskip := p.skipBlank hrest
    simp only
    split
    · rename_i heq
      rw [heq] at hskip
      have hvalue := ih.value (p.skip (by decide) (by decide) hskip)
      split
      · rename_i hread
        rw [hread] at hvalue
        exact hvalue.lastField hk
      · rename_i hread
        rw [hread] at hvalue
        exact hvalue.consField hk (ih.fields hvalue.remains)
    · exact (p.value_broken _).lastField hk
    · exact (p.value_broken _).lastField hk
  · exact p.fields_stop _

end Step

/-- **What the text keeps, the reader finds wherever it is.** -/
theorem passes (fuel : Nat) : p.Passes fuel := by
  induction fuel with
  | zero =>
    constructor <;> intros
    · exact p.value_broken _
    · exact p.items_stop _
    · exact p.items_stop _
    · exact p.fields_stop _
    · exact p.fields_stop _
  | succ fuel ih =>
    exact ⟨ih.value_succ, ih.items_succ, ih.item_succ, ih.fields_succ, ih.field_succ⟩

/-- The same of a whole text. A decoder that looks at the whole tree meets a fault unless the reader
came to the blanks at the end of the text. -/
theorem read (text : String) (h : p.ahead text.toList) :
    (∀ t, (Doc.read text).1.Mentions t → p.string t) ∧
      (∀ n ∈ (Doc.read text).1.numbers, p.number n) ∧
        ((Doc.read text).1.hardFault = none → (Doc.read text).2 = none →
          ∃ rest, (∀ c ∈ rest, isJsonBlank c = true) ∧ p.ahead rest) := by
  have hpassed := (p.passes (3 * text.toList.length + 3)).value h
  unfold Doc.read
  simp only
  split
  · rename_i hvalue
    rw [hvalue] at hpassed
    exact ⟨hpassed.texts, hpassed.numbers, fun hfault => absurd hfault hpassed.remains⟩
  · rename_i rest hvalue
    rw [hvalue] at hpassed
    refine ⟨hpassed.texts, hpassed.numbers, fun _ htrailing => ⟨rest, ?_, hpassed.remains⟩⟩
    by_cases hblank : (Json.skipBlank rest).isEmpty
    · exact List.dropWhile_eq_nil_iff.mp (List.isEmpty_iff.mp hblank)
    · simp [hblank] at htrailing

end Passage

/-- Of numbers, that their integers have 64 bits; nothing of the text. -/
def wordPassage : Passage where
  ahead _ := True
  string _ := True
  number := Numeral.InWord
  skip _ _ _ := trivial
  of_string _ _ := ⟨trivial, trivial⟩
  of_number := readNumber_inWord

/-- **The reader gives words.** Every integer in the tree of a text has 64 bits. -/
theorem Doc.read_inWord (text : String) : ∀ n ∈ (Doc.read text).1.numbers, n.InWord :=
  (wordPassage.read text trivial).2.1

end Enclave.Json
