import Enclave.Json.Document
import Enclave.Json.Printer
import Mathlib.Data.List.Forall2
import Mathlib.Tactic.IntervalCases

/-!
# Texts of a value

The same value may be written in many ways: with blanks between its parts or without, with one
escape of a character or another, and in some languages with a comma behind its last part. A
`Dialect` says what a language of values allows, and `Dialect.Spelt` relates a value to all its
texts. The relation builds texts and does not read them.

Results about a reader go by induction on the value (`Value.induction`), and over the parts of one
container by induction on `Listed`.
-/

namespace Enclave.Json

/-! ## Induction on values -/

/-- What holds of every value without parts, and of a container if it holds of its parts, holds of
every value. -/
@[elab_as_elim]
theorem Value.induction {motive : Value → Prop} (leaf : ∀ v, v.nesting = 0 → motive v)
    (arr : ∀ vs, (∀ v ∈ vs, motive v) → motive (.arr vs))
    (obj : ∀ kvs, (∀ kv ∈ kvs, motive kv.2) → motive (.obj kvs)) (v : Value) : motive v := by
  cases v with
  | arr vs => exact arr vs fun v _ => v.induction leaf arr obj
  | obj kvs => exact obj kvs fun kv _ => kv.2.induction leaf arr obj
  | _ => exact leaf _ rfl
termination_by sizeOf v
decreasing_by
  · have hsize := List.sizeOf_lt_of_mem ‹v ∈ vs›
    simp only [Value.arr.sizeOf_spec]
    omega
  · have hsize := List.sizeOf_lt_of_mem ‹kv ∈ kvs›
    have hpair : sizeOf kv = 1 + sizeOf kv.1 + sizeOf kv.2 := rfl
    simp only [Value.obj.sizeOf_spec]
    omega

/-- A value without parts is in order. -/
theorem Value.canonical_of_nesting {v : Value} (h : v.nesting = 0) : v.canonical = v := by
  cases v with
  | arr vs => cases h
  | obj kvs => cases h
  | _ => rfl

/-! ## Dialects -/

/-- What a language of values allows. -/
structure Dialect where
  /-- The characters that count for nothing between the parts of a text. -/
  blank : Char → Bool
  /-- The texts of a value without parts. -/
  scalar : Value → List Char → Prop
  /-- Whether parentheses may stand around a list. -/
  tuples : Bool
  /-- Whether a comma may stand behind the last part of a container. -/
  trailing : Bool
  nesting_of_scalar : ∀ {v cs}, scalar v cs → v.nesting = 0

namespace Dialect

variable (d : Dialect) {α β : Type}

/-- No blank has to stand anywhere. -/
theorem blank_nil : ∀ c ∈ ([] : List Char), d.blank c = true := by simp

/-- The text of a container behind the bracket that opens it: its parts with commas between them,
up to the bracket that closes it. -/
inductive Listed (close : Char) (part : α → List Char → Prop) : List α → List Char → Prop where
  | nil {bs : List Char} (hbs : ∀ c ∈ bs, d.blank c = true) : Listed close part [] (bs ++ [close])
  | last {a : α} {bs cs bs' : List Char} (hbs : ∀ c ∈ bs, d.blank c = true) (ha : part a cs)
      (hbs' : ∀ c ∈ bs', d.blank c = true) :
      Listed close part [a] (bs ++ (cs ++ (bs' ++ [close])))
  | cons {a : α} {as : List α} {bs cs bs' more : List Char} (hbs : ∀ c ∈ bs, d.blank c = true)
      (ha : part a cs) (hbs' : ∀ c ∈ bs', d.blank c = true) (hmore : Listed close part as more)
      (htrailing : as = [] → d.trailing = true) :
      Listed close part (a :: as) (bs ++ (cs ++ (bs' ++ ',' :: more)))

/-- The text of a member of a mapping: its name, a colon and its value. -/
inductive Member (value : Value → List Char → Prop) : String × Value → List Char → Prop where
  | mk {k : String} {v : Value} {ks bs bs' cs : List Char} (hk : d.scalar (.str k) ks)
      (hbs : ∀ c ∈ bs, d.blank c = true) (hbs' : ∀ c ∈ bs', d.blank c = true) (hv : value v cs) :
      Member value (k, v) (ks ++ (bs ++ ':' :: (bs' ++ cs)))

/-- The texts of a value. -/
inductive Spelt : Value → List Char → Prop where
  | scalar {v : Value} {cs : List Char} (h : d.scalar v cs) : Spelt v cs
  | list {vs : List Value} {cs : List Char} (h : d.Listed ']' Spelt vs cs) :
      Spelt (.arr vs) ('[' :: cs)
  | tuple {vs : List Value} {cs : List Char} (htuples : d.tuples = true)
      (h : d.Listed ')' Spelt vs cs) : Spelt (.arr vs) ('(' :: cs)
  | mapping {kvs : List (String × Value)} {cs : List Char}
      (h : d.Listed '}' (d.Member Spelt) kvs cs) : Spelt (.obj kvs) ('{' :: cs)

variable {d}

/-- What is known of the texts of the parts of a container. -/
theorem Listed.imp {close : Char} {part part' : α → List Char → Prop} {as : List α}
    {cs : List Char} (h : ∀ a ∈ as, ∀ cs, part a cs → part' a cs)
    (hlisted : d.Listed close part as cs) : d.Listed close part' as cs := by
  induction hlisted with
  | nil hbs => exact .nil hbs
  | last hbs ha hbs' => exact .last hbs (h _ List.mem_cons_self _ ha) hbs'
  | cons hbs ha hbs' _ htrailing ih =>
    exact .cons hbs (h _ List.mem_cons_self _ ha) hbs'
      (ih fun a ha => h a (List.mem_cons_of_mem _ ha)) htrailing

/-- It ends with the bracket that closes the container. -/
theorem Listed.close {close : Char} {part : α → List Char → Prop} {as : List α} {cs : List Char}
    (h : d.Listed close part as cs) : ∃ r, cs = r ++ [close] := by
  induction h with
  | nil => exact ⟨_, rfl⟩
  | @last a bs cs bs' => exact ⟨bs ++ (cs ++ bs'), by simp⟩
  | @cons a as bs cs bs' more _ _ _ _ _ ih =>
    obtain ⟨r, rfl⟩ := ih
    exact ⟨bs ++ (cs ++ (bs' ++ ',' :: r)), by simp⟩

theorem Member.imp {value value' : Value → List Char → Prop} {kv : String × Value} {cs : List Char}
    (h : ∀ cs, value kv.2 cs → value' kv.2 cs) (hmember : d.Member value kv cs) :
    d.Member value' kv cs := by
  cases hmember with
  | mk hk hbs hbs' hv => exact .mk hk hbs hbs' (h _ hv)

/-! ### From one dialect to another -/

/-- The texts of one dialect are texts of another one, of values that `R` relates. -/
structure Translates (d d' : Dialect) (R : Value → Value → Prop) : Prop where
  blank : ∀ {c}, d.blank c = true → d'.blank c = true
  tuples : d.tuples = true → d'.tuples = true
  trailing : d.trailing = true → d'.trailing = true
  scalar : ∀ {v cs}, d.scalar v cs → ∃ w, d'.scalar w cs ∧ R v w
  str : ∀ {k w}, R (.str k) w → ∃ k', w = .str k'
  arr : ∀ {vs ws}, List.Forall₂ R vs ws → R (.arr vs) (.arr ws)
  obj : ∀ {kvs kws : List (String × Value)},
    List.Forall₂ (fun kv kw => R (.str kv.1) (.str kw.1) ∧ R kv.2 kw.2) kvs kws →
      R (.obj kvs) (.obj kws)

section Translates

variable {d' : Dialect} {R : Value → Value → Prop} (ht : Translates d d' R)
include ht

theorem Translates.blanks {bs : List Char} (hbs : ∀ c ∈ bs, d.blank c = true) :
    ∀ c ∈ bs, d'.blank c = true := fun c hc => ht.blank (hbs c hc)

theorem Translates.listed {close : Char} {part : α → List Char → Prop}
    {part' : β → List Char → Prop} {Q : α → β → Prop} {as : List α} {cs : List Char}
    (h : ∀ a ∈ as, ∀ cs, part a cs → ∃ b, part' b cs ∧ Q a b)
    (hlisted : d.Listed close part as cs) :
    ∃ bs, d'.Listed close part' bs cs ∧ List.Forall₂ Q as bs := by
  induction hlisted with
  | nil hbs => exact ⟨[], .nil (ht.blanks hbs), .nil⟩
  | last hbs ha hbs' =>
    obtain ⟨b, hb, hrel⟩ := h _ List.mem_cons_self _ ha
    exact ⟨[b], .last (ht.blanks hbs) hb (ht.blanks hbs'), .cons hrel .nil⟩
  | cons hbs ha hbs' _ htrailing ih =>
    obtain ⟨b, hb, hrel⟩ := h _ List.mem_cons_self _ ha
    obtain ⟨bs, hmore, hrels⟩ := ih fun a ha => h a (List.mem_cons_of_mem _ ha)
    refine ⟨b :: bs, .cons (ht.blanks hbs) hb (ht.blanks hbs') hmore ?_, .cons hrel hrels⟩
    rintro rfl
    cases hrels
    exact ht.trailing (htrailing rfl)

/-- A text of one dialect is a text of the other, of a related value. -/
theorem Translates.spelt {v : Value} {cs : List Char} (h : d.Spelt v cs) :
    ∃ w, d'.Spelt w cs ∧ R v w := by
  induction v using Value.induction generalizing cs with
  | leaf v hleaf =>
    cases h with
    | scalar h =>
      obtain ⟨w, hw, hrel⟩ := ht.scalar h
      exact ⟨w, .scalar hw, hrel⟩
    | _ => cases hleaf
  | arr vs ih =>
    have hitems : ∀ v ∈ vs, ∀ cs, d.Spelt v cs → ∃ w, d'.Spelt w cs ∧ R v w :=
      fun v hv cs => ih v hv
    cases h with
    | scalar h => cases d.nesting_of_scalar h
    | list h =>
      obtain ⟨ws, hws, hrel⟩ := ht.listed hitems h
      exact ⟨.arr ws, .list hws, ht.arr hrel⟩
    | tuple htuples h =>
      obtain ⟨ws, hws, hrel⟩ := ht.listed hitems h
      exact ⟨.arr ws, .tuple (ht.tuples htuples) hws, ht.arr hrel⟩
  | obj kvs ih =>
    have hmembers : ∀ kv ∈ kvs, ∀ cs, d.Member d.Spelt kv cs →
        ∃ kw, d'.Member d'.Spelt kw cs ∧ R (.str kv.1) (.str kw.1) ∧ R kv.2 kw.2 := by
      intro kv hkv cs h
      cases h with
      | mk hk hbs hbs' hv =>
        obtain ⟨_, hname, hkey⟩ := ht.scalar hk
        obtain ⟨k', rfl⟩ := ht.str hkey
        obtain ⟨w, hvalue, hrel⟩ := ih _ hkv hv
        exact ⟨(k', w), .mk hname (ht.blanks hbs) (ht.blanks hbs') hvalue, hkey, hrel⟩
    cases h with
    | scalar h => cases d.nesting_of_scalar h
    | mapping h =>
      obtain ⟨kws, hkws, hrel⟩ := ht.listed hmembers h
      exact ⟨.obj kws, .mapping hkws, ht.obj hrel⟩

end Translates

variable (d)

/-! ### Lists in lists -/

/-- A list inside so many others. -/
def nested : Nat → Value
  | 0 => .arr []
  | n + 1 => .arr [nested n]

/-- Its shortest text. -/
def nestedChars : Nat → List Char
  | 0 => ['[', ']']
  | n + 1 => '[' :: (nestedChars n ++ [']'])

theorem nesting_nested (n : Nat) : (nested n).nesting = n + 1 := by
  induction n with
  | zero => rfl
  | succ n ih => simp [nested, Value.nesting, Value.itemNesting, ih]

theorem spelt_nested (n : Nat) : d.Spelt (nested n) (nestedChars n) := by
  induction n with
  | zero => exact .list (.nil d.blank_nil)
  | succ n ih => exact .list (.last d.blank_nil ih d.blank_nil)

end Dialect

/-! ## Strings -/

/-- A string between quotes, each of its characters written in one of the ways that `part` knows. -/
def Quoted (quote : Char) (part : Char → List Char → Prop) (s cs : List Char) : Prop :=
  ∃ pieces, List.Forall₂ part s pieces ∧ cs = quote :: (pieces.flatten ++ [quote])

/-- The hexadecimal digits of a number, so many of them, in either case. -/
def HexDigits (digits n : Nat) (ds : List Char) : Prop :=
  ds.length = digits ∧ ∃ values : List Nat,
    List.Forall₂ (fun c v => v < 16 ∧ c.toLower = hexDigit v) ds values ∧
      n = values.foldl (fun n v => n * 16 + v) 0

theorem HexDigits.concat {digits n v : Nat} {ds : List Char} (h : HexDigits digits n ds)
    (hv : v < 16) : HexDigits (digits + 1) (n * 16 + v) (ds ++ [hexDigit v]) := by
  have hlower : ∀ v < 16, (hexDigit v).toLower = hexDigit v := by decide
  obtain ⟨rfl, values, hvalues, rfl⟩ := h
  refine ⟨by simp, values ++ [v], ?_, by simp⟩
  exact List.rel_append hvalues (.cons ⟨hv, hlower v hv⟩ .nil)

/-- The value of a digit does not depend on its case. -/
theorem hexValue?_toLower (c : Char) : hexValue? c.toLower = hexValue? c := by
  by_cases hc : c.val ≥ 'A'.val ∧ c.val ≤ 'Z'.val
  · have hrange : 65 ≤ c.toNat ∧ c.toNat ≤ 90 := by simpa [UInt32.le_iff_toNat_le] using hc
    obtain ⟨hlow, hhigh⟩ := hrange
    rw [← Char.ofNat_toNat c]
    generalize c.toNat = n at hlow hhigh
    interval_cases n <;> rfl
  · exact congrArg hexValue? (dif_neg hc)

theorem hexValue?_hexDigit : ∀ d < 16, hexValue? (hexDigit d) = some d := by decide

theorem hexValue?_of_lower {c : Char} {v : Nat} (hv : v < 16) (hc : c.toLower = hexDigit v) :
    hexValue? c = some v := by
  rw [← hexValue?_toLower, hc, hexValue?_hexDigit v hv]

end Enclave.Json
