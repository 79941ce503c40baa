import Enclave.Proofs.Json.RoundTrip
import Enclave.Proofs.Script.Spelling

/-!
# Values as scripts write them

A script shows a value by its representation: mappings, lists and tuples with a blank behind every
comma, strings between single quotes unless double quotes need fewer escapes, and the escapes of
what cannot be shown. `Written.chars` is that text and `Written.value` the value.

`read_chars` says that the reader of literals finds the value in the text, if its integers fit into
signed words and its containers are nested no deeper than the reader goes. Which characters beyond
ASCII can be shown is left open: whether one is shown or escaped, it reads as itself.
-/

namespace Enclave.Script

open Json (Value hexDigit joinChars)

/-- A value of a script. -/
inductive Written where
  | none
  | flag (b : Bool)
  | int (n : Int)
  | text (s : String)
  | list (items : List Written)
  | tuple (items : List Written)
  | mapping (members : List (String × Written))

namespace Written

/-! ## Strings -/

/-- The hexadecimal digits of a number, so many of them. -/
def hexChars : Nat → Nat → List Char
  | 0, _ => []
  | digits + 1, n => hexChars digits (n / 16) ++ [hexDigit (n % 16)]

/-- The quote around a string: a single one, unless only single ones occur in it. -/
def quoteOf (s : List Char) : Char := if '\'' ∈ s ∧ '"' ∉ s then '"' else '\''

/-- A character of a string between quotes. `shown` tells which characters beyond ASCII stand for
themselves. -/
def escapedChar (shown : Char → Bool) (quote c : Char) : List Char :=
  if c = quote ∨ c = '\\' then ['\\', c]
  else if c = '\t' then ['\\', 't']
  else if c = '\n' then ['\\', 'n']
  else if c = '\r' then ['\\', 'r']
  else if c.toNat < 0x20 ∨ c.toNat = 0x7F then '\\' :: 'x' :: hexChars 2 c.toNat
  else if c.toNat < 0x7F ∨ shown c = true then [c]
  else if c.toNat ≤ 0xFF then '\\' :: 'x' :: hexChars 2 c.toNat
  else if c.toNat ≤ 0xFFFF then '\\' :: 'u' :: hexChars 4 c.toNat
  else '\\' :: 'U' :: hexChars 8 c.toNat

/-- A string between its quotes. -/
def textChars (shown : Char → Bool) (s : String) : List Char :=
  let quote := quoteOf s.toList
  quote :: (s.toList.flatMap (escapedChar shown quote) ++ [quote])

/-! ## Values -/

/-- What stands behind the item of a tuple with one item. -/
def loneComma : List Written → List Char
  | [_] => [',']
  | _ => []

mutual

/-- The characters of a value. -/
def chars (shown : Char → Bool) : Written → List Char
  | .none => "None".toList
  | .flag true => "True".toList
  | .flag false => "False".toList
  | .int n => (Decimal.intText n).toList
  | .text s => textChars shown s
  | .list items => '[' :: (joinChars [',', ' '] (itemChars shown items) ++ [']'])
  | .tuple items =>
    '(' :: (joinChars [',', ' '] (itemChars shown items) ++ (loneComma items ++ [')']))
  | .mapping members => '{' :: (joinChars [',', ' '] (memberChars shown members) ++ ['}'])

def itemChars (shown : Char → Bool) : List Written → List (List Char)
  | [] => []
  | w :: rest => w.chars shown :: itemChars shown rest

def memberChars (shown : Char → Bool) : List (String × Written) → List (List Char)
  | [] => []
  | (k, w) :: rest => (textChars shown k ++ ':' :: ' ' :: w.chars shown) :: memberChars shown rest

end

mutual

/-- The value that a value of a script is. -/
def value : Written → Value
  | .none => .null
  | .flag b => .bool b
  | .int n => .int n
  | .text s => .str s
  | .list items => .arr (itemValues items)
  | .tuple items => .arr (itemValues items)
  | .mapping members => .obj (memberValues members)

def itemValues : List Written → List Value
  | [] => []
  | w :: rest => w.value :: itemValues rest

def memberValues : List (String × Written) → List (String × Value)
  | [] => []
  | (k, w) :: rest => (k, w.value) :: memberValues rest

end

end Written

namespace Literal

open Json (HexDigits)
open Written (hexChars quoteOf escapedChar textChars loneComma)

/-! ## Escapes -/

theorem hexDigits_hexChars (digits : Nat) {n : Nat} (h : n < 16 ^ digits) :
    HexDigits digits n (hexChars digits n) := by
  induction digits generalizing n with
  | zero =>
    obtain rfl : n = 0 := by simpa using h
    exact ⟨rfl, [], .nil, rfl⟩
  | succ digits ih =>
    have hhigh : n / 16 < 16 ^ digits := by
      rw [Nat.pow_succ] at h
      omega
    have hdigits := (ih hhigh).concat (Nat.mod_lt n (by decide : 16 > 0))
    rwa [Nat.div_add_mod' n 16] at hdigits

theorem hexValue?_of_mem_hexChars {digits n : Nat} {c : Char} (h : c ∈ hexChars digits n) :
    ∃ v, hexValue? c = some v := by
  induction digits generalizing n with
  | zero => cases h
  | succ digits ih =>
    rcases List.mem_append.mp h with h | h
    · exact ih h
    · rw [List.mem_singleton.mp h]
      exact ⟨_, Json.hexValue?_hexDigit _ (Nat.mod_lt n (by decide))⟩

theorem notMem_hexChars {c : Char} (hc : hexValue? c = none) (digits n : Nat) :
    c ∉ hexChars digits n := by
  intro h
  obtain ⟨v, hv⟩ := hexValue?_of_mem_hexChars h
  rw [hc] at hv
  cases hv

/-! ## Strings -/

theorem quoteOf_cases (s : List Char) : quoteOf s = '\'' ∨ quoteOf s = '"' := by
  unfold quoteOf
  split
  · exact .inr rfl
  · exact .inl rfl

section Trees

variable (shown : Char → Bool)

/-- A character that a script shows is written in one of the ways that the reader knows. -/
theorem charText_escapedChar {quote : Char} (hquote : quote = '\'' ∨ quote = '"') (c : Char) :
    CharText quote c (escapedChar shown quote c) := by
  have hvalid : c.toNat < 16 ^ 8 := by
    have hsize := c.val.toNat_lt
    exact Nat.lt_of_lt_of_le hsize (by decide)
  unfold escapedChar
  split
  · rename_i hc
    rcases hc with rfl | rfl
    · rcases hquote with rfl | rfl
      · exact .single
      · exact .double
    · exact .backslash
  rename_i hc
  rw [not_or] at hc
  split
  · subst_vars
    exact .tab
  split
  · subst_vars
    exact .newline
  split
  · subst_vars
    exact .carriageReturn
  split
  · exact .hex2 (hexDigits_hexChars 2 (by omega))
  split
  · exact .plain hc.1 hc.2
  split
  · exact .hex2 (hexDigits_hexChars 2 (by omega))
  split
  · exact .hex4 (hexDigits_hexChars 4 (by omega))
  · exact .hex8 (hexDigits_hexChars 8 hvalid)

theorem scalarText_textChars (s : String) : ScalarText (.str s) (textChars shown s) := by
  have hquote := quoteOf_cases s.toList
  refine .str hquote ⟨s.toList.map (escapedChar shown (quoteOf s.toList)), ?_, ?_⟩
  · rw [List.forall₂_map_right_iff, List.forall₂_same]
    exact fun c _ => charText_escapedChar shown hquote c
  · rw [textChars, List.flatMap_def]

/-! ## Trees -/

theorem loneComma_cases (ws : List Written) :
    loneComma ws = [] ∨ loneComma ws = [','] ∧ ws ≠ [] := by
  rcases ws with _ | ⟨w, _ | ⟨w', ws⟩⟩
  · exact .inl rfl
  · exact .inr ⟨rfl, List.cons_ne_nil _ _⟩
  · exact .inl rfl

theorem signedWords_cons {v : Value} {vs : List Value} :
    SignedWords (.arr (v :: vs)) ↔ SignedWords v ∧ SignedWords (.arr vs) := by
  simp only [SignedWords, Value.numbers, Json.itemNumbers, List.forall_mem_append]

theorem signedWords_fields_cons {k : String} {v : Value} {kvs : List (String × Value)} :
    SignedWords (.obj ((k, v) :: kvs)) ↔ SignedWords v ∧ SignedWords (.obj kvs) := by
  simp only [SignedWords, Value.numbers, Json.fieldNumbers, List.forall_mem_append]

/-- Parts with a comma and a blank between them, and perhaps a comma behind the last one. -/
theorem listed_joinChars {α : Type} {close : Char} {part : α → List Char → Prop} {as : List α}
    {pieces : List (List Char)} (h : List.Forall₂ part as pieces) {trail : List Char}
    (htrail : trail = [] ∨ trail = [','] ∧ as ≠ []) {bs : List Char}
    (hbs : ∀ c ∈ bs, dialect.blank c = true) :
    dialect.Listed close part as (bs ++ (joinChars [',', ' '] pieces ++ (trail ++ [close]))) := by
  have hnone := dialect.blank_nil
  have hspace : ∀ c ∈ [' '], dialect.blank c = true := List.forall_mem_singleton.mpr rfl
  induction h generalizing bs with
  | nil =>
    obtain rfl : trail = [] := htrail.resolve_right fun h => h.2 rfl
    exact .nil hbs
  | @cons a piece as pieces ha hrest ih =>
    cases hrest with
    | nil =>
      obtain rfl | ⟨rfl, -⟩ := htrail
      · exact .last hbs ha hnone
      · exact .cons hbs ha hnone (.nil hnone) fun _ => rfl
    | cons ha' hrest' =>
      have hmore := ih (htrail.imp_right fun h => ⟨h.1, List.cons_ne_nil _ _⟩) hspace
      have hcons := Json.Dialect.Listed.cons hbs ha hnone hmore (by simp)
      simpa [joinChars] using hcons

mutual

/-- What a script shows is a text of the value. -/
theorem spelt_chars : (w : Written) → SignedWords w.value → dialect.Spelt w.value (w.chars shown)
  | .none, _ => .scalar .none
  | .flag true, _ => .scalar .true
  | .flag false, _ => .scalar .false
  | .int n, h => .scalar (.int (h (.int n) List.mem_cons_self))
  | .text s, _ => .scalar (scalarText_textChars shown s)
  | .list ws, h => .list (listed_joinChars (spelt_itemChars ws h) (.inl rfl) dialect.blank_nil)
  | .tuple ws, h => by
    have htrail : loneComma ws = [] ∨ loneComma ws = [','] ∧ Written.itemValues ws ≠ [] := by
      refine (loneComma_cases ws).imp_right fun h => ⟨h.1, ?_⟩
      cases ws with
      | nil => exact absurd rfl h.2
      | cons w ws => exact List.cons_ne_nil _ _
    exact .tuple rfl (listed_joinChars (spelt_itemChars ws h) htrail dialect.blank_nil)
  | .mapping ms, h =>
    .mapping (listed_joinChars (spelt_memberChars ms h) (.inl rfl) dialect.blank_nil)

theorem spelt_itemChars : (ws : List Written) → SignedWords (.arr (Written.itemValues ws)) →
    List.Forall₂ dialect.Spelt (Written.itemValues ws) (Written.itemChars shown ws)
  | [], _ => .nil
  | w :: ws, h => by
    obtain ⟨hw, hws⟩ := signedWords_cons.mp h
    exact .cons (spelt_chars w hw) (spelt_itemChars ws hws)

theorem spelt_memberChars : (ms : List (String × Written)) →
    SignedWords (.obj (Written.memberValues ms)) →
    List.Forall₂ (dialect.Member dialect.Spelt) (Written.memberValues ms)
      (Written.memberChars shown ms)
  | [], _ => .nil
  | (k, w) :: ms, h => by
    obtain ⟨hw, hms⟩ := signedWords_fields_cons.mp h
    have hspace : ∀ c ∈ [' '], dialect.blank c = true := List.forall_mem_singleton.mpr rfl
    exact .cons (.mk (scalarText_textChars shown k) dialect.blank_nil hspace (spelt_chars w hw))
      (spelt_memberChars ms hms)

end

/-- **A value that a script shows is read as the value**, if signed words hold its integers and the
reader goes as deep as its containers are nested. -/
theorem read_chars {w : Written} (hwords : SignedWords w.value)
    (hdepth : w.value.nesting ≤ maxDepth) :
    read (String.ofList (w.chars shown)) = .ok w.value.canonical := by
  have hread := read_spelt understands_dialect (spelt_chars shown w hwords) dialect.blank_nil
    dialect.blank_nil
  rw [List.nil_append, List.append_nil] at hread
  obtain ⟨-, hread⟩ | ⟨hdeep, -⟩ := hread
  · exact hread
  · omega

/-! ## One line -/

theorem newline_notMem_escapedChar (quote c : Char) (hquote : quote = '\'' ∨ quote = '"') :
    '\n' ∉ escapedChar shown quote c := by
  have hhex := fun digits => notMem_hexChars (c := '\n') rfl digits c.toNat
  have hne : ∀ d : Char, d ≠ '\n' → '\n' ∉ ['\\', d] := by
    intro d hd
    simp [hd.symm]
  unfold escapedChar
  split
  · rename_i hc
    refine hne c ?_
    rcases hc with rfl | rfl
    · rcases hquote with rfl | rfl <;> decide
    · decide
  split
  · decide
  split
  · decide
  rename_i hc
  split
  · decide
  split
  · simp [hhex]
  split
  · simpa using Ne.symm hc
  split
  · simp [hhex]
  split
  · simp [hhex]
  · simp [hhex]

theorem newline_notMem_textChars (s : String) : '\n' ∉ textChars shown s := by
  have hquote := quoteOf_cases s.toList
  have hne : quoteOf s.toList ≠ '\n' := by
    rcases hquote with h | h <;> rw [h] <;> decide
  have hchars : '\n' ∉ s.toList.flatMap (escapedChar shown (quoteOf s.toList)) := by
    rw [List.mem_flatMap]
    rintro ⟨c, -, hc⟩
    exact newline_notMem_escapedChar shown _ c hquote hc
  simp [textChars, hchars, hne.symm]

theorem newline_notMem_joinChars {pieces : List (List Char)} (h : ∀ p ∈ pieces, '\n' ∉ p) :
    '\n' ∉ joinChars [',', ' '] pieces := by
  intro hmem
  obtain hsep | ⟨p, hp, hc⟩ := Json.mem_joinChars hmem
  · revert hsep
    decide
  · exact h p hp hc

mutual

/-- A value is shown on one line. -/
theorem newline_notMem_chars : (w : Written) → '\n' ∉ w.chars shown
  | .none => by simp [Written.chars]
  | .flag true => by simp [Written.chars]
  | .flag false => by simp [Written.chars]
  | .int n => Json.newline_notMem_intText n
  | .text s => newline_notMem_textChars shown s
  | .list ws => by
    have hitems := newline_notMem_joinChars (newline_notMem_itemChars ws)
    simp [Written.chars, hitems]
  | .tuple ws => by
    have hitems := newline_notMem_joinChars (newline_notMem_itemChars ws)
    have hlone : '\n' ∉ loneComma ws := by
      obtain h | ⟨h, -⟩ := loneComma_cases ws <;> simp [h]
    simp [Written.chars, hitems, hlone]
  | .mapping ms => by
    have hmembers := newline_notMem_joinChars (newline_notMem_memberChars ms)
    simp [Written.chars, hmembers]

theorem newline_notMem_itemChars : (ws : List Written) →
    ∀ p ∈ Written.itemChars shown ws, '\n' ∉ p
  | [] => by simp [Written.itemChars]
  | w :: ws => List.forall_mem_cons.mpr ⟨newline_notMem_chars w, newline_notMem_itemChars ws⟩

theorem newline_notMem_memberChars : (ms : List (String × Written)) →
    ∀ p ∈ Written.memberChars shown ms, '\n' ∉ p
  | [] => by simp [Written.memberChars]
  | (k, w) :: ms => by
    refine List.forall_mem_cons.mpr ⟨?_, newline_notMem_memberChars ms⟩
    have hkey := newline_notMem_textChars shown k
    have hvalue := newline_notMem_chars w
    simp [hkey, hvalue]

end

end Trees

end Literal

end Enclave.Script
