import Enclave.Json.Printer
import Enclave.Json.Document

/-!
# Layouts

Both ways of writing a value differ only in the blanks between its tokens. A `Layout` says where
these stand, and `Value.laid` writes a value with them: `Layout.compact` is a text on one line
(`Value.chars_eq_laid`), `Layout.pretty` one with a member a line (`Value.prettyChars_eq_laid`).
What is said of every layout is said once.
-/

namespace Enclave.Json

theorem joinChars_cons (sep piece : List Char) (rest : List (List Char)) :
    joinChars sep (piece :: rest) = piece ++ rest.flatMap fun p => sep ++ p := by
  induction rest generalizing piece with
  | nil => simp [joinChars]
  | cons next rest ih =>
    rw [joinChars, ih]
    · simp
    · simp

/-- The blanks of a written value: in front of an item, a member or the end of a container, by the
depth of the line, and behind a colon. -/
structure Layout where
  gap : Nat → List Char
  colon : List Char
  gap_blank : ∀ depth, ∀ c ∈ gap depth, isJsonBlank c = true
  colon_blank : ∀ c ∈ colon, isJsonBlank c = true

/-- No blanks at all. -/
def Layout.compact : Layout := ⟨fun _ => [], [], by simp, by simp⟩

theorem isJsonBlank_newline (depth : Nat) : ∀ c ∈ newline depth, isJsonBlank c = true := by
  rw [newline, List.forall_mem_cons]
  refine ⟨rfl, fun c hc => ?_⟩
  rw [List.eq_of_mem_replicate hc]
  rfl

/-- One item or member a line. -/
def Layout.pretty : Layout := ⟨newline, [' '], isJsonBlank_newline, by simp [isJsonBlank]⟩

mutual

/-- The characters of a value in a layout. -/
def Value.laid (l : Layout) (depth : Nat) : Value → List Char
  | .arr [] => ['[', ']']
  | .arr (v :: vs) =>
    '[' :: (l.gap (depth + 1) ++ (v.laid l (depth + 1) ++ (laidItems l (depth + 1) vs ++
      (l.gap depth ++ [']']))))
  | .obj [] => ['{', '}']
  | .obj ((k, v) :: kvs) =>
    '{' :: (l.gap (depth + 1) ++ (stringChars k ++ ':' :: (l.colon ++ (v.laid l (depth + 1) ++
      (laidFields l (depth + 1) kvs ++ (l.gap depth ++ ['}']))))))
  | .null => Value.null.chars
  | .bool b => (Value.bool b).chars
  | .int n => (Value.int n).chars
  | .float f => (Value.float f).chars
  | .str s => stringChars s

/-- The items of a list from the second one on, each behind its comma. -/
def laidItems (l : Layout) (depth : Nat) : List Value → List Char
  | [] => []
  | v :: vs => ',' :: (l.gap depth ++ (v.laid l depth ++ laidItems l depth vs))

/-- The members of an object from the second one on, each behind its comma. -/
def laidFields (l : Layout) (depth : Nat) : List (String × Value) → List Char
  | [] => []
  | (k, v) :: kvs =>
    ',' :: (l.gap depth ++ (stringChars k ++ ':' :: (l.colon ++ (v.laid l depth ++
      laidFields l depth kvs))))

end

mutual

theorem Value.chars_eq_laid (depth : Nat) : (v : Value) → v.chars = v.laid .compact depth
  | .null => rfl
  | .bool _ => rfl
  | .int _ => rfl
  | .float _ => rfl
  | .str _ => rfl
  | .arr [] => rfl
  | .arr (v :: vs) => by
    rw [Value.chars, itemChars, joinChars_cons, laidItems_compact (depth + 1) vs,
      v.chars_eq_laid (depth + 1)]
    simp [Value.laid, Layout.compact]
  | .obj [] => rfl
  | .obj ((k, v) :: kvs) => by
    rw [Value.chars, fieldChars, joinChars_cons, laidFields_compact (depth + 1) kvs,
      v.chars_eq_laid (depth + 1)]
    simp [Value.laid, Layout.compact]

theorem laidItems_compact (depth : Nat) : (vs : List Value) →
    ((itemChars vs).flatMap fun p => [','] ++ p) = laidItems .compact depth vs
  | [] => rfl
  | v :: vs => by
    rw [itemChars, List.flatMap_cons, laidItems_compact depth vs, v.chars_eq_laid depth]
    simp [laidItems, Layout.compact]

theorem laidFields_compact (depth : Nat) : (kvs : List (String × Value)) →
    ((fieldChars kvs).flatMap fun p => [','] ++ p) = laidFields .compact depth kvs
  | [] => rfl
  | (k, v) :: kvs => by
    rw [fieldChars, List.flatMap_cons, laidFields_compact depth kvs, v.chars_eq_laid depth]
    simp [laidFields, Layout.compact]

end

mutual

theorem Value.prettyChars_eq_laid (depth : Nat) : (v : Value) →
    v.prettyChars depth = v.laid .pretty depth
  | .null => rfl
  | .bool true => rfl
  | .bool false => rfl
  | .int _ => rfl
  | .float _ => rfl
  | .str _ => rfl
  | .arr [] => rfl
  | .arr (v :: vs) => by
    rw [Value.prettyChars, prettyItems, joinChars_cons, laidItems_pretty (depth + 1) vs,
      v.prettyChars_eq_laid (depth + 1)]
    simp [Value.laid, Layout.pretty]
  | .obj [] => rfl
  | .obj ((k, v) :: kvs) => by
    rw [Value.prettyChars, prettyFields, joinChars_cons, laidFields_pretty (depth + 1) kvs,
      v.prettyChars_eq_laid (depth + 1)]
    simp [Value.laid, Layout.pretty]

theorem laidItems_pretty (depth : Nat) : (vs : List Value) →
    ((prettyItems depth vs).flatMap fun p => ',' :: newline depth ++ p)
      = laidItems .pretty depth vs
  | [] => rfl
  | v :: vs => by
    rw [prettyItems, List.flatMap_cons, laidItems_pretty depth vs, v.prettyChars_eq_laid depth]
    simp [laidItems, Layout.pretty]

theorem laidFields_pretty (depth : Nat) : (kvs : List (String × Value)) →
    ((prettyFields depth kvs).flatMap fun p => ',' :: newline depth ++ p)
      = laidFields .pretty depth kvs
  | [] => rfl
  | (k, v) :: kvs => by
    rw [prettyFields, List.flatMap_cons, laidFields_pretty depth kvs, v.prettyChars_eq_laid depth]
    simp [laidFields, Layout.pretty]

end

end Enclave.Json
