import Enclave.Proofs.Run.Result
import Enclave.Proofs.Text.Lines

/-!
# The result in an output

An output is searched candidate by candidate, and `readResult_toOption` says what is found: the
first candidate that is a result as JSON, or else the first that is one as a literal.

`readResult_recovers` is about an output that has the line of a result among other lines. Lines that
open no mapping are no candidates, so two are left: the line itself, and the whole text. The whole
text is a mapping only where nothing but blanks stands in front of the line; then JSON either reads
the result off the front of it, or fails over what stands behind, and the line is next
(`Carried.strictResult_append`). Nothing has to be known of literals: JSON wins.
-/

namespace Enclave

open Json (Value Doc Numeral)

/-! ## Candidates -/

/-- What a reading of texts makes of a candidate: a result, if the candidate is one. -/
def resultIn (read : String → Option Value) (candidate : String) : Option RunResult :=
  (read candidate).bind fun v => (resultOfValue v).toOption

/-- The result that a candidate is as JSON. -/
def strictResult : String → Option RunResult := resultIn fun c => (Value.parse c).toOption

/-- The result that a candidate is as a literal of a script. -/
def literalResult : String → Option RunResult := resultIn fun c => (readLiteral c).toOption

/-- A pass over the candidates finds the first that is a result. -/
theorem firstResult_toOption (read : String → Option Value) (problem : String)
    (candidates : List String) :
    (firstResult read problem candidates).toOption = candidates.findSome? (resultIn read) := by
  induction candidates generalizing problem with
  | nil => rfl
  | cons c candidates ih =>
    rw [firstResult, List.findSome?_cons, resultIn]
    cases read c with
    | none => exact ih problem
    | some v =>
      rw [Option.bind_some]
      cases hresult : resultOfValue v with
      | ok r => simp only [hresult, Except.toOption]
      | error e =>
        simp only [hresult]
        exact ih e.message

/-- The candidates of a text. -/
def candidatesOf (text : String) : List String := resultCandidates (Text.trimChars text.toList)

theorem candidatesOf_of_blank {text : String} (h : Text.trimChars text.toList = []) :
    candidatesOf text = [""] := by
  rw [candidatesOf, h]
  rfl

/-- **What is found in an output** is the first candidate that is a result as JSON, or the first
that is one as a literal where there is none. -/
theorem readResult_toOption (text : String) :
    (readResult text).toOption = ((candidatesOf text).findSome? strictResult).or
      ((candidatesOf text).findSome? literalResult) := by
  unfold readResult
  simp only
  split
  · rename_i hempty
    rw [candidatesOf_of_blank (List.isEmpty_iff.mp hempty)]
    rfl
  · rw [← candidatesOf]
    have hstrict := firstResult_toOption (fun c => (Value.parse c).toOption)
      "no result mapping found" (candidatesOf text)
    rw [← strictResult] at hstrict
    split
    · rename_i hfirst
      rw [hfirst] at hstrict
      rw [← hstrict]
      rfl
    · rename_i problem hfirst
      rw [hfirst] at hstrict
      have hliteral := firstResult_toOption (fun c => (readLiteral c).toOption) problem
        (candidatesOf text)
      rw [← literalResult] at hliteral
      rw [← hstrict, ← hliteral]
      split
      · rename_i hsecond
        rw [hsecond]
        rfl
      · rename_i hsecond
        rw [hsecond]
        rfl

/-- Nothing but the absence of a result is wrong with an output. -/
theorem readResult_error {text : String} {e : Failure} (h : readResult text = .error e) :
    ∃ reason, e = .unreadable reason := by
  unfold readResult at h
  simp only at h
  split at h
  · cases h
    exact ⟨_, rfl⟩
  split at h
  · cases h
  split at h
  · cases h
  · cases h
    exact ⟨_, rfl⟩

theorem wellShaped_of_resultOfValue {v : Value} {r : RunResult} (h : resultOfValue v = .ok r) :
    r.WellShaped := by
  unfold resultOfValue at h
  split at h
  · cases h
  split at h
  · cases h
  split at h
  · rename_i hshape
    cases h
    exact RunResult.wellShaped_of_checkShape hshape
  · cases h

/-- A result in an output is the result that some value is, read as JSON or as a literal. -/
theorem resultOfValue_of_readResult {text : String} {r : RunResult} (h : readResult text = .ok r) :
    ∃ v, resultOfValue v = .ok r ∧
      ∃ c, Value.parse c = .ok v ∨ Script.Literal.read c = .ok v := by
  have hin : ∀ (read : String → Option Value) (cs : List String),
      cs.findSome? (resultIn read) = some r →
      ∃ c v, read c = some v ∧ resultOfValue v = .ok r := by
    intro read cs hfound
    obtain ⟨c, -, hc⟩ := List.exists_of_findSome?_eq_some hfound
    obtain ⟨v, hread, hv⟩ := Option.bind_eq_some_iff.mp hc
    exact ⟨c, v, hread, eq_ok_of_toOption hv⟩
  have hfound := readResult_toOption text
  rw [h] at hfound
  obtain hstrict | ⟨-, hliteral⟩ := Option.or_eq_some_iff.mp hfound.symm
  · obtain ⟨c, v, hread, hv⟩ := hin _ _ hstrict
    exact ⟨v, hv, c, .inl (eq_ok_of_toOption hread)⟩
  · obtain ⟨c, v, hread, hv⟩ := hin _ _ hliteral
    refine ⟨v, hv, c, .inr ?_⟩
    have hliteral := eq_ok_of_toOption hread
    unfold readLiteral at hliteral
    split at hliteral
    · rename_i hok
      rw [hok, Except.ok.inj hliteral]
    · cases hliteral

/-- Whatever is found in an output fits together. -/
theorem wellShaped_of_readResult {text : String} {r : RunResult} (h : readResult text = .ok r) :
    r.WellShaped := by
  obtain ⟨v, hv, -⟩ := resultOfValue_of_readResult h
  exact wellShaped_of_resultOfValue hv

/-! ## A result on its line -/

namespace RunResult

/-- The doubles in the cells of a result are the same after they were written and read. -/
def DoublesSurvive (r : RunResult) : Prop :=
  ∀ row ∈ r.rows, ∀ cell ∈ row, ∀ f, .float f ∈ cell.numbers → Json.Survives f

/-- A result that one line of JSON carries: its parts fit together, its counts fit into words, its
cells are cells as they are read, and the doubles in them survive. -/
structure Carried (r : RunResult) : Prop where
  shape : r.WellShaped
  count : r.rowCount < 2 ^ 64
  time : r.timeMs < 2 ^ 64
  cells : ∀ row ∈ r.rows, ∀ cell ∈ row, ReadCell cell
  doubles : r.DoublesSurvive

variable {r : RunResult}

theorem Carried.numbers (h : r.Carried) :
    ∀ row ∈ r.rows, ∀ cell ∈ row, ∀ n ∈ cell.numbers, n.Carried := by
  intro row hrow cell hcell n hn
  cases n with
  | int n => exact (h.cells row hrow cell hcell).numbers (.int n) hn
  | float f => exact h.doubles row hrow cell hcell f hn
  | tooLarge => exact (Json.tooLarge_notMem_numbers cell hn).elim

theorem Carried.order (h : r.Carried) : ∀ row ∈ r.rows, ∀ cell ∈ row, cell.canonical = cell :=
  fun row hrow cell hcell => (h.cells row hrow cell hcell).canonical

/-- The numbers in a document of a result are its counts and those of its cells. -/
theorem numbers_toJson {P : Numeral → Prop} (hcount : P (.int r.rowCount))
    (htime : P (.int r.timeMs)) (hcells : ∀ row ∈ r.rows, ∀ cell ∈ row, ∀ n ∈ cell.numbers, P n) :
    ∀ n ∈ r.toJson.numbers, P n := by
  have hcolumns : (Value.strings r.columns).numbers = [] := by
    simp [Value.strings, Value.numbers, Json.itemNumbers_eq]
  have herror : (Value.ofOption r.error).numbers = [] := by
    cases r.error <;> rfl
  have hrows : ∀ n ∈ (Value.arr (r.rows.map Value.arr)).numbers, P n := by
    intro n hn
    rw [Value.numbers] at hn
    obtain ⟨_, hmem, hn⟩ := Json.mem_itemNumbers.mp hn
    obtain ⟨row, hrow, rfl⟩ := List.mem_map.mp hmem
    rw [Value.numbers] at hn
    obtain ⟨cell, hcell, hn⟩ := Json.mem_itemNumbers.mp hn
    exact hcells row hrow cell hcell n hn
  intro n hn
  simp only [toJson, Value.numbers, Json.fieldNumbers, hcolumns, herror, Value.nat,
    List.nil_append, List.append_nil, List.mem_append, List.mem_singleton] at hn
  rcases hn with hn | rfl | rfl
  · exact hrows n hn
  · exact hcount
  · exact htime

theorem carried_nat {n : Nat} (h : n < 2 ^ 64) : (Numeral.int n).Carried := by
  constructor <;> omega

theorem Carried.toJson_numbers (h : r.Carried) : ∀ n ∈ r.toJson.numbers, n.Carried :=
  numbers_toJson (carried_nat h.count) (carried_nat h.time) h.numbers

theorem Carried.toJson_nesting (h : r.Carried) : r.toJson.nesting ≤ Json.maxDepth := by
  have hdepth : cellDepth + 3 = Json.maxDepth := rfl
  have hcolumns : (Value.strings r.columns).nesting ≤ 1 := by
    rw [Value.strings, Value.nesting]
    have hitems : Value.itemNesting (r.columns.map Value.str) ≤ 0 := by
      rw [Value.itemNesting_le_iff]
      simp [Value.nesting]
    omega
  have herror : (Value.ofOption r.error).nesting = 0 := by
    cases r.error <;> rfl
  have hrows : (Value.arr (r.rows.map Value.arr)).nesting ≤ cellDepth + 2 := by
    have htable : Value.itemNesting (r.rows.map Value.arr) ≤ cellDepth + 1 := by
      rw [Value.itemNesting_le_iff, List.forall_mem_map]
      intro row hrow
      rw [Value.nesting]
      exact Nat.add_le_add_right (Value.itemNesting_le_iff.mpr fun cell hcell =>
        (h.cells row hrow cell hcell).nesting) 1
    rw [Value.nesting]
    omega
  generalize hrowsIs : Value.arr (r.rows.map Value.arr) = rows at hrows
  simp only [toJson, Value.nesting, Value.fieldNesting, hrowsIs, herror, Value.nat]
  omega

/-- The line of a result reads as its document. -/
theorem Carried.parse_compact (h : r.Carried) :
    Value.parse r.toJson.compact = .ok r.toJson.canonical :=
  Value.parse_compact h.toJson_numbers h.toJson_nesting

/-- The document of a result is the result. -/
theorem Carried.resultOfValue (h : r.Carried) :
    Enclave.resultOfValue r.toJson.canonical = .ok r := by
  have hstatus : r.toJson.canonical.get? "status" = some (.str r.status.wire) := by
    rw [canonical_toJson r h.order]
    rfl
  rw [Enclave.resultOfValue, hstatus, if_neg (by simp), decodeValue_toJson h.count h.time h.order]
  simp only [h.shape.checkShape]

/-- The line of a result is the result. -/
theorem Carried.strictResult (h : r.Carried) : Enclave.strictResult r.toJson.compact = some r := by
  rw [Enclave.strictResult, resultIn, h.parse_compact]
  simp only [Except.toOption, Option.bind_some, h.resultOfValue]

end RunResult

/-! ## A result among other lines -/

/-- A line of something else: it is one line, and it does not open a mapping. -/
structure LogLine (line : String) : Prop where
  oneLine : '\n' ∉ line.toList
  notOpening : (Text.trimChars line.toList).head? ≠ some '{'

instance (line : String) : Decidable (LogLine line) :=
  decidable_of_iff ('\n' ∉ line.toList ∧ (Text.trimChars line.toList).head? ≠ some '{')
    ⟨fun h => ⟨h.1, h.2⟩, fun h => ⟨h.oneLine, h.notOpening⟩⟩

/-- A trimmed line that opens a mapping. -/
def mappingLine (line : List Char) : Option (List Char) :=
  if line.head? == some '{' then some line else none

theorem filter_reverse_mappingLine (lines : List (List Char)) :
    (lines.reverse.map Text.trimChars).filter (fun l => l.head? == some '{') =
      (lines.filterMap fun line => mappingLine (Text.trimChars line)).reverse := by
  rw [← List.filterMap_reverse]
  generalize lines.reverse = lines
  induction lines with
  | nil => rfl
  | cons line lines ih =>
    rw [List.map_cons, List.filter_cons, List.filterMap_cons, mappingLine, ih]
    split <;> rfl

/-- Apart from the whole text, the candidates are the lines that open a mapping. -/
theorem candidatesOf_eq (text : String) :
    candidatesOf text = String.ofList (Text.trimChars text.toList) ::
      ((text.toList.splitOn '\n').filterMap fun line =>
        mappingLine (Text.trimChars line)).reverse.map String.ofList := by
  rw [candidatesOf, resultCandidates, filter_reverse_mappingLine,
    Text.filterMap_linesOf_trimChars (Text.passesBlanks_trimChars rfl), List.map_cons]

theorem filterMap_logLines {lines : List String} (h : ∀ line ∈ lines, LogLine line) :
    (lines.map String.toList).filterMap (fun line => mappingLine (Text.trimChars line)) = [] := by
  rw [List.filterMap_eq_nil_iff, List.forall_mem_map]
  intro line hline
  have hopens := (h line hline).notOpening
  rw [mappingLine, if_neg (by simpa using hopens)]

namespace RunResult

variable {r : RunResult}

/-- The line of a result opens and closes with its braces. -/
theorem toJson_chars (r : RunResult) : ∃ cs, r.toJson.chars = '{' :: (cs ++ ['}']) := ⟨_, rfl⟩

theorem trimChars_toJson (r : RunResult) : Text.trimChars r.toJson.chars = r.toJson.chars := by
  obtain ⟨cs, hcs⟩ := r.toJson_chars
  rw [hcs]
  exact Text.trimChars_eq_self rfl rfl cs

theorem toList_compact (v : Value) : v.compact.toList = v.chars := String.toList_ofList

/-- Lines with the line of a result among them. -/
def amongLines (r : RunResult) (before after : List String) : String :=
  "\n".intercalate (before ++ r.toJson.compact :: after)

theorem splitOn_amongLines {before after : List String} (hbefore : ∀ line ∈ before, LogLine line)
    (hafter : ∀ line ∈ after, LogLine line) :
    (r.amongLines before after).toList.splitOn '\n' =
      before.map String.toList ++ r.toJson.chars :: after.map String.toList := by
  have hlines : (before ++ r.toJson.compact :: after).map String.toList =
      before.map String.toList ++ r.toJson.chars :: after.map String.toList := by
    rw [List.map_append, List.map_cons, toList_compact]
  rw [amongLines, String.toList_intercalate, ← hlines]
  refine List.splitOn_intercalate '\n' ?_ (by simp)
  rw [List.forall_mem_map, List.forall_mem_append, List.forall_mem_cons, toList_compact]
  exact ⟨fun line hline => (hbefore line hline).oneLine, Json.newline_notMem_chars _,
    fun line hline => (hafter line hline).oneLine⟩

/-- The only line among them that opens a mapping is that of the result. -/
theorem candidatesOf_amongLines {before after : List String}
    (hbefore : ∀ line ∈ before, LogLine line) (hafter : ∀ line ∈ after, LogLine line) :
    candidatesOf (r.amongLines before after) =
      [String.ofList (Text.trimChars (r.amongLines before after).toList), r.toJson.compact] := by
  have hline : mappingLine r.toJson.chars = some r.toJson.chars := by
    obtain ⟨cs, hcs⟩ := r.toJson_chars
    rw [hcs]
    rfl
  rw [candidatesOf_eq, splitOn_amongLines hbefore hafter, List.filterMap_append,
    List.filterMap_cons, filterMap_logLines hbefore, filterMap_logLines hafter, trimChars_toJson,
    hline]
  rfl

/-! ### The whole text as a candidate -/

/-- A text that does not open a mapping is no result. -/
theorem strictResult_of_head {cs : List Char} (h : (Json.skipBlank cs).head? ≠ some '{') :
    Enclave.strictResult (String.ofList cs) = none := by
  rw [Enclave.strictResult, resultIn, Option.bind_eq_none_iff]
  intro v hv
  have hstatus : v.get? "status" = none := by
    cases v with
    | obj fields =>
      have hopens := Value.parse_obj (eq_ok_of_toOption hv)
      rw [String.toList_ofList] at hopens
      exact absurd hopens h
    | _ => rfl
  rw [Enclave.resultOfValue, hstatus]
  rfl

/-- The line of a result with something behind it is that result, or none. -/
theorem Carried.strictResult_append (h : r.Carried) {rest : List Char}
    (hrest : Json.EndsNumber rest) :
    Enclave.strictResult (String.ofList (r.toJson.chars ++ rest)) = some r ∨
      Enclave.strictResult (String.ofList (r.toJson.chars ++ rest)) = none := by
  have hread := Doc.read_append h.toJson_numbers hrest
  have hvalue := r.toJson.toValue_ofValue Json.maxDepth h.toJson_nesting
  rw [Enclave.strictResult, resultIn, Value.parse, hread]
  simp only [hvalue]
  split
  · cases ‹Except.ok _ = Except.error _›
  · exact .inr rfl
  · rename_i hvalues _
    cases hvalues
    left
    simp only [Except.toOption, Option.bind_some, h.resultOfValue]

theorem head?_trimStart_logLine {line : String} (h : LogLine line) :
    (Text.trimStart line.toList).head? ≠ some '{' := by
  rw [← Text.head?_trimChars]
  exact h.notOpening

theorem toList_amongLines_cons (r : RunResult) (line : String) (before after : List String) :
    (r.amongLines (line :: before) after).toList =
      line.toList ++ '\n' :: (r.amongLines before after).toList := by
  rw [amongLines, amongLines, String.toList_intercalate, String.toList_intercalate,
    List.cons_append, List.map_cons, List.intercalate_cons_of_ne_nil (by simp), List.append_assoc]
  rfl

theorem toList_amongLines_nil (r : RunResult) (after : List String) :
    ∃ tail, (r.amongLines [] after).toList = r.toJson.chars ++ tail ∧
      (tail = [] ∨ ∃ rest, tail = '\n' :: rest) := by
  rw [amongLines, String.toList_intercalate, List.nil_append, List.map_cons, toList_compact]
  cases after with
  | nil =>
    refine ⟨[], ?_, .inl rfl⟩
    rw [List.map_nil, List.intercalate_singleton, List.append_nil]
  | cons line after =>
    rw [List.map_cons, List.intercalate_cons_cons, List.append_assoc]
    exact ⟨_, rfl, .inr ⟨_, rfl⟩⟩

/-- A text of lines that opens a mapping opens it with the line of the result: there is nothing but
blanks before. -/
theorem trimStart_amongLines {before after : List String}
    (hbefore : ∀ line ∈ before, LogLine line)
    (h : (Text.trimStart (r.amongLines before after).toList).head? = some '{') :
    ∃ tail, Text.trimStart (r.amongLines before after).toList = r.toJson.chars ++ tail ∧
      (tail = [] ∨ ∃ rest, tail = '\n' :: rest) := by
  -- Each line before is trimmed away as a whole, or the text opens with what is left of it.
  induction before with
  | nil =>
    obtain ⟨tail, htext, htail⟩ := r.toList_amongLines_nil after
    obtain ⟨cs, hcs⟩ := r.toJson_chars
    refine ⟨tail, ?_, htail⟩
    rw [htext, hcs, List.cons_append]
    exact List.dropWhile_cons_of_neg (by decide)
  | cons line before ih =>
    obtain ⟨hline, hbefore⟩ := List.forall_mem_cons.mp hbefore
    have htrim : Text.trimStart (r.amongLines (line :: before) after).toList =
        if (Text.trimStart line.toList).isEmpty then
          Text.trimStart (r.amongLines before after).toList
        else Text.trimStart line.toList ++ '\n' :: (r.amongLines before after).toList := by
      rw [toList_amongLines_cons, Text.trimStart, List.dropWhile_append,
        List.dropWhile_cons_of_pos (by decide)]
      rfl
    rw [htrim] at h ⊢
    split at h
    · rename_i hblank
      rw [if_pos hblank]
      exact ih hbefore h
    · rename_i hmore
      rw [List.head?_append_of_ne_nil _ (by simpa using hmore)] at h
      exact absurd h (head?_trimStart_logLine hline)

theorem endsNumber_trimEnd {tail : List Char} (h : tail = [] ∨ ∃ rest, tail = '\n' :: rest) :
    Json.EndsNumber (Text.trimEnd tail) := by
  obtain ⟨cut, hcut⟩ := Text.trimEnd_prefix tail
  cases hkept : Text.trimEnd tail with
  | nil => exact .nil
  | cons c kept =>
    rw [hkept] at hcut
    obtain rfl | ⟨rest, rfl⟩ := h
    · cases hcut
    · cases hcut
      exact .cons rfl (by decide) (by decide) (by decide)

/-- What begins a trimmed text is no blank of JSON. -/
theorem skipBlank_trimChars (cs : List Char) :
    Json.skipBlank (Text.trimChars cs) = Text.trimChars cs := by
  cases htrim : Text.trimChars cs with
  | nil => rfl
  | cons c ds =>
    have hhead := Text.head?_trimChars cs
    rw [htrim] at hhead
    have hc := Text.head?_trimStart hhead.symm
    refine List.dropWhile_cons_of_neg ?_
    rw [Json.isJsonBlank]
    intro hblank
    simp only [Bool.or_eq_true, beq_iff_eq] at hblank
    obtain ((rfl | rfl) | rfl) | rfl := hblank <;> cases hc

/-- The whole text is the result, or none. -/
theorem Carried.strictResult_whole (h : r.Carried) {before : List String} (after : List String)
    (hbefore : ∀ line ∈ before, LogLine line) :
    let whole := String.ofList (Text.trimChars (r.amongLines before after).toList)
    Enclave.strictResult whole = some r ∨ Enclave.strictResult whole = none := by
  intro whole
  -- Only a text that opens a mapping can be a result, and this one does so only with the result.
  by_cases hopens : (Text.trimStart (r.amongLines before after).toList).head? = some '{'
  · obtain ⟨tail, htext, htail⟩ := trimStart_amongLines hbefore hopens
    obtain ⟨cs, hcs⟩ := r.toJson_chars
    have hwhole : whole = String.ofList (r.toJson.chars ++ Text.trimEnd tail) := by
      rw [hcs] at htext ⊢
      have hbrace : ('{' :: (cs ++ ['}'])) ++ tail = ('{' :: cs) ++ '}' :: tail := by simp
      have hbrace' : ('{' :: (cs ++ ['}'])) ++ Text.trimEnd tail
          = ('{' :: cs) ++ '}' :: Text.trimEnd tail := by simp
      rw [hbrace']
      refine congrArg String.ofList ?_
      rw [Text.trimChars, htext, hbrace, Text.trimEnd_append_cons (by decide)]
    rw [hwhole]
    exact h.strictResult_append (endsNumber_trimEnd htail)
  · right
    refine strictResult_of_head ?_
    rw [skipBlank_trimChars, Text.head?_trimChars]
    exact hopens

/-- A result is found on its line, among any other lines that open no mapping. -/
theorem Carried.readResult_amongLines (h : r.Carried) {before after : List String}
    (hbefore : ∀ line ∈ before, LogLine line) (hafter : ∀ line ∈ after, LogLine line) :
    readResult (r.amongLines before after) = .ok r := by
  have hfound : (candidatesOf (r.amongLines before after)).findSome? Enclave.strictResult
      = some r := by
    rw [candidatesOf_amongLines hbefore hafter, List.findSome?_cons]
    obtain hwhole | hwhole := h.strictResult_whole after hbefore
    · rw [hwhole]
    · rw [hwhole, List.findSome?_cons, h.strictResult]
  have hread := readResult_toOption (r.amongLines before after)
  rw [hfound] at hread
  exact eq_ok_of_toOption hread

end RunResult

/-- Null, a truth value, a string or an integer of 64 bits: what JSON carries whatever becomes of
doubles. -/
def Json.Value.Exact : Value → Prop
  | .null => True
  | .bool _ => True
  | .str _ => True
  | .int n => (Numeral.int n).InWord
  | .float _ => False
  | .arr _ => False
  | .obj _ => False

instance Json.Value.decidableExact : (v : Value) → Decidable v.Exact
  | .null => isTrue trivial
  | .bool _ => isTrue trivial
  | .str _ => isTrue trivial
  | .int n => inferInstanceAs (Decidable (-(2 ^ 63) ≤ n ∧ n < 2 ^ 64))
  | .float _ => isFalse id
  | .arr _ => isFalse id
  | .obj _ => isFalse id

theorem Json.Value.Exact.scalar {cell : Value} (h : cell.Exact) : cell.Scalar := by
  cases cell with
  | float f => cases h
  | _ => exact h

theorem Json.Value.Exact.noDouble {cell : Value} (h : cell.Exact) (f : Float) :
    .float f ∉ cell.numbers := by
  cases cell with
  | float f => cases h
  | arr items => cases h
  | obj fields => cases h
  | _ => simp [Value.numbers]

/-- **A result is recovered from its line.** Neither the lines around it nor anything in its own
strings changes what is found in the output. -/
theorem readResult_recovers {r : RunResult} (hshape : r.WellShaped) (hcount : r.rowCount < 2 ^ 64)
    (htime : r.timeMs < 2 ^ 64) (hcells : ∀ row ∈ r.rows, ∀ cell ∈ row, cell.Exact)
    {before after : List String} (hbefore : ∀ line ∈ before, LogLine line)
    (hafter : ∀ line ∈ after, LogLine line) :
    readResult ("\n".intercalate (before ++ r.toJson.compact :: after)) = .ok r := by
  have hcarried : r.Carried := by
    refine ⟨hshape, hcount, htime, fun row hrow cell hcell => ?_,
      fun row hrow cell hcell f hf => ?_⟩
    · exact (hcells row hrow cell hcell).scalar.readCell
    · exact ((hcells row hrow cell hcell).noDouble f hf).elim
  exact hcarried.readResult_amongLines hbefore hafter

/-- A result whose strings look like lines, like JSON and like a literal. -/
def quotingResult : RunResult where
  status := .success
  columns := ["a\n\x7b", "n"]
  rows := [[.str "\x7b\"status\": \"error\"\x7d\n", .int (-7)], [.null, .bool true]]
  rowCount := 2
  timeMs := 3
  stdout := "\n\x7b'status': 'timeout'\x7d\n"
  stderr := "\\"
  error := none
  truncated := false

theorem readResult_recovers_quoting :
    readResult ("\n".intercalate
      (["warming up", " ['status'"] ++ quotingResult.toJson.compact :: ["done: \x7b\x7d", ""])) =
        .ok quotingResult :=
  readResult_recovers ⟨rfl, by decide, by decide⟩ (by decide) (by decide) (by decide) (by decide)
    (by decide)

end Enclave
