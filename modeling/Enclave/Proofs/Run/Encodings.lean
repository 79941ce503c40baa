import Enclave.Proofs.Run.Stored
import Enclave.Proofs.Script.Written

/-!
# Two encodings of a result

A result is recovered from its line of JSON and from the mapping that a script shows for it. The
reader of literals holds integers in signed words and makes decimals of larger ones, while JSON and
the counts of a result go up to unsigned words; so the two encodings agree exactly on the results
whose integers fit into signed words (`readResult_shown_iff`).

A mapping is no JSON, since its keys stand between single quotes, so it is left to the reader of
literals; and it stands on one line, so nothing else in it can be taken for a result.
-/

namespace Enclave

open Json (Value Fields joinChars)
open Script (Written)
open Script.Literal (SignedWords)

/-! ## Members in any order -/

namespace RunResult

/-- The members of the document of a result. -/
def members (r : RunResult) : Fields :=
  match r.toJson with
  | .obj fields => fields
  | _ => []

theorem toJson_eq (r : RunResult) : r.toJson = .obj r.members := rfl

/-- A result whose integers fit into signed words. -/
structure Signed (r : RunResult) : Prop where
  count : r.rowCount < 2 ^ 63
  time : r.timeMs < 2 ^ 63
  cells : ∀ row ∈ r.rows, ∀ cell ∈ row, SignedWords cell

/-- The names of the members. -/
theorem names_members (r : RunResult) : r.members.map Prod.fst = ["status", "columns", "rows",
    "row_count", "exec_time_ms", "stdout_trunc", "stderr_trunc", "error", "truncated"] := rfl

theorem nodup_members (r : RunResult) : (r.members.map Prod.fst).Nodup := by
  rw [names_members]
  decide

/-- The integers of a document fit into signed words as those of the result do. -/
theorem Signed.toJson {r : RunResult} (h : r.Signed) : SignedWords r.toJson := by
  have hword : ∀ {n : Nat}, n < 2 ^ 63 → Script.Literal.Signed (.int n) := by
    intro n hn
    constructor <;> omega
  exact numbers_toJson (hword h.count) (hword h.time) h.cells

end RunResult

namespace Script.Written

variable {w : Written} {r : RunResult}

/-- A mapping that has the members of a result, in any order; the rows may be lists or tuples. -/
def Shows (w : Written) (r : RunResult) : Prop :=
  ∃ ms, w = .mapping ms ∧ (memberValues ms).Perm r.members

theorem Shows.canonical (h : w.Shows r) : w.value.canonical = r.toJson.canonical := by
  obtain ⟨ms, rfl, hperm⟩ := h
  rw [RunResult.toJson_eq, value, Value.canonical, Value.canonical,
    Value.canonicalFields_perm hperm r.nodup_members]

theorem Shows.nesting (h : w.Shows r) : w.value.nesting ≤ r.toJson.nesting := by
  obtain ⟨ms, rfl, hperm⟩ := h
  rw [RunResult.toJson_eq, value, Value.nesting, Value.nesting, Nat.add_le_add_iff_right,
    Value.fieldNesting_le_iff]
  intro kv hkv
  exact Value.fieldNesting_le_iff.mp (Nat.le_refl _) kv (hperm.mem_iff.mp hkv)

theorem Shows.signedWords (h : w.Shows r) (hsigned : r.Signed) : SignedWords w.value := by
  obtain ⟨ms, rfl, hperm⟩ := h
  intro n hn
  rw [value, Value.numbers, Json.mem_fieldNumbers] at hn
  obtain ⟨kv, hkv, hn⟩ := hn
  refine hsigned.toJson n ?_
  rw [RunResult.toJson_eq, Value.numbers, Json.mem_fieldNumbers]
  exact ⟨kv, hperm.mem_iff.mp hkv, hn⟩

/-- The mapping opens with the single quote of its first name. -/
theorem Shows.chars_eq (h : w.Shows r) (shown : Char → Bool) :
    ∃ cs, w.chars shown = '{' :: '\'' :: (cs ++ ['}']) := by
  obtain ⟨ms, rfl, hperm⟩ := h
  have hnames := r.names_members
  obtain _ | ⟨⟨k, w⟩, ms⟩ := ms
  · have hlength : 0 = 9 := hperm.length_eq
    omega
  have hk : k ∈ r.members.map Prod.fst :=
    List.mem_map.mpr ⟨(k, w.value), hperm.mem_iff.mp List.mem_cons_self, rfl⟩
  have hquote : quoteOf k.toList = '\'' := by
    have hplain : ∀ name ∈ ["status", "columns", "rows", "row_count", "exec_time_ms",
        "stdout_trunc", "stderr_trunc", "error", "truncated"],
        quoteOf name.toList = '\'' := by decide
    exact hplain k (hnames ▸ hk)
  have hfirst : ∃ cs, joinChars [',', ' '] (memberChars shown ((k, w) :: ms)) = '\'' :: cs := by
    obtain ⟨cs, hcs⟩ : ∃ cs, textChars shown k = '\'' :: cs := by
      rw [textChars, hquote]
      exact ⟨_, rfl⟩
    obtain _ | ⟨⟨k', w'⟩, ms⟩ := ms
    · rw [memberChars, memberChars, joinChars, hcs]
      exact ⟨_, rfl⟩
    · rw [memberChars, memberChars, joinChars, hcs]
      · exact ⟨_, rfl⟩
      · exact List.cons_ne_nil _ _
  obtain ⟨cs, hcs⟩ := hfirst
  exact ⟨cs, by rw [chars, hcs]; rfl⟩

end Script.Written

/-! ## The mapping as an output -/

/-- A mapping whose first key stands between single quotes is no JSON. -/
theorem parse_singleQuote (cs : List Char) :
    Value.parse (String.ofList ('{' :: '\'' :: cs)) = .error .keyMustBeString := by
  have hread : ∀ fuel, Json.readValue (fuel + 3) ('{' :: '\'' :: cs) =
      (.obj [] (some .keyMustBeString), none) := fun fuel => rfl
  rw [Value.parse, Json.Doc.read, String.toList_ofList, hread]
  rfl

namespace Script.Written

variable {w : Written} {r : RunResult} (shown : Char → Bool)

/-- The text of a mapping is the only thing in it that may be a result. -/
theorem Shows.candidatesOf (h : w.Shows r) :
    candidatesOf (String.ofList (w.chars shown)) =
      [String.ofList (w.chars shown), String.ofList (w.chars shown)] := by
  obtain ⟨cs, hcs⟩ := h.chars_eq shown
  have htrim : Text.trimChars (w.chars shown) = w.chars shown := by
    rw [hcs]
    exact Text.trimChars_eq_self rfl rfl ('\'' :: cs)
  have hlines : (w.chars shown).splitOn '\n' = [w.chars shown] :=
    List.splitOn_eq_singleton (Script.Literal.newline_notMem_chars shown w)
  have hline : mappingLine (w.chars shown) = some (w.chars shown) := by
    rw [hcs]
    rfl
  rw [candidatesOf_eq, String.toList_ofList, htrim, hlines, List.filterMap_cons, htrim, hline]
  rfl

theorem Shows.strictResult (h : w.Shows r) :
    strictResult (String.ofList (w.chars shown)) = Option.none := by
  obtain ⟨cs, hcs⟩ := h.chars_eq shown
  rw [Enclave.strictResult, resultIn, hcs, parse_singleQuote]
  rfl

/-- What is found in the text of a mapping is what it is as a literal. -/
theorem Shows.readResult_toOption (h : w.Shows r) :
    (readResult (String.ofList (w.chars shown))).toOption =
      literalResult (String.ofList (w.chars shown)) := by
  rw [Enclave.readResult_toOption, h.candidatesOf shown]
  simp only [List.findSome?_cons, List.findSome?_nil, h.strictResult shown]
  cases literalResult (String.ofList (w.chars shown)) <;> rfl

end Script.Written

/-! ## What is found in the mapping -/

namespace RunResult

variable {w : Written} {r : RunResult} (shown : Char → Bool)

/-- The line of a result alone is an output with that result in it. -/
theorem Carried.readResult_compact (h : r.Carried) : readResult r.toJson.compact = .ok r := by
  have hread : readResult (r.amongLines [] []) = .ok r :=
    h.readResult_amongLines (by simp) (by simp)
  rwa [amongLines, List.nil_append, String.intercalate_singleton] at hread

theorem carried_of_exact (hshape : r.WellShaped) (hcount : r.rowCount < 2 ^ 64)
    (htime : r.timeMs < 2 ^ 64) (hcells : ∀ row ∈ r.rows, ∀ cell ∈ row, cell.Exact) :
    r.Carried where
  shape := hshape
  count := hcount
  time := htime
  cells row hrow cell hcell := (hcells row hrow cell hcell).scalar.readCell
  doubles row hrow cell hcell f hf := ((hcells row hrow cell hcell).noDouble f hf).elim

/-- A result with integers in signed words is found in its mapping. -/
theorem Carried.readResult_shown (h : r.Carried) (hsigned : r.Signed) (hw : w.Shows r) :
    readResult (String.ofList (w.chars shown)) = .ok r := by
  have hdepth : w.value.nesting ≤ Script.Literal.maxDepth := by
    have hjson : Json.maxDepth ≤ Script.Literal.maxDepth := by decide
    exact hw.nesting.trans (h.toJson_nesting.trans hjson)
  have hread : readLiteral (String.ofList (w.chars shown)) = .ok r.toJson.canonical := by
    rw [readLiteral, Script.Literal.read_chars shown (hw.signedWords hsigned) hdepth, hw.canonical]
  have hliteral : literalResult (String.ofList (w.chars shown)) = some r := by
    rw [literalResult, resultIn, hread]
    simp only [Except.toOption, Option.bind_some, h.resultOfValue]
  have hfound := hw.readResult_toOption shown
  rw [hliteral] at hfound
  exact eq_ok_of_toOption hfound

/-- Whatever is found in a mapping has integers in signed words, since the reader of literals gives
no others. -/
theorem signed_of_readResult_shown {r' : RunResult} (hw : w.Shows r)
    (h : readResult (String.ofList (w.chars shown)) = .ok r') : r'.Signed := by
  have hfound := hw.readResult_toOption shown
  rw [h] at hfound
  obtain ⟨v, hread, hv⟩ := Option.bind_eq_some_iff.mp hfound.symm
  have hsigned : SignedWords v := by
    have hliteral := eq_ok_of_toOption hread
    unfold readLiteral at hliteral
    split at hliteral
    · rename_i hok
      cases hliteral
      exact Script.Literal.signedWords_of_read hok
    · cases hliteral
  have hdecoded := decoded_of_resultOfValue (P := Script.Literal.Signed)
    ⟨by decide, by decide⟩ hsigned (eq_ok_of_toOption hv)
  have hcount : (r'.rowCount : Int) < 2 ^ 63 := hdecoded.count.2
  have htime : (r'.timeMs : Int) < 2 ^ 63 := hdecoded.time.2
  exact ⟨by omega, by omega, hdecoded.cells⟩

end RunResult

/-- **The two encodings of a result agree** exactly if its integers fit into signed words: then the
result itself is found in either. -/
theorem readResult_shown_iff {r : RunResult} (hshape : r.WellShaped) (hcount : r.rowCount < 2 ^ 64)
    (htime : r.timeMs < 2 ^ 64) (hcells : ∀ row ∈ r.rows, ∀ cell ∈ row, cell.Exact)
    {w : Written} (hw : w.Shows r) (shown : Char → Bool) :
    readResult (String.ofList (w.chars shown)) = readResult r.toJson.compact ↔ r.Signed := by
  have hcarried := RunResult.carried_of_exact hshape hcount htime hcells
  rw [hcarried.readResult_compact]
  exact ⟨RunResult.signed_of_readResult_shown shown hw,
    fun hsigned => hcarried.readResult_shown shown hsigned hw⟩

/-- The mapping of a success with one row and no output, the row a tuple and the status last. -/
def rowMapping (columns : List String) (row : List Written) (timeMs : Nat) : Written :=
  .mapping [("columns", .list (columns.map Written.text)), ("rows", .list [.tuple row]),
    ("row_count", .int 1), ("exec_time_ms", .int timeMs), ("stdout_trunc", .text ""),
    ("stderr_trunc", .text ""), ("error", .none), ("truncated", .flag false),
    ("status", .text "success")]

/-- The result that it shows. -/
def rowResult (columns : List String) (row : List Written) (timeMs : Nat) : RunResult :=
  ⟨.success, columns, [Written.itemValues row], 1, timeMs, "", "", none, false⟩

theorem shows_rowMapping (columns : List String) (row : List Written) (timeMs : Nat) :
    (rowMapping columns row timeMs).Shows (rowResult columns row timeMs) := by
  refine ⟨_, rfl, ?_⟩
  have hcolumns : Written.itemValues (columns.map Written.text) = columns.map Value.str := by
    induction columns with
    | nil => rfl
    | cons c columns ih => rw [List.map_cons, Written.itemValues, ih]; rfl
  simp only [Written.memberValues, Written.value, hcolumns]
  exact List.perm_append_singleton _ (rowResult columns row timeMs).members.tail

/-- Cells with both quotes, with escapes of every length, and with the last integers of a signed
word. -/
def limitsRow : List Written :=
  [.text "'\"\\\n\x07é☃😀", .none, .int (-(2 ^ 63)), .int (2 ^ 63 - 1)]

theorem readResult_shown_limits :
    readResult (String.ofList ((rowMapping ["it's", "n", "least", "most"] limitsRow
        (2 ^ 63 - 1)).chars fun _ => false)) =
      readResult (rowResult ["it's", "n", "least", "most"] limitsRow
        (2 ^ 63 - 1)).toJson.compact := by
  refine (readResult_shown_iff ⟨rfl, by decide, by decide⟩ (by decide) (by decide) (by decide)
    (shows_rowMapping _ _ _) fun _ => false).mpr ⟨by decide, by decide, ?_⟩
  simp [rowResult, limitsRow, Written.itemValues, Written.value, SignedWords, Value.numbers,
    Script.Literal.Signed]

/-- The last integer of an unsigned word is found in JSON, but not in the mapping. -/
theorem readResult_shown_unsigned :
    readResult (rowResult ["n"] [.int (2 ^ 64 - 1)] 0).toJson.compact =
        .ok (rowResult ["n"] [.int (2 ^ 64 - 1)] 0) ∧
      readResult (String.ofList ((rowMapping ["n"] [.int (2 ^ 64 - 1)] 0).chars fun _ => true)) ≠
        .ok (rowResult ["n"] [.int (2 ^ 64 - 1)] 0) := by
  refine ⟨(RunResult.carried_of_exact ⟨rfl, by decide, by decide⟩ (by decide) (by decide)
    (by decide)).readResult_compact, fun hfound => ?_⟩
  have hsigned := RunResult.signed_of_readResult_shown (fun _ => true)
    (shows_rowMapping ["n"] [.int (2 ^ 64 - 1)] 0) hfound
  have hcell := hsigned.cells [.int (2 ^ 64 - 1)] (List.mem_singleton.mpr rfl)
    (.int (2 ^ 64 - 1)) (List.mem_singleton.mpr rfl)
    (.int (2 ^ 64 - 1)) (List.mem_singleton.mpr rfl)
  exact absurd hcell.2 (by decide)

end Enclave
