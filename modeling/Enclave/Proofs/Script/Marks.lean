import Enclave.Proofs.Json.Quotes
import Enclave.Proofs.Json.Variant
import Enclave.Proofs.Script.Report
import Enclave.Proofs.Text.Blank

/-!
# Reports between marks

A report is looked for between its marks, and the marks are looked for as they stand, also inside of
the strings of the report. What is printed in front of the report does not matter, but a mark in the
text of the report does: `find?_printed_iff` says that a printed report is found exactly if neither
mark occurs in its text, and no cell is nested too deep.

Behind an opening mark inside of a string, the text goes on with strings and all else mixed up. What
is found there, if anything, has no underscore in its texts, and so it is another report
(`find?_behind_mark`). In front of a closing mark, the text ends inside of a string, and nothing is
found (`find?_before_mark`).
-/

namespace Enclave.Script

open Json (Value Doc Place)

/-! ## Looking for marks -/

section Lines

variable {mark as bs : List Char}

theorem prefix_line (hmark : '\n' ∉ mark) (h : mark <+: as ++ '\n' :: bs) : mark <+: as := by
  induction as generalizing mark with
  | nil =>
    cases mark with
    | nil => exact List.nil_prefix
    | cons c mark =>
      rw [List.nil_append, List.cons_prefix_cons] at h
      exact absurd (h.1 ▸ List.mem_cons_self) hmark
  | cons a as ih =>
    cases mark with
    | nil => exact List.nil_prefix
    | cons c mark =>
      rw [List.cons_append, List.cons_prefix_cons] at h
      have hrest : '\n' ∉ mark := fun hmem => hmark (List.mem_cons_of_mem _ hmem)
      exact List.cons_prefix_cons.mpr ⟨h.1, ih hrest h.2⟩

/-- What has no line feed occurs in front of one or behind it. -/
theorem infix_line (hmark : '\n' ∉ mark) (h : mark <:+: as ++ '\n' :: bs) :
    mark <:+: as ∨ mark <:+: bs := by
  induction as with
  | nil =>
    rcases List.infix_cons_iff.mp h with hprefix | hbs
    · rw [← List.nil_append ('\n' :: bs)] at hprefix
      exact .inl (prefix_line hmark hprefix).isInfix
    · exact .inr hbs
  | cons a as ih =>
    rcases List.infix_cons_iff.mp h with hprefix | hrest
    · have hline : mark <+: (a :: as) ++ '\n' :: bs := hprefix
      exact .inl (prefix_line hmark hline).isInfix
    · exact (ih hrest).imp_left fun h => List.infix_cons h

theorem infix_behind_line (hne : mark ≠ []) (hmark : '\n' ∉ mark) (h : mark <:+: '\n' :: bs) :
    mark <:+: bs := by
  rw [← List.nil_append ('\n' :: bs)] at h
  exact (infix_line hmark h).resolve_left fun hnil => hne (List.infix_nil.mp hnil)

/-- A mark that occurs has a last occurrence. -/
theorem last_infix (hmark : mark ≠ []) {cs : List Char} (h : mark <:+: cs) :
    ∃ p q, cs = p ++ (mark ++ q) ∧ ¬mark <:+: q := by
  induction hlength : cs.length using Nat.strongRecOn generalizing cs with
  | ind n ih =>
    obtain ⟨p, q, rfl⟩ := h
    by_cases hq : mark <:+: q
    · have hshorter : q.length < n := by
        have hpos := List.length_pos_of_ne_nil hmark
        simp only [List.length_append] at hlength
        omega
      obtain ⟨p', q', rfl, hlast⟩ := ih q.length hshorter hq rfl
      exact ⟨p ++ (mark ++ p'), q', by simp, hlast⟩
    · exact ⟨p, q, by simp, hq⟩

end Lines

section Search

variable {mark : List Char}

theorem behindLast_of_not_infix {cs : List Char} (h : ¬mark <:+: cs) (best : Option (List Char)) :
    behindLast mark best cs = best := by
  induction cs generalizing best with
  | nil => rfl
  | cons c cs ih =>
    rw [List.infix_cons_iff, not_or] at h
    rw [behindLast, if_neg (by simpa using h.1)]
    exact ih h.2 best

/-- What stands in front of a mark does not matter. -/
theorem behindLast_append {c : Char} {cs : List Char} (h : mark <+: c :: cs) (before : List Char)
    (best : Option (List Char)) :
    behindLast mark best (before ++ c :: cs) =
      behindLast mark (some ((c :: cs).drop mark.length)) cs := by
  induction before generalizing best with
  | nil => rw [List.nil_append, behindLast, if_pos (by simpa using h)]
  | cons d before ih =>
    rw [List.cons_append, behindLast]
    exact ih _

/-- The text behind the last opening mark is found. -/
theorem behindLast_openingMark {rest : List Char} (h : ¬openingMark.toList <:+: rest)
    (before : List Char) :
    behindLast openingMark.toList none (before ++ (openingMark.toList ++ rest)) = some rest := by
  have hmark : openingMark.toList = 'O' :: "UTPUT_JSON_START".toList := rfl
  -- The mark does not begin anew within itself.
  have hinner : behindLast openingMark.toList (some rest) ("UTPUT_JSON_START".toList ++ rest) =
      behindLast openingMark.toList (some rest) rest := rfl
  have hprefix : openingMark.toList <+: 'O' :: ("UTPUT_JSON_START".toList ++ rest) :=
    List.prefix_append _ _
  have hdrop : ('O' :: ("UTPUT_JSON_START".toList ++ rest)).drop openingMark.toList.length = rest :=
    rfl
  have happend := behindLast_append hprefix before none
  rw [hdrop, hinner, behindLast_of_not_infix h] at happend
  exact happend

/-- A mark that occurs in a text is found there, whatever follows. -/
theorem beforeFirst_of_infix (hne : mark ≠ []) {as : List Char} (h : mark <:+: as)
    (seen bs : List Char) :
    ∃ p q, as = p ++ (mark ++ q) ∧ beforeFirst mark seen (as ++ bs) = some (seen.reverse ++ p) := by
  induction as generalizing seen with
  | nil => exact absurd (List.infix_nil.mp h) hne
  | cons a as ih =>
    rw [List.cons_append, beforeFirst]
    by_cases hprefix : mark <+: a :: (as ++ bs)
    · obtain ⟨q, hq⟩ := List.prefix_of_prefix_length_le hprefix
        (List.prefix_append (a :: as) bs) h.length_le
      exact ⟨[], q, hq.symm, by rw [if_pos (by simpa using hprefix), List.append_nil]⟩
    · have hrest : mark <:+: as := (List.infix_cons_iff.mp h).resolve_left fun hfirst =>
        hprefix (hfirst.trans (List.prefix_append (a :: as) bs))
      obtain ⟨p, q, rfl, hfound⟩ := ih hrest (a :: seen)
      exact ⟨a :: p, q, rfl, by rw [if_neg (by simpa using hprefix), hfound]; simp⟩

/-- A mark at the beginning of a line is found if it does not occur in the text in front of it. -/
theorem beforeFirst_line {as : List Char} (hne : mark ≠ []) (hmark : '\n' ∉ mark)
    (h : ¬mark <:+: as) (seen bs : List Char) :
    beforeFirst mark seen (as ++ '\n' :: (mark ++ bs)) = some (seen.reverse ++ (as ++ ['\n'])) := by
  induction as generalizing seen with
  | nil =>
    have hnot : ¬mark <+: [] ++ '\n' :: (mark ++ bs) := fun hprefix =>
      hne (List.prefix_nil.mp (prefix_line hmark hprefix))
    obtain ⟨c, cs, hcs⟩ := List.exists_cons_of_ne_nil hne
    rw [List.nil_append, beforeFirst, if_neg (by simpa using hnot)]
    rw [hcs, List.cons_append, beforeFirst, if_pos (by simp)]
    simp
  | cons a as ih =>
    rw [List.infix_cons_iff, not_or] at h
    have hnot : ¬mark <+: a :: as ++ '\n' :: (mark ++ bs) := fun hprefix =>
      h.1 (prefix_line hmark hprefix)
    rw [List.cons_append, beforeFirst, if_neg (by simpa using hnot), ih h.2]
    simp

/-- In either case, no more than the text in front of its line stands in front of it. -/
theorem beforeFirst_prefix (hne : mark ≠ []) (hmark : '\n' ∉ mark) (as bs : List Char) :
    ∃ document, beforeFirst mark [] (as ++ '\n' :: (mark ++ bs)) = some document ∧
      document <+: as ++ ['\n'] := by
  by_cases h : mark <:+: as
  · obtain ⟨p, q, rfl, hfound⟩ := beforeFirst_of_infix hne h [] ('\n' :: (mark ++ bs))
    exact ⟨p, hfound, mark ++ q ++ ['\n'], by simp⟩
  · exact ⟨_, beforeFirst_line hne hmark h [] bs, List.prefix_rfl⟩

end Search

/-! ## Printed reports -/

namespace Report

/-- What an interpreter prints: any text, and then the text of a report between lines with the
marks. -/
def printed (before : String) (document : List Char) : String :=
  before ++ (openingMark ++ "\n" ++ String.ofList document ++ "\n" ++ closingMark ++ "\n")

theorem toList_printed (before : String) (document : List Char) :
    (printed before document).toList = before.toList ++ (openingMark.toList ++
      '\n' :: (document ++ '\n' :: (closingMark.toList ++ ['\n']))) := by
  simp [printed]

/-- A report that is found was decoded from the text between the marks. -/
theorem find?_eq_some {text : String} {behind document : List Char}
    (hbehind : behindLast openingMark.toList none text.toList = some behind)
    (hdocument : beforeFirst closingMark.toList [] behind = some document) {r : Report} :
    find? text = some r ↔
      Json.decodeText shape.decode (String.ofList (Text.trimChars document)) = .ok r := by
  simp only [find?, hbehind, hdocument, Option.bind_eq_bind, Option.bind_some]
  cases Json.decodeText shape.decode (String.ofList (Text.trimChars document)) <;>
    simp [Except.toOption]

/-! ### Without marks in its text -/

theorem newline_notMem_openingMark : '\n' ∉ openingMark.toList := by decide

theorem newline_notMem_closingMark : '\n' ∉ closingMark.toList := by decide

/-- No opening mark stands behind a text that has none: the line of the closing mark is shorter. -/
theorem openingMark_notInfix {as : List Char} (h : ¬openingMark.toList <:+: as) :
    ¬openingMark.toList <:+: as ++ '\n' :: (closingMark.toList ++ ['\n']) := fun hmark =>
  (infix_line newline_notMem_openingMark hmark).elim h fun hline =>
    absurd hline.length_le (by decide)

/-- The text of a report begins and ends with braces. -/
theorem trimChars_spelt {r : Report} {cs : List Char} (h : Json.dialect.Spelt r.toJson cs) :
    Text.trimChars ('\n' :: (cs ++ ['\n'])) = cs := by
  cases h with
  | scalar h => cases Json.dialect.nesting_of_scalar h
  | mapping h =>
    obtain ⟨m, rfl⟩ := h.close
    rw [Text.trimChars_cons rfl, Text.trimChars_append_singleton rfl,
      Text.trimChars_eq_self rfl rfl]

/-- A printed report is decoded from its text, if no mark occurs there. -/
theorem find?_unmarked {r r' : Report} {cs : List Char} (h : Json.dialect.Spelt r.toJson cs)
    (hopening : ¬openingMark.toList <:+: cs) (hclosing : ¬closingMark.toList <:+: cs)
    (before : String) : find? (printed before cs) = some r' ↔ r.Shallow ∧ r' = r.inOrder := by
  have hopening' : ¬openingMark.toList <:+: '\n' :: cs :=
    mt (infix_behind_line (by decide) newline_notMem_openingMark) hopening
  have hclosing' : ¬closingMark.toList <:+: '\n' :: cs :=
    mt (infix_behind_line (by decide) newline_notMem_closingMark) hclosing
  have hbehind := behindLast_openingMark (openingMark_notInfix hopening') before.toList
  have hdocument := beforeFirst_line (by decide) newline_notMem_closingMark hclosing' [] ['\n']
  rw [List.cons_append, ← toList_printed] at hbehind
  rw [find?_eq_some hbehind hdocument, List.reverse_nil, List.nil_append, List.cons_append,
    trimChars_spelt h, Json.decodeText_of_read (Doc.read_spelt_alone h)]
  exact decode_toJson_iff

/-! ### With a mark in its text -/

theorem place_of_mark {p q : List Char} (h : Place.outside.Bare (p ++ ("OUTPUT_".toList ++ q))) :
    Place.outside.after p ≠ .outside := by
  intro hplace
  have hbare := (Place.bare_append.mp h).2
  rw [hplace] at hbare
  have hmark := Place.Bare.ne_of_outside (Place.bare_append.mp hbare).1 (by simp)
  exact (hmark '_' (by decide)).1 rfl

/-- Behind an opening mark, the text goes on inside of a string. -/
theorem bare_behind_mark {p q : List Char}
    (h : Place.outside.Bare (p ++ (openingMark.toList ++ q))) : Place.inside.Bare q := by
  have hplace := place_of_mark h
  have hmark : ∀ place : Place, place ≠ .outside → place.after openingMark.toList = .inside := by
    rintro (_ | _ | _) hne
    · exact absurd rfl hne
    · rfl
    · rfl
  have hbehind := (Place.bare_append.mp (Place.bare_append.mp h).2).2
  rwa [hmark _ hplace] at hbehind

theorem bare_trimChars {cs : List Char} (h : Place.inside.Bare cs) :
    Place.inside.Bare (Text.trimChars cs) := by
  obtain ⟨as, bs, hcs, has, -⟩ := Text.trimChars_split cs
  have hfront : ∀ c ∈ as, c ≠ '"' ∧ c ≠ '\\' := fun c hc =>
    ⟨Text.ne_of_isBlank (has c hc) rfl, Text.ne_of_isBlank (has c hc) rfl⟩
  rw [hcs, Place.bare_append, Place.after_inside hfront] at h
  exact (Place.bare_append.mp h.2).1

theorem place_trimChars {cs : List Char} (h : Place.outside.after cs ≠ .outside) :
    Place.outside.after (Text.trimChars cs) ≠ .outside := by
  obtain ⟨as, bs, hcs, has, hbs⟩ := Text.trimChars_split cs
  intro htrimmed
  rw [hcs, Place.after_append, Place.after_outside fun c hc => Text.ne_of_isBlank (has c hc) rfl,
    Place.after_append, htrimmed] at h
  exact h (Place.after_outside fun c hc => Text.ne_of_isBlank (hbs c hc) rfl)

/-- No text of a report has an underscore. -/
structure Plain (r : Report) : Prop where
  columns : ∀ t ∈ r.columns, '_' ∉ t.toList
  rows : ∀ row ∈ r.rows, ∀ cell ∈ row, ¬cell.Underscored
  error : ∀ t ∈ r.error, '_' ∉ t.toList
  stdout : '_' ∉ r.stdout.toList
  stderr : '_' ∉ r.stderr.toList

theorem shape_plain (s : Json.Scope) :
    Json.Preserves shape.set s (fun d => ∀ t, d.Mentions t → '_' ∉ t.toList) Plain := by
  intro k step d acc acc' hset hd hstep hacc
  simp only [shape] at hset
  split at hset
  case h_6 => cases hset
  all_goals
    cases hset
    obtain ⟨v, hv, rfl⟩ := map_eq_ok.mp hstep
  case h_1 =>
    refine { hacc with columns := fun t ht => ?_ }
    obtain ⟨d', hd', ht⟩ := Json.list_eq_ok hv t ht
    exact hd t (Json.mentions_of_child hd' (Json.mentions_of_text ht))
  case h_2 =>
    refine { hacc with rows := ?_ }
    rintro row hrow cell hcell ⟨t, ht, hmem⟩
    obtain ⟨drow, hdrow, hrow⟩ := Json.list_eq_ok hv row hrow
    obtain ⟨dcell, hdcell, hcell⟩ := Json.list_eq_ok hrow cell hcell
    have hcell := Json.mentions_of_toValue ht (Json.anyValue_eq_ok hcell)
    exact hd t (Json.mentions_of_child hdrow (Json.mentions_of_child hdcell hcell)) hmem
  case h_3 =>
    refine { hacc with error := ?_ }
    rintro t rfl
    exact hd t (Json.mentions_of_text (Json.optional_eq_ok hv))
  case h_4 => exact { hacc with stdout := hd v (Json.mentions_of_text hv) }
  case h_5 => exact { hacc with stderr := hd v (Json.mentions_of_text hv) }

theorem not_underscored {r : Report} (h : r.inOrder.Plain)
    (hnames : ∀ row ∈ r.rows, ∀ cell ∈ row, cell.Distinct) : ¬r.toJson.Underscored := by
  have hstr : ∀ {t u : String}, (Value.str u).Mentions t → u = t := by
    rintro t _ ⟨⟩
    rfl
  rintro ⟨t, ht, hmem⟩
  rw [toJson] at ht
  cases ht with
  | name hname =>
    simp only [List.mem_cons, Prod.mk.injEq, List.not_mem_nil, or_false] at hname
    rcases hname with ⟨rfl, -⟩ | ⟨rfl, -⟩ | ⟨rfl, -⟩ | ⟨rfl, -⟩ | ⟨rfl, -⟩ <;>
      exact absurd hmem (by decide)
  | member hkv ht =>
    simp only [List.mem_cons, List.not_mem_nil, or_false] at hkv
    rcases hkv with rfl | rfl | rfl | rfl | rfl
    · obtain _ | @⟨v, _, hv, ht⟩ := ht
      obtain ⟨c, hc, rfl⟩ := List.mem_map.mp hv
      obtain rfl := hstr ht
      exact h.columns c hc hmem
    · obtain _ | @⟨v, _, hv, ht⟩ := ht
      obtain ⟨row, hrow, rfl⟩ := List.mem_map.mp hv
      obtain _ | @⟨cell, _, hcell, ht⟩ := ht
      exact h.rows _ (List.mem_map_of_mem hrow) _ (List.mem_map_of_mem hcell)
        ⟨t, ht.canonical (hnames row hrow cell hcell), hmem⟩
    · cases herror : r.error with
      | none =>
        rw [herror] at ht
        cases ht
      | some u =>
        rw [herror] at ht
        obtain rfl := hstr ht
        exact h.error u herror hmem
    · obtain rfl := hstr ht
      exact h.stdout hmem
    · obtain rfl := hstr ht
      exact h.stderr hmem

theorem plain_start : shape.start.Plain := by
  constructor <;> simp [shape]

/-- What is found behind a mark in the text of a report has no text with an underscore. -/
theorem find?_behind_mark {r r' : Report} {cs : List Char} (h : Json.dialect.Spelt r.toJson cs)
    (hopening : openingMark.toList <:+: cs) {before : String}
    (hfind : find? (printed before cs) = some r') : r'.Plain := by
  obtain ⟨p, q, rfl, hlast⟩ := last_infix (by decide) hopening
  have hbare := bare_behind_mark (Json.spans_spelt h).bare
  have hbehind := behindLast_openingMark (openingMark_notInfix hlast)
    (before.toList ++ (openingMark.toList ++ '\n' :: p))
  have htext : before.toList ++ (openingMark.toList ++ '\n' :: p) ++ (openingMark.toList ++
      (q ++ '\n' :: (closingMark.toList ++ ['\n']))) =
      (printed before (p ++ (openingMark.toList ++ q))).toList := by
    simp [toList_printed]
  rw [htext] at hbehind
  obtain ⟨document, hdocument, rest, hsplit⟩ :=
    beforeFirst_prefix (by decide) newline_notMem_closingMark q ['\n']
  rw [find?_eq_some hbehind hdocument] at hfind
  obtain ⟨d, hread, hdecode⟩ := Json.decodeText_eq_read hfind
  have hline : Place.inside.Bare (document ++ rest) := by
    rw [hsplit]
    exact Place.bare_append.mpr ⟨hbare, fun _ => by decide, trivial⟩
  have hdocument : Place.inside.Bare (String.ofList (Text.trimChars document)).toList := by
    rw [String.toList_ofList]
    exact bare_trimChars (Place.bare_append.mp hline).1
  have htexts : ∀ d' ∈ d.children, ∀ t, d'.Mentions t → '_' ∉ t.toList := fun d' hd' t ht =>
    Json.Doc.read_bare hdocument hread t (Json.mentions_of_child hd' ht)
  exact Json.RecordShape.decode_preserves (shape_plain _) plain_start htexts hdecode

/-- Nothing is found in front of a closing mark in the text of a report. -/
theorem find?_before_mark {r : Report} {cs : List Char} (h : Json.dialect.Spelt r.toJson cs)
    (hopening : ¬openingMark.toList <:+: cs) (hclosing : closingMark.toList <:+: cs)
    (before : String) : find? (printed before cs) = none := by
  have hopening' : ¬openingMark.toList <:+: '\n' :: cs :=
    mt (infix_behind_line (by decide) newline_notMem_openingMark) hopening
  have hbehind := behindLast_openingMark (openingMark_notInfix hopening') before.toList
  obtain ⟨p, q, hcs, hdocument⟩ := beforeFirst_of_infix (by decide) (List.infix_cons hclosing)
    [] ('\n' :: (closingMark.toList ++ ['\n']))
  rw [List.cons_append, ← toList_printed] at hbehind
  have hbare : Place.outside.Bare ('\n' :: cs) :=
    (Json.spans_cons (by decide) (Json.spans_spelt h)).bare
  rw [hcs] at hbare
  refine Option.eq_none_iff_forall_ne_some.mpr fun r' hfind => ?_
  rw [find?_eq_some hbehind hdocument] at hfind
  obtain ⟨d, hread, hdecode⟩ := Json.decodeText_eq_read hfind
  have hplace := Json.Doc.read_outside hread (shape_thorough _ _ _ hdecode)
  rw [String.toList_ofList] at hplace
  exact place_trimChars (place_of_mark hbare) hplace

/-! ### The law -/

/-- **A printed report is found exactly if no mark occurs in its text**, and none of its cells is
nested too deep. What was printed in front of it does not matter. -/
theorem find?_printed_iff {r : Report} {cs : List Char} (h : Json.dialect.Spelt r.toJson cs)
    (hnames : ∀ row ∈ r.rows, ∀ cell ∈ row, cell.Distinct) (before : String) :
    find? (printed before cs) = some r.inOrder ↔
      r.Shallow ∧ ¬openingMark.toList <:+: cs ∧ ¬closingMark.toList <:+: cs := by
  by_cases hopening : openingMark.toList <:+: cs
  · refine iff_of_false (fun hfind => ?_) fun hno => hno.2.1 hopening
    have hunder : '_' ∈ cs := hopening.subset (by decide)
    exact not_underscored (find?_behind_mark h hopening hfind) hnames
      ((Json.spans_spelt h).underscore hunder)
  by_cases hclosing : closingMark.toList <:+: cs
  · rw [find?_before_mark h hopening hclosing]
    exact iff_of_false nofun fun hno => hno.2.2 hclosing
  · rw [find?_unmarked h hopening hclosing]
    simp [hopening, hclosing]

/-- A report of one cell. -/
def oneCell (stdout : String) : Report := ⟨["a"], [[.int 1]], none, stdout, ""⟩

/-- Its text on one line. -/
def oneCellLine (stdout : String) : List Char :=
  "\x7b\"columns\": [\"a\"], \"rows\": [[1]], \"error\": null, \"stdout\": ".toList ++
    (Json.stringChars stdout ++ ", \"stderr\": \"\"\x7d".toList)

theorem spelt_oneCellLine (stdout : String) :
    Json.dialect.Spelt (oneCell stdout).toJson (oneCellLine stdout) := by
  have hnone := Json.dialect.blank_nil
  have hspace : ∀ c ∈ [' '], Json.dialect.blank c = true := List.forall_mem_singleton.mpr rfl
  have hstring : ∀ s, Json.dialect.Spelt (.str s) (Json.stringChars s) := fun s =>
    .scalar (.string (Json.stringText_stringChars true s))
  have hmember : ∀ k {v cs}, Json.dialect.Spelt v cs → Json.dialect.Member Json.dialect.Spelt (k, v)
      (Json.stringChars k ++ ([] ++ ':' :: ([' '] ++ cs))) := fun k _ _ h =>
    .mk (.string (Json.stringText_stringChars true k)) hnone hspace h
  have hone : Json.dialect.Spelt (.int 1) ['1'] := .scalar (.number (.int (.positive rfl rfl)))
  have hcolumns := hmember "columns" (.list (.last hnone (hstring "a") hnone))
  have hrows := hmember "rows" (.list (.last hnone (.list (.last hnone hone hnone)) hnone))
  have herror := hmember "error" (.scalar .null)
  have hstdout := hmember "stdout" (hstring stdout)
  have hstderr := hmember "stderr" (hstring "")
  exact .mapping (.cons hnone hcolumns hnone (.cons hspace hrows hnone (.cons hspace herror hnone
    (.cons hspace hstdout hnone (.last hspace hstderr hnone) (by simp)) (by simp)) (by simp))
    (by simp))

/-- A report is found behind the marks of another one. -/
theorem find?_printed_iff_oneCell :
    (Json.dialect.Spelt (oneCell "ok\n").toJson (oneCellLine "ok\n") ∧
        ∀ row ∈ (oneCell "ok\n").rows, ∀ cell ∈ row, cell.Distinct) ∧
      find? (printed "OUTPUT_JSON_START{}OUTPUT_JSON_END" (oneCellLine "ok\n")) =
        some (oneCell "ok\n") := by
  have hspelt := spelt_oneCellLine "ok\n"
  have hnames : ∀ row ∈ (oneCell "ok\n").rows, ∀ cell ∈ row, cell.Distinct := by
    simpa [oneCell] using Value.Distinct.leaf rfl
  have hshallow : (oneCell "ok\n").Shallow := by simp [Shallow, oneCell, Value.nesting]
  have hunder : '_' ∉ oneCellLine "ok\n" := by decide
  have hopening : ¬openingMark.toList <:+: oneCellLine "ok\n" := fun h =>
    hunder (h.subset (by decide))
  have hclosing : ¬closingMark.toList <:+: oneCellLine "ok\n" := fun h =>
    hunder (h.subset (by decide))
  exact ⟨⟨hspelt, hnames⟩, (find?_printed_iff hspelt hnames _).mpr ⟨hshallow, hopening, hclosing⟩⟩

/-- With a mark in what the script printed, a report is lost; with both of them, it is taken for one
without columns. -/
theorem find?_printed_marks :
    (∀ stdout, Json.dialect.Spelt (oneCell stdout).toJson (oneCellLine stdout)) ∧
      find? (printed "" (oneCellLine "OUTPUT_JSON_START\n")) = none ∧
        (find? (printed "" (oneCellLine "OUTPUT_JSON_START{}OUTPUT_JSON_END"))).map
          Report.columns = some [] := by
  refine ⟨spelt_oneCellLine, Option.isNone_iff_eq_none.mp ?_, ?_⟩
  · decide +kernel
  · decide +kernel

end Report

end Enclave.Script
