import Enclave.Plan.Statement
import Enclave.Proofs.Sql.Marks
import Enclave.Proofs.Text.Blank

/-!
# What the first pass lets through

The first pass over a statement goes from character to character, with the word or the name that it
is in. What it lets through can be said without it. A text is read by its quotations (`outline`),
and then every stretch between them, and every name in them, is judged for itself
(`Outline.Allowed`). `screen_iff_allowed` says that this is what the first pass decides.

Each step is inverted once, outside quotations (`screenFrom_part`, `screenFrom_behind`,
`screenFrom_opening`) and between quotes (`screenFrom_other`, `screenFrom_double`,
`screenFrom_closing`). From them `screenFrom_stretch` walks over a stretch and `screenFrom_quoted`
over a quotation, and a text is its passages one behind the other (`outline_induction`).
-/

namespace Enclave.Sql

/-! ## The outline of a text -/

/-- A character that opens a quotation. -/
def isQuote (c : Char) : Bool := c == '\'' || c == '"'

/-- What stands in a quotation behind its opening quote, with doubled quotes undone, and the text
behind the quotation. It is closed by the first quote of its kind that is not doubled; `none` if
there is no such quote. -/
def unquote (q : Char) : List Char → Option (List Char × List Char)
  | [] => none
  | c :: cs =>
    if c = q then
      match cs with
      | d :: rest =>
        if d = q then (unquote q rest).map fun r => (q :: r.1, r.2) else some ([], d :: rest)
      | [] => some ([], [])
    else (unquote q cs).map fun r => (c :: r.1, r.2)

/-- A quotation was written with the quotes in its content doubled. -/
theorem eq_of_unquote {q : Char} {cs : List Char} {r : List Char × List Char}
    (h : unquote q cs = some r) :
    cs = r.1.flatMap (doubled q) ++ q :: r.2 ∧ r.2.head? ≠ some q := by
  fun_induction unquote q cs generalizing r with
  | case1 => cases h
  | case2 rest ih =>
    obtain ⟨r, hr, rfl⟩ := Option.map_eq_some_iff.mp h
    obtain ⟨hrest, hnext⟩ := ih hr
    exact ⟨by simp [doubled, ← hrest], hnext⟩
  | case3 d rest hd =>
    cases h
    exact ⟨rfl, by simpa using hd⟩
  | case4 =>
    cases h
    exact ⟨rfl, by simp⟩
  | case5 c cs hc ih =>
    obtain ⟨r, hr, rfl⟩ := Option.map_eq_some_iff.mp h
    obtain ⟨hcs, hnext⟩ := ih hr
    exact ⟨by simp [doubled, hc, ← hcs], hnext⟩

theorem unquote_doubled {q : Char} (content : List Char) {behind : List Char}
    (h : behind.head? ≠ some q) :
    unquote q (content.flatMap (doubled q) ++ q :: behind) = some (content, behind) := by
  induction content with
  | nil =>
    cases behind with
    | nil => simp [unquote]
    | cons d rest =>
      have hd : d ≠ q := by simpa using h
      simp [unquote, hd]
  | cons c cs ih =>
    by_cases hc : c = q
    · simp [doubled, unquote, hc, ih]
    · rw [List.flatMap_cons, doubled, if_neg hc, List.singleton_append, List.cons_append,
        unquote.eq_def]
      simp [hc, ih]

theorem length_of_unquote {q : Char} {cs : List Char} {r : List Char × List Char}
    (h : unquote q cs = some r) : r.2.length < cs.length := by
  rw [(eq_of_unquote h).1, List.length_append, List.length_cons]
  omega

/-- A quotation with the stretch in front of it, which reaches back to the quotation before. -/
structure Passage where
  stretch : List Char
  quote : Char
  content : List Char
  deriving Repr, DecidableEq

/-- The passage as it stood in the text. -/
def Passage.text (p : Passage) : List Char :=
  p.stretch ++ p.quote :: (p.content.flatMap (doubled p.quote) ++ [p.quote])

/-- A text by its quotations: the passages that they end, and the stretch behind the last. -/
structure Outline where
  passages : List Passage
  last : List Char
  deriving Repr, DecidableEq

/-- The outline with one more passage in front. -/
def Outline.cons (p : Passage) (o : Outline) : Outline := ⟨p :: o.passages, o.last⟩

/-- The outline of a text, read from left to right: outside quotations a quote opens one. `none` if
a quotation is not closed. -/
def outline (cs : List Char) : Option Outline :=
  match _hcs : cs.dropWhile fun c => !isQuote c with
  | [] => some ⟨[], cs⟩
  | q :: rest =>
    match _hrest : unquote q rest with
    | none => none
    | some (content, behind) =>
      (outline behind).map (Outline.cons ⟨cs.takeWhile fun c => !isQuote c, q, content⟩)
termination_by cs.length
decreasing_by
  have hstretch := (List.dropWhile_suffix (l := cs) fun c => !isQuote c).length_le
  have hbehind : behind.length < rest.length := length_of_unquote _hrest
  rw [_hcs, List.length_cons] at hstretch
  omega

/-! ## What may stand in a text -/

/-- A character that may stand anywhere: it hides nothing, and no reader takes it for an escape. -/
def Clean (c : Char) : Prop := isHidden c = false ∧ c ≠ '\\'

instance (c : Char) : Decidable (Clean c) :=
  inferInstanceAs (Decidable (_ ∧ _))

/-- A character that may stand outside quotations. -/
def isCode (c : Char) : Bool :=
  isWordPart c || Text.isAsciiBlank c || allowedPunctuation.contains c

/-- A word that may stand outside quotations. -/
def AllowedWord (w : List Char) : Prop :=
  isDeniedKeyword (String.ofList w) = false ∧ isDeniedFunction (String.ofList w) = false

instance (w : List Char) : Decidable (AllowedWord w) :=
  inferInstanceAs (Decidable (_ ∧ _))

/-- The runs of word characters in a stretch: what stands between its other characters. Where two of
those meet, and where one begins or ends the stretch, the run is empty. -/
def runs (s : List Char) : List (List Char) := s.splitOnP fun c => !isWordPart c

/-- A stretch that may stand outside quotations. -/
structure AllowedStretch (s : List Char) : Prop where
  code : ∀ c ∈ s, isCode c = true
  noDashes : ¬['-', '-'] <:+: s
  noSlashStar : ¬['/', '*'] <:+: s
  words : ∀ w ∈ runs s, AllowedWord w

/-- A quotation that may stand behind its stretch. -/
structure Passage.Allowed (p : Passage) : Prop where
  stretch : AllowedStretch p.stretch
  /-- No letter announces escapes in a text. -/
  noEscapes : p.quote = '\'' →
    (runs p.stretch).getLast? ≠ some ['e'] ∧ (runs p.stretch).getLast? ≠ some ['E']
  name : p.quote = '"' → isDeniedFunction (String.ofList p.content) = false

/-- An outline of which every part may stand where it does. -/
structure Outline.Allowed (o : Outline) : Prop where
  passages : ∀ p ∈ o.passages, p.Allowed
  last : AllowedStretch o.last

/-! ## One step -/

theorem checkWord_eq_ok {w : String} :
    checkWord w = .ok () ↔ isDeniedKeyword w = false ∧ isDeniedFunction w = false := by
  unfold checkWord
  cases isDeniedKeyword w <;> cases isDeniedFunction w <;> simp

theorem checkName_eq_ok {n : String} : checkName n = .ok () ↔ isDeniedFunction n = false := by
  unfold checkName
  cases isDeniedFunction n <;> simp

/-- A text is let through from a place on if its first step is, and the rest behind it. -/
theorem screenFrom_cons_ok {p : Place} {c : Char} {cs : List Char} :
    screenFrom p (c :: cs) = .ok () ↔
      ∃ s, p.step c cs.head? = .ok s ∧ screenFrom s.1 (cs.drop s.2) = .ok () := by
  rw [screenFrom_cons]
  exact bind_eq_ok

/-- The characters of words are printable ASCII. -/
theorem isHidden_of_isWordPart {c : Char} (h : isWordPart c = true) : isHidden c = false := by
  have hrange : 0x20 ≤ c.toNat ∧ c.toNat < 0x7F := by
    obtain hletter | rfl : c.isAlphanum = true ∨ c = '_' := by
      simpa [isWordPart] using h
    · have hletters := Text.range_of_isAlphanum hletter
      omega
    · decide
  have hcontrol : Text.isControl c = false := by
    simp only [Text.isControl, Bool.or_eq_false_iff, Bool.and_eq_false_iff, decide_eq_false_iff_not]
    omega
  simp only [isHidden, hcontrol, Bool.false_and, Bool.false_or, Bool.or_eq_false_iff,
    Bool.and_eq_false_iff, decide_eq_false_iff_not, beq_eq_false_iff_ne]
  omega

/-- Outside quotations no backslash may stand at all. -/
theorem clean_iff_of_isCode {c : Char} (h : isCode c = true) : Clean c ↔ isHidden c = false := by
  have hback : c ≠ '\\' := by
    rintro rfl
    exact absurd h (by decide)
  simp [Clean, hback]

theorem isCode_of_isWordPart {c : Char} (h : isWordPart c = true) : isCode c = true := by
  simp [isCode, h]

/-- A part of a word. -/
theorem screenFrom_part {word : List Char} {c : Char} (hc : isWordPart c = true) (cs : List Char) :
    screenFrom (.code word) (c :: cs) = screenFrom (.code (c :: word)) cs := by
  rw [screenFrom_cons, Place.step, if_neg (by simp [isHidden_of_isWordPart hc])]
  simp only [hc, if_true]
  rfl

/-- What opens no quotation behind a word ends it, and may neither begin a comment nor be anything
but a blank or a punctuation mark. -/
theorem codeStep_of_notQuote {word : List Char} {c : Char} {next : Option Char} {p : Place}
    (hquote : isQuote c = false) :
    codeStep word c next = .ok p ↔ (Text.isAsciiBlank c || allowedPunctuation.contains c) = true ∧
      ¬(c = '-' ∧ next = some '-') ∧ ¬(c = '/' ∧ next = some '*') ∧
      AllowedWord word.reverse ∧ p = .code [] := by
  obtain ⟨hsingle, hdouble⟩ : c ≠ '\'' ∧ c ≠ '"' := by simpa [isQuote] using hquote
  constructor
  · intro h
    obtain ⟨hc, -⟩ | ⟨hc, -⟩ | ⟨rfl, hcode, hdash, hslash⟩ := codeStep_eq_ok h
    · exact absurd hc hsingle
    · exact absurd hc hdouble
    · refine ⟨hcode, hdash, hslash, ?_, rfl⟩
      unfold codeStep at h
      split at h
      · cases h
      split at h
      · cases h
      · rename_i hword
        exact checkWord_eq_ok.mp hword
  · rintro ⟨hcode, hdash, hslash, hword, rfl⟩
    have hseparator : c ≠ ';' := by
      rintro rfl
      exact absurd hcode (by decide)
    rw [codeStep, if_neg (by simp [hsingle]), kept, checkWord_eq_ok.mpr hword]
    simp only
    rw [if_neg hsingle, if_neg hdouble, if_neg hseparator, if_neg (by simpa using hdash),
      if_neg (by simpa using hslash), if_pos hcode]

/-- A character behind a word that opens no quotation. -/
theorem screenFrom_behind {word : List Char} {c : Char} (hc : isWordPart c = false)
    (hquote : isQuote c = false) (cs : List Char) :
    screenFrom (.code word) (c :: cs) = .ok () ↔ Clean c ∧ isCode c = true ∧
      ¬(c = '-' ∧ cs.head? = some '-') ∧ ¬(c = '/' ∧ cs.head? = some '*') ∧
      AllowedWord word.reverse ∧ screenFrom (.code []) cs = .ok () := by
  rw [and_congr_left_iff.mpr fun h => clean_iff_of_isCode h.1, screenFrom_cons_ok, Place.step,
    isCode, hc, Bool.false_or]
  by_cases hhidden : isHidden c = true
  · simp [hhidden]
  rw [Bool.not_eq_true] at hhidden
  simp only [hhidden, Bool.false_eq_true, if_false, map_eq_ok, codeStep_of_notQuote hquote,
    true_and]
  constructor
  · rintro ⟨_, ⟨_, ⟨hcode, hdash, hslash, hword, rfl⟩, rfl⟩, hrest⟩
    exact ⟨hcode, hdash, hslash, hword, hrest⟩
  · rintro ⟨hcode, hdash, hslash, hword, hrest⟩
    exact ⟨_, ⟨_, ⟨hcode, hdash, hslash, hword, rfl⟩, rfl⟩, hrest⟩

/-- The place between quotes, with what was read of the content, the last character first. -/
def Place.within (q : Char) (content : List Char) : Place :=
  if q = '\'' then .text else .name content

theorem eq_of_isQuote {q : Char} (hq : isQuote q = true) : q = '\'' ∨ q = '"' := by
  simpa [isQuote] using hq

/-- A quote ends the word in front of it and opens a quotation. -/
theorem codeStep_of_quote {word : List Char} {q : Char} {next : Option Char}
    (hq : isQuote q = true) :
    codeStep word q next =
      if q = '\'' ∧ announcesEscapes word = true then .error .escapeText
      else (checkWord (kept word)).map fun _ => .within q [] := by
  unfold codeStep
  obtain rfl | rfl := eq_of_isQuote hq
  · cases announcesEscapes word <;> cases checkWord (kept word) <;> rfl
  · cases checkWord (kept word) <;> rfl

/-- A quote behind a word opens a quotation. -/
theorem screenFrom_opening {word : List Char} {q : Char} (hq : isQuote q = true) (cs : List Char) :
    screenFrom (.code word) (q :: cs) = .ok () ↔ AllowedWord word.reverse ∧
      (q = '\'' → announcesEscapes word = false) ∧ screenFrom (.within q []) cs = .ok () := by
  have hplace : (Place.code word).step q cs.head? = (codeStep word q cs.head?).map (·, 0) := by
    obtain rfl | rfl := eq_of_isQuote hq <;> rfl
  rw [screenFrom_cons_ok, hplace, codeStep_of_quote hq]
  by_cases hescapes : q = '\'' ∧ announcesEscapes word = true
  · simp [hescapes, Except.map]
  · rw [if_neg hescapes]
    have hannounces : q = '\'' → announcesEscapes word = false := by simpa using hescapes
    simp only [map_eq_ok]
    constructor
    · rintro ⟨_, ⟨_, ⟨_, hword, rfl⟩, rfl⟩, hrest⟩
      exact ⟨checkWord_eq_ok.mp hword, hannounces, hrest⟩
    · rintro ⟨hword, -, hrest⟩
      exact ⟨_, ⟨_, ⟨_, checkWord_eq_ok.mpr hword, rfl⟩, rfl⟩, hrest⟩

/-- Between quotes, any other character. -/
theorem screenFrom_other {q c : Char} (hq : isQuote q = true) (hc : c ≠ q)
    (content cs : List Char) :
    screenFrom (.within q content) (c :: cs) = .ok () ↔
      Clean c ∧ screenFrom (.within q (c :: content)) cs = .ok () := by
  have hstep : (Place.within q content).step c cs.head? =
      if isHidden c = true then .error (.hidden c)
      else if c = '\\' then .error .backslash else .ok (.within q (c :: content), 0) := by
    obtain rfl | rfl := eq_of_isQuote hq <;> simp [Place.step, Place.within, hc]
  rw [screenFrom_cons_ok, hstep, Clean]
  by_cases hhidden : isHidden c = true
  · simp [hhidden]
  · by_cases hback : c = '\\'
    · simp [hback, show isHidden '\\' = false from rfl]
    · simp [hhidden, hback]

/-- Between quotes, the quote twice. -/
theorem screenFrom_double {q : Char} (hq : isQuote q = true) (content cs : List Char) :
    screenFrom (.within q content) (q :: q :: cs) = screenFrom (.within q (q :: content)) cs := by
  obtain rfl | rfl := eq_of_isQuote hq <;> rfl

/-- Between quotes, the quote alone: a name ends. -/
theorem screenFrom_closing {q : Char} (hq : isQuote q = true) (content : List Char) {cs : List Char}
    (hcs : cs.head? ≠ some q) :
    screenFrom (.within q content) (q :: cs) = .ok () ↔
      (q = '"' → isDeniedFunction (kept content) = false) ∧ screenFrom (.code []) cs = .ok () := by
  have hstep : (Place.within q content).step q cs.head? =
      (if q = '"' then checkName (kept content) else .ok ()).map fun _ => (.code [], 0) := by
    obtain rfl | rfl := eq_of_isQuote hq
    · simp [Place.step, Place.within, hcs, Except.map, isHidden, Text.isControl]
    · simp [Place.step, Place.within, hcs, isHidden, Text.isControl]
  rw [screenFrom_cons_ok, hstep]
  by_cases hdouble : q = '"'
  · simp only [hdouble, if_true, map_eq_ok, forall_const]
    constructor
    · rintro ⟨_, ⟨_, hname, rfl⟩, hrest⟩
      exact ⟨checkName_eq_ok.mp hname, hrest⟩
    · rintro ⟨hname, hrest⟩
      exact ⟨_, ⟨_, checkName_eq_ok.mpr hname, rfl⟩, hrest⟩
  · simp [hdouble, Except.map]

/-! ## Stretches and quotations -/

/-- A quotation is left where its content with the quotes doubled ends. -/
theorem screenFrom_quoted {q : Char} (hq : isQuote q = true) (content : List Char)
    {before rest : List Char} (hrest : rest.head? ≠ some q) :
    screenFrom (.within q before) (content.flatMap (doubled q) ++ q :: rest) = .ok () ↔
      (∀ c ∈ content, Clean c) ∧
      (q = '"' → isDeniedFunction (String.ofList (before.reverse ++ content)) = false) ∧
      screenFrom (.code []) rest = .ok () := by
  induction content generalizing before with
  | nil => simp [screenFrom_closing hq before hrest, kept]
  | cons c content ih =>
    have hbefore : (c :: before).reverse ++ content = before.reverse ++ c :: content := by simp
    rw [List.flatMap_cons, List.append_assoc, List.forall_mem_cons, and_assoc, ← hbefore, ← ih]
    by_cases hc : c = q
    · have hclean : Clean q := by
        obtain rfl | rfl := eq_of_isQuote hq <;> exact ⟨rfl, by decide⟩
      rw [doubled, if_pos hc, hc, List.cons_append, List.singleton_append, screenFrom_double hq]
      simp [hclean]
    · rw [doubled, if_neg hc, List.singleton_append, screenFrom_other hq hc]

/-- What is let through between quotes is closed. -/
theorem unquote_of_screenFrom {q : Char} (hq : isQuote q = true) {content cs : List Char}
    (h : screenFrom (.within q content) cs = .ok ()) : ∃ r, unquote q cs = some r := by
  fun_induction unquote q cs generalizing content with
  | case1 =>
    obtain rfl | rfl := eq_of_isQuote hq <;> cases h
  | case2 rest ih =>
    rw [screenFrom_double hq] at h
    obtain ⟨r, hr⟩ := ih h
    exact ⟨_, by rw [hr, Option.map_some]⟩
  | case3 d rest hd => exact ⟨_, rfl⟩
  | case4 => exact ⟨_, rfl⟩
  | case5 c cs hc ih =>
    obtain ⟨r, hr⟩ := ih ((screenFrom_other hq hc content cs).mp h).2
    exact ⟨_, by rw [hr, Option.map_some]⟩

/-- A stretch has at least one run, and so a last one. -/
theorem exists_lastRun (s : List Char) : ∃ ws w, runs s = ws ++ [w] :=
  ⟨_, _, (List.dropLast_concat_getLast (List.splitOnP_ne_nil _ s)).symm⟩

theorem pair_infix_cons {a b c : Char} {s : List Char} :
    [a, b] <:+: c :: s ↔ c = a ∧ s.head? = some b ∨ [a, b] <:+: s := by
  have hnext : [b] <+: s ↔ s.head? = some b := by
    cases s with
    | nil => simp
    | cons d s => simp [List.cons_prefix_cons, eq_comm (a := b)]
  rw [List.infix_cons_iff, List.cons_prefix_cons, hnext, eq_comm (a := a)]

/-- Over a stretch every run is judged but the last, which has not ended with it. The word in front
of the stretch belongs to the first. -/
theorem screenFrom_stretch {word s rest w : List Char} {ws : List (List Char)}
    (hword : ∀ c ∈ word, isWordPart c = true) (hs : ∀ c ∈ s, isQuote c = false)
    (hdash : rest.head? ≠ some '-') (hstar : rest.head? ≠ some '*')
    (hruns : runs (word.reverse ++ s) = ws ++ [w]) :
    screenFrom (.code word) (s ++ rest) = .ok () ↔
      (∀ c ∈ s, Clean c) ∧ (∀ c ∈ s, isCode c = true) ∧
      ¬['-', '-'] <:+: s ∧ ¬['/', '*'] <:+: s ∧ (∀ v ∈ ws, AllowedWord v) ∧
      screenFrom (.code w.reverse) rest = .ok () := by
  induction s generalizing word ws with
  | nil =>
    have hone : runs (word.reverse ++ []) = [word.reverse] := by
      rw [List.append_nil]
      exact List.splitOnP_eq_singleton fun c hc => by simp [hword c (List.mem_reverse.mp hc)]
    have hsplit : [] ++ [word.reverse] = ws ++ [w] := hone.symm.trans hruns
    obtain ⟨rfl, hlast⟩ := List.append_inj' hsplit rfl
    obtain rfl : word.reverse = w := by simpa using hlast
    simp
  | cons c s ih =>
    rw [List.forall_mem_cons] at hs
    by_cases hc : isWordPart c = true
    · have hne : ∀ d, isWordPart d = false → c ≠ d := by
        rintro d hd rfl
        rw [hc] at hd
        cases hd
      have hmore := ih (List.forall_mem_cons.mpr ⟨hc, hword⟩) hs.2
        (by simpa using hruns)
      rw [List.cons_append, screenFrom_part hc, hmore, pair_infix_cons, pair_infix_cons]
      have hcode := isCode_of_isWordPart hc
      have hclean := (clean_iff_of_isCode hcode).mpr (isHidden_of_isWordPart hc)
      simp [hne '-' rfl, hne '/' rfl, hcode, hclean]
    · rw [Bool.not_eq_true] at hc
      -- The word has ended, and the stretch behind `c` begins with a run of its own.
      obtain ⟨vs, v, hvs⟩ := exists_lastRun s
      have hcons : runs (word.reverse ++ c :: s) = (word.reverse :: vs) ++ [v] := by
        rw [List.cons_append, ← hvs]
        exact List.splitOnP_append_cons_of_forall_mem
          (fun d hd => by simp [hword d (List.mem_reverse.mp hd)]) c (by simp [hc]) s
      obtain ⟨rfl, hlast⟩ := List.append_inj' (hcons.symm.trans hruns) rfl
      obtain rfl : v = w := by simpa using hlast
      have hmore := ih (List.forall_mem_nil _) hs.2 hvs
      have hhead : ∀ d, rest.head? ≠ some d → ((s ++ rest).head? = some d ↔ s.head? = some d) := by
        intro d hd
        cases s <;> simp [hd]
      rw [List.cons_append, screenFrom_behind hc hs.1, hmore, pair_infix_cons, pair_infix_cons,
        hhead _ hdash, hhead _ hstar, List.forall_mem_cons, List.forall_mem_cons,
        List.forall_mem_cons]
      grind

/-! ## The outline, step by step -/

theorem outline_last {s : List Char} (hs : ∀ c ∈ s, isQuote c = false) :
    outline s = some ⟨[], s⟩ := by
  have hrest : s.dropWhile (fun c => !isQuote c) = [] := by
    simpa [List.dropWhile_eq_nil_iff] using hs
  rw [outline]
  split
  · rfl
  · rename_i hcs
    rw [hrest] at hcs
    cases hcs

theorem outline_upToQuote {s rest : List Char} {q : Char} (hs : ∀ c ∈ s, isQuote c = false)
    (hq : isQuote q = true) :
    outline (s ++ q :: rest) = (unquote q rest).bind fun r =>
      (outline r.2).map (Outline.cons ⟨s, q, r.1⟩) := by
  have hcode : ∀ c ∈ s, (!isQuote c) = true := fun c hc => by simp [hs c hc]
  have hstretch : (s ++ q :: rest).takeWhile (fun c => !isQuote c) = s := by
    rw [List.takeWhile_append_of_pos hcode, List.takeWhile_cons_of_neg (by simp [hq]),
      List.append_nil]
  have hrest : (s ++ q :: rest).dropWhile (fun c => !isQuote c) = q :: rest := by
    rw [List.dropWhile_append_of_pos hcode, List.dropWhile_cons_of_neg (by simp [hq])]
  rw [outline]
  split
  · rename_i hcs
    rw [hrest] at hcs
    cases hcs
  · rename_i hcs
    obtain ⟨rfl, rfl⟩ := List.cons.inj (hrest.symm.trans hcs)
    rw [hstretch]
    split <;> rename_i hquotation <;> rw [hquotation] <;> rfl

/-- A passage in front of a text: it begins with its stretch, and the quote that closes it is not
doubled. -/
structure Passage.Precedes (p : Passage) (behind : List Char) : Prop where
  unquoted : ∀ c ∈ p.stretch, isQuote c = false
  quoted : isQuote p.quote = true
  closed : behind.head? ≠ some p.quote

theorem Passage.text_append (p : Passage) (behind : List Char) :
    p.text ++ behind =
      p.stretch ++ p.quote :: (p.content.flatMap (doubled p.quote) ++ p.quote :: behind) := by
  simp [Passage.text]

theorem outline_passage {p : Passage} {behind : List Char} (h : p.Precedes behind) :
    outline (p.text ++ behind) = (outline behind).map (Outline.cons p) := by
  rw [p.text_append, outline_upToQuote h.unquoted h.quoted, unquote_doubled _ h.closed,
    Option.bind_some]

/-- What holds of the last stretch of a text, of a text with a quotation that is not closed, and of
a text behind one more passage holds of every text. -/
@[elab_as_elim]
theorem outline_induction {motive : List Char → Prop} (text : List Char)
    (last : ∀ s, (∀ c ∈ s, isQuote c = false) → motive s)
    (unclosed : ∀ s q rest, (∀ c ∈ s, isQuote c = false) → isQuote q = true →
      unquote q rest = none → motive (s ++ q :: rest))
    (passage : ∀ p behind, Passage.Precedes p behind → motive behind →
      motive (p.text ++ behind)) : motive text := by
  induction hn : text.length using Nat.strongRecOn generalizing text with
  | _ n ih =>
    have hsplit := List.takeWhile_append_dropWhile (p := fun c => !isQuote c) (l := text)
    have hstretch : ∀ c ∈ text.takeWhile (fun c => !isQuote c), isQuote c = false :=
      fun c hc => by simpa using List.mem_takeWhile_imp hc
    cases hrest : text.dropWhile (fun c => !isQuote c) with
    | nil =>
      rw [hrest, List.append_nil] at hsplit
      exact last text (hsplit ▸ hstretch)
    | cons q rest =>
      have hq : isQuote q = true := by
        have hhead := List.head?_dropWhile_not (fun c => !isQuote c) text
        simpa [hrest] using hhead
      rw [hrest] at hsplit
      cases hquotation : unquote q rest with
      | none => exact hsplit ▸ unclosed _ q rest hstretch hq hquotation
      | some r =>
        obtain ⟨hcontent, hclosed⟩ := eq_of_unquote hquotation
        let p : Passage := ⟨text.takeWhile (fun c => !isQuote c), q, r.1⟩
        have hp : p.text ++ r.2 = text := by
          rw [p.text_append, ← hcontent]
          exact hsplit
        have hshort : r.2.length < n := by
          rw [← hn, ← hp, List.length_append, Passage.text, List.length_append, List.length_cons]
          omega
        exact hp ▸ passage p r.2 ⟨hstretch, hq, hclosed⟩ (ih _ hshort r.2 rfl)

/-- An outline leaves nothing out: its passages and its last stretch are the text. -/
theorem text_of_outline {cs : List Char} {o : Outline} (h : outline cs = some o) :
    o.passages.flatMap Passage.text ++ o.last = cs := by
  induction cs using outline_induction generalizing o with
  | last s hs =>
    obtain rfl := Option.some.inj ((outline_last hs).symm.trans h)
    rfl
  | unclosed s q rest hs hq hrest =>
    rw [outline_upToQuote hs hq, hrest] at h
    cases h
  | passage p behind hp ih =>
    rw [outline_passage hp] at h
    obtain ⟨more, hmore, rfl⟩ := Option.map_eq_some_iff.mp h
    rw [← ih hmore]
    simp [Outline.cons]

theorem allowedStretch_iff {s w : List Char} {ws : List (List Char)} (h : runs s = ws ++ [w]) :
    AllowedStretch s ↔ (∀ c ∈ s, isCode c = true) ∧ ¬['-', '-'] <:+: s ∧ ¬['/', '*'] <:+: s ∧
      (∀ v ∈ ws, AllowedWord v) ∧ AllowedWord w := by
  have hwords : (∀ v ∈ runs s, AllowedWord v) ↔ (∀ v ∈ ws, AllowedWord v) ∧ AllowedWord w := by
    rw [h, List.forall_mem_append, List.forall_mem_singleton]
  rw [← hwords]
  exact ⟨fun hs => ⟨hs.code, hs.noDashes, hs.noSlashStar, hs.words⟩,
    fun ⟨hcode, hdashes, hslash, hruns⟩ => ⟨hcode, hdashes, hslash, hruns⟩⟩

/-- The stretch behind the last quotation. -/
theorem screenFrom_last {s : List Char} (hs : ∀ c ∈ s, isQuote c = false) :
    screenFrom (.code []) s = .ok () ↔ (∀ c ∈ s, Clean c) ∧ AllowedStretch s := by
  obtain ⟨ws, w, hruns⟩ := exists_lastRun s
  have hend : screenFrom (.code w.reverse) [] = .ok () ↔ AllowedWord w := by
    rw [screenFrom, endAt, kept, List.reverse_reverse]
    exact checkWord_eq_ok
  have hnext (c : Char) : ([] : List Char).head? ≠ some c := by simp
  have hstretch := screenFrom_stretch (List.forall_mem_nil _) hs (hnext '-') (hnext '*') hruns
  rwa [List.append_nil, hend, ← allowedStretch_iff hruns] at hstretch

/-- What announces escapes in a text is a single letter. -/
theorem announcesEscapes_reverse {w : List Char} :
    announcesEscapes w.reverse = false ↔ w ≠ ['e'] ∧ w ≠ ['E'] := by
  simp [announcesEscapes, List.reverse_eq_iff]

theorem Passage.allowed_iff {p : Passage} {w : List Char} {ws : List (List Char)}
    (h : runs p.stretch = ws ++ [w]) :
    p.Allowed ↔ AllowedStretch p.stretch ∧ (p.quote = '\'' → announcesEscapes w.reverse = false) ∧
      (p.quote = '"' → isDeniedFunction (String.ofList p.content) = false) := by
  have hlast : (runs p.stretch).getLast? = some w := by rw [h, List.getLast?_concat]
  have hescapes : (p.quote = '\'' → announcesEscapes w.reverse = false) ↔ (p.quote = '\'' →
      (runs p.stretch).getLast? ≠ some ['e'] ∧ (runs p.stretch).getLast? ≠ some ['E']) := by
    rw [hlast, announcesEscapes_reverse]
    simp
  rw [hescapes]
  exact ⟨fun hp => ⟨hp.stretch, hp.noEscapes, hp.name⟩,
    fun ⟨hstretch, hnoEscapes, hname⟩ => ⟨hstretch, hnoEscapes, hname⟩⟩

/-- A quote is clean, so a passage is exactly if its stretch and its content are. -/
theorem Passage.forall_mem_text {p : Passage} (hq : isQuote p.quote = true) :
    (∀ c ∈ p.text, Clean c) ↔ (∀ c ∈ p.stretch, Clean c) ∧ ∀ c ∈ p.content, Clean c := by
  have hquote : Clean p.quote := by
    obtain h | h := eq_of_isQuote hq <;> rw [h] <;> exact ⟨rfl, by decide⟩
  have hdoubled : ∀ c, (∀ d ∈ doubled p.quote c, Clean d) ↔ Clean c := by
    intro c
    by_cases hc : c = p.quote
    · simp [doubled, hc]
    · simp [doubled, hc]
  have hcontent : (∀ c ∈ p.content.flatMap (doubled p.quote), Clean c) ↔
      ∀ c ∈ p.content, Clean c := by
    simp only [List.mem_flatMap, forall_exists_index, and_imp]
    exact ⟨fun h c hc => (hdoubled c).mp fun d hd => h d c hc hd,
      fun h d c hc hd => (hdoubled c).mpr (h c hc) d hd⟩
  rw [Passage.text, List.forall_mem_append, List.forall_mem_cons, List.forall_mem_append, hcontent,
    List.forall_mem_singleton]
  simp [hquote]

/-- A stretch up to the quote that ends it. -/
theorem screenFrom_upToQuote {s rest w : List Char} {ws : List (List Char)} {q : Char}
    (hs : ∀ c ∈ s, isQuote c = false) (hq : isQuote q = true) (hruns : runs s = ws ++ [w]) :
    screenFrom (.code []) (s ++ q :: rest) = .ok () ↔ (∀ c ∈ s, Clean c) ∧ AllowedStretch s ∧
      (q = '\'' → announcesEscapes w.reverse = false) ∧
      screenFrom (.within q []) rest = .ok () := by
  have hmark : q ≠ '-' ∧ q ≠ '*' := by
    obtain rfl | rfl := eq_of_isQuote hq <;> decide
  rw [screenFrom_stretch (List.forall_mem_nil _) hs (by simpa using hmark.1)
      (by simpa using hmark.2) hruns,
    screenFrom_opening hq, List.reverse_reverse, allowedStretch_iff hruns]
  tauto

/-- A quotation whose end is missing is not let through. -/
theorem screenFrom_unclosed {s rest : List Char} {q : Char} (hs : ∀ c ∈ s, isQuote c = false)
    (hq : isQuote q = true) (hrest : unquote q rest = none) :
    screenFrom (.code []) (s ++ q :: rest) ≠ .ok () := by
  intro h
  obtain ⟨ws, w, hruns⟩ := exists_lastRun s
  obtain ⟨-, -, -, hwithin⟩ := (screenFrom_upToQuote hs hq hruns).mp h
  obtain ⟨r, hr⟩ := unquote_of_screenFrom hq hwithin
  rw [hrest] at hr
  cases hr

/-- A quotation with the stretch in front of it. -/
theorem screenFrom_passage {p : Passage} {behind : List Char} (h : p.Precedes behind) :
    screenFrom (.code []) (p.text ++ behind) = .ok () ↔
      (∀ c ∈ p.text, Clean c) ∧ p.Allowed ∧ screenFrom (.code []) behind = .ok () := by
  obtain ⟨ws, w, hruns⟩ := exists_lastRun p.stretch
  rw [p.text_append, screenFrom_upToQuote h.unquoted h.quoted hruns,
    screenFrom_quoted h.quoted p.content h.closed, Passage.forall_mem_text h.quoted,
    Passage.allowed_iff hruns, List.reverse_nil, List.nil_append]
  tauto

theorem Outline.last_allowed {s : List Char} : Outline.Allowed ⟨[], s⟩ ↔ AllowedStretch s :=
  ⟨fun h => h.last, fun h => ⟨List.forall_mem_nil _, h⟩⟩

theorem Outline.cons_allowed {p : Passage} {o : Outline} :
    (o.cons p).Allowed ↔ p.Allowed ∧ o.Allowed := by
  constructor
  · intro h
    obtain ⟨hp, hpassages⟩ := List.forall_mem_cons.mp h.passages
    exact ⟨hp, hpassages, h.last⟩
  · rintro ⟨hp, ho⟩
    exact ⟨List.forall_mem_cons.mpr ⟨hp, ho.passages⟩, ho.last⟩

theorem Outline.map_cons_allowed {p : Passage} {x : Option Outline} :
    (∃ o, x.map (Outline.cons p) = some o ∧ o.Allowed) ↔
      p.Allowed ∧ ∃ o, x = some o ∧ o.Allowed := by
  cases x <;> simp [Outline.cons_allowed]

/-- **The first pass lets a text through exactly if nothing in it hides or is a backslash, all its
quotations are closed, and every stretch between them and every name in them may stand there.** -/
theorem screen_iff_allowed (text : List Char) :
    screen text = .ok () ↔
      (∀ c ∈ text, Clean c) ∧ ∃ o, outline text = some o ∧ o.Allowed := by
  rw [screen]
  induction text using outline_induction with
  | last s hs =>
    rw [screenFrom_last hs, outline_last hs, ← Outline.last_allowed]
    simp
  | unclosed s q rest hs hq hrest =>
    rw [outline_upToQuote hs hq, hrest]
    simp [screenFrom_unclosed hs hq hrest]
  | passage p behind hp ih =>
    rw [screenFrom_passage hp, ih, outline_passage hp, Outline.map_cons_allowed,
      List.forall_mem_append]
    tauto

end Enclave.Sql
