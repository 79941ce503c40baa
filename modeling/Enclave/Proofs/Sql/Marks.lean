import Enclave.Proofs.Outcome
import Enclave.Proofs.Sql.Lexeme
import Enclave.Sql.Screen

/-!
# Where quotations lie

The first pass over a statement and the tokenizer each decide for themselves which characters of a
text stand between quotes. Here both write their decision down as one mark for every character:
`marks` for the first pass, `tokenMarks` for the tokens. `screen_marks` says that the two are equal
on every text that the first pass lets through.

The proof follows the tokens. `codeStep_cases` and `quotedStep_cases` say what one step of the
first pass can do; from them `marksFrom_unquoted` walks over a stretch without quotes and
`marksFrom_quotation` over a quotation, and `lexeme_shape` says that a lexeme is one or the other.
-/

namespace Enclave.Sql

/-! ## The first pass, step by step -/

/-- The quote around the characters of a place. -/
def Place.quote? : Place → Option Char
  | .code _ => none
  | .text => some '\''
  | .name _ => some '"'

@[simp]
theorem Place.quote?_code (word : List Char) : (Place.code word).quote? = none := rfl

/-- A step of the first pass over a character in front of `next`: the place behind it, and how many
characters it takes along. -/
def Place.step (p : Place) (c : Char) (next : Option Char) : Except Refusal (Place × Nat) :=
  if isHidden c then .error (.hidden c)
  else
    match p with
    | .code word =>
      if isWordPart c then .ok (.code (c :: word), 0) else (codeStep word c next).map (·, 0)
    | .text =>
      if c = '\\' then .error .backslash
      else if c = '\'' then
        if next = some '\'' then .ok (.text, 1) else .ok (.code [], 0)
      else .ok (.text, 0)
    | .name content =>
      if c = '\\' then .error .backslash
      else if c = '"' then
        if next = some '"' then .ok (.name ('"' :: content), 1)
        else (checkName (kept content)).map fun _ => (.code [], 0)
      else .ok (.name (c :: content), 0)

/-- The first pass takes one step after the other. -/
theorem screenFrom_cons (p : Place) (c : Char) (cs : List Char) :
    screenFrom p (c :: cs) = (p.step c cs.head? >>= fun s => screenFrom s.1 (cs.drop s.2)) := by
  by_cases hc : isHidden c = true
  · cases cs <;> cases p <;> simp [screenFrom, Place.step, hc, bind, Except.bind]
  -- What is next matters only behind a quote, so each place asks first whether `c` is one.
  cases p with
  | code word =>
    by_cases hw : isWordPart c = true
    · cases cs <;> simp [screenFrom, Place.step, hc, hw, bind, Except.bind]
    · cases hstep : codeStep word c cs.head? <;> cases cs <;>
        simp_all [screenFrom, Place.step, bind, Except.bind, Except.map]
  | text =>
    by_cases hq : c = '\''
    · subst hq
      rcases cs with _ | ⟨d, rest⟩
      · simp [screenFrom, Place.step, hc, bind, Except.bind]
      · by_cases hd : d = '\'' <;> simp [screenFrom, Place.step, hc, hd, bind, Except.bind]
    · by_cases hb : c = '\\'
      · subst hb
        cases cs <;> simp [screenFrom, Place.step, hc, bind, Except.bind]
      · cases cs <;> simp [screenFrom, Place.step, hc, hq, hb, bind, Except.bind]
  | name content =>
    by_cases hq : c = '"'
    · subst hq
      rcases cs with _ | ⟨d, rest⟩
      · cases hname : checkName (kept content) <;>
          simp [screenFrom, Place.step, hc, hname, bind, Except.bind, Except.map]
      · by_cases hd : d = '"'
        · simp [screenFrom, Place.step, hc, hd, bind, Except.bind]
        · cases hname : checkName (kept content) <;>
            simp [screenFrom, Place.step, hc, hd, hname, bind, Except.bind, Except.map]
    · by_cases hb : c = '\\'
      · subst hb
        cases cs <;> simp [screenFrom, Place.step, hc, bind, Except.bind]
      · cases cs <;> simp [screenFrom, Place.step, hc, hq, hb, bind, Except.bind]

/-- A character that ends a word opens a quotation, or it is a blank or a punctuation mark. -/
theorem codeStep_eq_ok {word : List Char} {c : Char} {next : Option Char} {p : Place}
    (h : codeStep word c next = .ok p) :
    c = '\'' ∧ p = .text ∨ c = '"' ∧ p = .name [] ∨
      p = .code [] ∧ (Text.isAsciiBlank c || allowedPunctuation.contains c) = true ∧
        ¬(c = '-' ∧ next = some '-') ∧ ¬(c = '/' ∧ next = some '*') := by
  unfold codeStep at h
  split at h
  · cases h
  split at h
  · cases h
  split at h
  · rename_i hc
    cases h
    exact .inl ⟨hc, rfl⟩
  split at h
  · rename_i hc
    cases h
    exact .inr (.inl ⟨hc, rfl⟩)
  split at h
  · cases h
  split at h
  · cases h
  rename_i hdash
  split at h
  · cases h
  rename_i hslash
  split at h
  · rename_i hallowed
    cases h
    exact .inr (.inr ⟨rfl, hallowed, by simpa using hdash, by simpa using hslash⟩)
  split at h <;> cases h

/-- What the first pass can do outside quotations with a character that it lets through. -/
structure CodeStep (c : Char) (next : Option Char) (p : Place) (more : Nat) : Prop where
  more_eq : more = 0
  letThrough : c ≠ '\\' ∧ c ≠ ';' ∧ c ≠ '$' ∧ c ≠ '`'
  noDashes : ¬(c = '-' ∧ next = some '-')
  noSlash : ¬(c = '/' ∧ next = some '*')
  single : c = '\'' → p = .text
  double : c = '"' → p = .name []
  other : c ≠ '\'' → c ≠ '"' → ∃ word, p = .code word

theorem codeStep_cases {word : List Char} {c : Char} {next : Option Char} {s : Place × Nat}
    (h : (Place.code word).step c next = .ok s) : CodeStep c next s.1 s.2 := by
  -- Either class of characters leaves out the same few.
  have hclass : ∀ k : Char → Bool, k c = true →
      k '\\' = false ∧ k ';' = false ∧ k '$' = false ∧ k '`' = false →
        c ≠ '\\' ∧ c ≠ ';' ∧ c ≠ '$' ∧ c ≠ '`' := by
    rintro k hk ⟨h1, h2, h3, h4⟩
    refine ⟨?_, ?_, ?_, ?_⟩ <;> rintro rfl <;> simp_all
  unfold Place.step at h
  split at h
  · cases h
  simp only at h
  split at h
  · rename_i hw
    cases h
    have hnoQuote := notQuote_of_class (by decide) (by decide) hw
    have hne : ∀ d : Char, isWordPart d = false → c ≠ d := by
      rintro d hd rfl
      rw [hd] at hw
      cases hw
    exact ⟨rfl, hclass _ hw (by decide), fun hc => hne _ (by decide) hc.1,
      fun hc => hne _ (by decide) hc.1, fun hc => absurd hc hnoQuote.1,
      fun hc => absurd hc hnoQuote.2, fun _ _ => ⟨_, rfl⟩⟩
  · obtain ⟨p, hp, rfl⟩ := map_eq_ok.mp h
    obtain ⟨rfl, rfl⟩ | ⟨rfl, rfl⟩ | ⟨rfl, hallowed, hdash, hslash⟩ := codeStep_eq_ok hp
    · exact ⟨rfl, by decide, by simp, by simp, fun _ => rfl, nofun, fun hc => absurd rfl hc⟩
    · exact ⟨rfl, by decide, by simp, by simp, nofun, fun _ => rfl, fun _ hc => absurd rfl hc⟩
    · let allowed : Char → Bool := fun c => Text.isAsciiBlank c || allowedPunctuation.contains c
      have hnoQuote := notQuote_of_class (p := allowed) (by decide) (by decide) hallowed
      exact ⟨rfl, hclass allowed hallowed (by decide), hdash, hslash,
        fun hc => absurd hc hnoQuote.1, fun hc => absurd hc hnoQuote.2, fun _ _ => ⟨_, rfl⟩⟩

/-- What the first pass can do between quotes with a character that it lets through. -/
theorem quotedStep_cases {p : Place} {q c : Char} {next : Option Char} {s : Place × Nat}
    (hp : p.quote? = some q) (h : p.step c next = .ok s) :
    c ≠ '\\' ∧ (c ≠ q ∧ s.1.quote? = some q ∧ s.2 = 0 ∨
      c = q ∧ next = some q ∧ s.1.quote? = some q ∧ s.2 = 1 ∨
      c = q ∧ next ≠ some q ∧ s = (.code [], 0)) := by
  unfold Place.step at h
  split at h
  · cases h
  cases p with
  | code word => cases hp
  | text =>
    cases hp
    simp only at h
    split at h
    · cases h
    rename_i hback
    refine ⟨hback, ?_⟩
    split at h
    · rename_i hc
      split at h <;> cases h
      · rename_i hnext
        exact .inr (.inl ⟨hc, hnext, rfl, rfl⟩)
      · rename_i hnext
        exact .inr (.inr ⟨hc, hnext, rfl⟩)
    · rename_i hc
      cases h
      exact .inl ⟨hc, rfl, rfl⟩
  | name content =>
    cases hp
    simp only at h
    split at h
    · cases h
    rename_i hback
    refine ⟨hback, ?_⟩
    split at h
    · rename_i hc
      split at h
      · rename_i hnext
        cases h
        exact .inr (.inl ⟨hc, hnext, rfl, rfl⟩)
      · rename_i hnext
        obtain ⟨-, -, rfl⟩ := map_eq_ok.mp h
        exact .inr (.inr ⟨hc, hnext, rfl⟩)
    · rename_i hc
      cases h
      exact .inl ⟨hc, rfl, rfl⟩

/-! ## Marks -/

/-- What a character of a text is to a reader who follows its quotations. -/
inductive Mark where
  | code
  | opening (quote : Char)
  | inside (quote : Char)
  | closing (quote : Char)
  deriving Repr, DecidableEq

/-- The marks of the characters of a step from one place to another. -/
def Place.marks (p next : Place) (more : Nat) : List Mark :=
  match p.quote?, next.quote? with
  | none, none => [.code]
  | none, some q => [.opening q]
  | some q, some _ => List.replicate (more + 1) (.inside q)
  | some q, none => [.closing q]

/-- The first pass from a place on, with a mark for every character that it lets through. -/
def marksFrom (p : Place) (cs : List Char) : Except Refusal (List Mark) :=
  match cs with
  | [] => (endAt p).map fun _ => []
  | c :: rest => do
    let s ← p.step c rest.head?
    let more ← marksFrom s.1 (rest.drop s.2)
    return p.marks s.1 s.2 ++ more
termination_by cs.length
decreasing_by simp only [List.length_drop, List.length_cons]; omega

/-- The first pass over a statement, with a mark for every character. -/
def marks (cs : List Char) : Except Refusal (List Mark) := marksFrom (.code []) cs

theorem marksFrom_nil {p : Place} {ms : List Mark} (h : marksFrom p [] = .ok ms) :
    endAt p = .ok () ∧ ms = [] := by
  rw [marksFrom] at h
  obtain ⟨⟨⟩, hend, rfl⟩ := map_eq_ok.mp h
  exact ⟨hend, rfl⟩

theorem marksFrom_cons {p : Place} {c : Char} {cs : List Char} {ms : List Mark}
    (h : marksFrom p (c :: cs) = .ok ms) :
    ∃ s more, p.step c cs.head? = .ok s ∧ marksFrom s.1 (cs.drop s.2) = .ok more ∧
      ms = p.marks s.1 s.2 ++ more := by
  rw [marksFrom] at h
  obtain ⟨s, hs, h⟩ := bind_eq_ok.mp h
  obtain ⟨more, hmore, h⟩ := bind_eq_ok.mp h
  exact ⟨s, more, hs, hmore, (pure_eq_ok.mp h).symm⟩

/-- The marks are notes to the first pass and change nothing about it. -/
theorem screenFrom_eq_marksFrom (p : Place) (cs : List Char) :
    screenFrom p cs = (marksFrom p cs).map fun _ => () := by
  induction h : cs.length using Nat.strongRecOn generalizing p cs with
  | _ n ih =>
    cases cs with
    | nil =>
      rw [marksFrom, screenFrom]
      cases endAt p <;> rfl
    | cons c rest =>
      rw [marksFrom, screenFrom_cons]
      cases p.step c rest.head? with
      | error r => rfl
      | ok s =>
        have hshort : (rest.drop s.2).length < n := by
          rw [← h, List.length_drop, List.length_cons]
          omega
        have hrest := ih _ hshort s.1 (rest.drop s.2) rfl
        simp only [bind, Except.bind, hrest]
        cases marksFrom s.1 (rest.drop s.2) <;> rfl

theorem exists_marks {cs : List Char} (h : screen cs = .ok ()) : ∃ ms, marks cs = .ok ms := by
  rw [screen, screenFrom_eq_marksFrom] at h
  obtain ⟨ms, hms, -⟩ := map_eq_ok.mp h
  exact ⟨ms, hms⟩

/-! ## Runs of the first pass -/

/-- A step takes one character, or two of the same quote; never a backslash. -/
theorem step_takes {p : Place} {c : Char} {next : Option Char} {s : Place × Nat}
    (h : p.step c next = .ok s) :
    c ≠ '\\' ∧ (p.marks s.1 s.2).length = s.2 + 1 ∧ (s.2 = 0 ∨ s.2 = 1 ∧ next = some c) := by
  cases hp : p.quote? with
  | none =>
    obtain ⟨word, rfl⟩ : ∃ word, p = .code word := by
      cases p <;> first | exact ⟨_, rfl⟩ | cases hp
    have hcase := codeStep_cases h
    refine ⟨hcase.letThrough.1, ?_, .inl hcase.more_eq⟩
    rw [hcase.more_eq]
    cases hs : s.1.quote? <;> simp [Place.marks, hs]
  | some q =>
    obtain ⟨hback, ⟨-, hs, hmore⟩ | ⟨rfl, hnext, hs, hmore⟩ | ⟨-, -, rfl⟩⟩ :=
      quotedStep_cases hp h
    · exact ⟨hback, by simp [Place.marks, hp, hs], .inl hmore⟩
    · exact ⟨hback, by simp [Place.marks, hp, hs], .inr ⟨hmore, hnext⟩⟩
    · exact ⟨hback, by simp [Place.marks, hp], .inl rfl⟩

/-- No text that is let through has a backslash, and each of its characters has a mark. -/
theorem marksFrom_takes {p : Place} {cs : List Char} {ms : List Mark}
    (h : marksFrom p cs = .ok ms) : '\\' ∉ cs ∧ ms.length = cs.length := by
  induction hn : cs.length using Nat.strongRecOn generalizing p cs ms with
  | _ n ih =>
    cases cs with
    | nil =>
      obtain ⟨-, rfl⟩ := marksFrom_nil h
      exact ⟨List.not_mem_nil, hn⟩
    | cons c rest =>
      obtain ⟨s, more, hstep, hmore, rfl⟩ := marksFrom_cons h
      obtain ⟨hback, hwidth, htake⟩ := step_takes hstep
      have hshort : (rest.drop s.2).length < n := by
        rw [← hn, List.length_drop, List.length_cons]
        omega
      obtain ⟨hno, hlength⟩ := ih _ hshort hmore rfl
      rw [List.length_append, hwidth, hlength, ← hn, List.length_cons]
      obtain hzero | ⟨hone, hnext⟩ := htake
      · rw [hzero, List.drop_zero] at hno ⊢
        exact ⟨by simpa using ⟨hback.symm, hno⟩, by omega⟩
      · obtain ⟨rest, rfl⟩ := List.head?_eq_some_iff.mp hnext
        rw [hone, List.drop_one, List.tail_cons] at hno ⊢
        exact ⟨by simpa using ⟨hback.symm, hno⟩, by rw [List.length_cons]; omega⟩

/-- Over a stretch without quotes the first pass stays outside quotations. -/
theorem marksFrom_unquoted {word s rest : List Char} {ms : List Mark} (hs : Unquoted s)
    (h : marksFrom (.code word) (s ++ rest) = .ok ms) :
    ∃ word' more, marksFrom (.code word') rest = .ok more ∧
      ms = List.replicate s.length .code ++ more := by
  induction s generalizing word ms with
  | nil => exact ⟨word, ms, h, rfl⟩
  | cons c s ih =>
    obtain ⟨⟨p, n⟩, more, hstep, hmore, rfl⟩ := marksFrom_cons h
    have hcase := codeStep_cases hstep
    obtain ⟨hsingle, hdouble⟩ := hs c List.mem_cons_self
    obtain ⟨word₁, rfl⟩ := hcase.other hsingle hdouble
    obtain rfl := hcase.more_eq
    obtain ⟨word', more', hrest, rfl⟩ := ih (fun a ha => hs a (List.mem_cons_of_mem _ ha)) hmore
    exact ⟨word', more', hrest, rfl⟩

/-- A quote outside quotations opens one. -/
theorem marksFrom_opening {word rest : List Char} {q : Char} {ms : List Mark}
    (hq : q = '\'' ∨ q = '"' ∨ q = '`') (h : marksFrom (.code word) (q :: rest) = .ok ms) :
    ∃ p more, p.quote? = some q ∧ marksFrom p rest = .ok more ∧ ms = .opening q :: more := by
  obtain ⟨⟨p, n⟩, more, hstep, hmore, rfl⟩ := marksFrom_cons h
  have hcase := codeStep_cases hstep
  obtain rfl : n = 0 := hcase.more_eq
  have hp : p.quote? = some q := by
    obtain rfl | rfl | rfl := hq
    · rw [show p = .text from hcase.single rfl]
      rfl
    · rw [show p = .name [] from hcase.double rfl]
      rfl
    · exact absurd rfl hcase.letThrough.2.2.2
  exact ⟨p, more, hp, hmore, by simp [Place.marks, hp]⟩

/-- Between quotes, any other character. -/
theorem marksFrom_inside {p : Place} {q c : Char} {rest : List Char} {ms : List Mark}
    (hp : p.quote? = some q) (hc : c ≠ q) (h : marksFrom p (c :: rest) = .ok ms) :
    ∃ p' more, p'.quote? = some q ∧ marksFrom p' rest = .ok more ∧ ms = .inside q :: more := by
  obtain ⟨⟨p', n⟩, more, hstep, hmore, rfl⟩ := marksFrom_cons h
  obtain ⟨-, ⟨-, hp', hn⟩ | ⟨hq, -⟩ | ⟨hq, -⟩⟩ := quotedStep_cases hp hstep
  · subst hn
    exact ⟨p', more, hp', hmore, by simp [Place.marks, hp, hp']⟩
  · exact absurd hq hc
  · exact absurd hq hc

/-- Between quotes, the quote twice. -/
theorem marksFrom_doubled {p : Place} {q : Char} {rest : List Char} {ms : List Mark}
    (hp : p.quote? = some q) (h : marksFrom p (q :: q :: rest) = .ok ms) :
    ∃ p' more, p'.quote? = some q ∧ marksFrom p' rest = .ok more ∧
      ms = .inside q :: .inside q :: more := by
  obtain ⟨⟨p', n⟩, more, hstep, hmore, rfl⟩ := marksFrom_cons h
  obtain ⟨-, ⟨hq, -⟩ | ⟨-, -, hp', hn⟩ | ⟨-, hnext, -⟩⟩ := quotedStep_cases hp hstep
  · exact absurd rfl hq
  · subst hn
    exact ⟨p', more, hp', hmore, by simp [Place.marks, hp, hp', List.replicate_succ]⟩
  · exact absurd rfl hnext

/-- Between quotes, the quote alone. -/
theorem marksFrom_closing {p : Place} {q : Char} {rest : List Char} {ms : List Mark}
    (hp : p.quote? = some q) (hnext : rest.head? ≠ some q)
    (h : marksFrom p (q :: rest) = .ok ms) :
    ∃ more, marksFrom (.code []) rest = .ok more ∧ ms = .closing q :: more := by
  obtain ⟨s, more, hstep, hmore, rfl⟩ := marksFrom_cons h
  obtain ⟨-, ⟨hq, -⟩ | ⟨-, hq, -⟩ | ⟨-, -, rfl⟩⟩ := quotedStep_cases hp hstep
  · exact absurd rfl hq
  · exact absurd hq hnext
  · exact ⟨more, hmore, by simp [Place.marks, hp]⟩

/-- Over a quotation the first pass stays between the quotes up to the closing one. -/
theorem marksFrom_quotation {p : Place} {q : Char} {content cs : List Char} {used : Nat}
    {r : List Char × Nat} {ms : List Mark} (hp : p.quote? = some q)
    (hr : quotation q content used cs = some r) (h : marksFrom p cs = .ok ms) :
    ∃ n more, r.2 = used + n + 1 ∧ marksFrom (.code []) (cs.drop (n + 1)) = .ok more ∧
      ms = List.replicate n (.inside q) ++ .closing q :: more := by
  revert hr
  -- Each case of the reader is one of the three things that can stand between quotes.
  fun_induction quotation q content used cs generalizing p ms <;> intro hr
  case case1 => cases hr
  case case2 ih =>
    obtain ⟨p', more, hp', hmore, rfl⟩ := marksFrom_doubled hp h
    obtain ⟨n, more', hused, hrest, rfl⟩ := ih hp' hmore hr
    exact ⟨n + 2, more', by omega, hrest, rfl⟩
  case case3 hd =>
    cases hr
    obtain ⟨more, hmore, rfl⟩ := marksFrom_closing hp (by simpa using hd) h
    exact ⟨0, more, rfl, hmore, rfl⟩
  case case4 =>
    cases hr
    obtain ⟨more, hmore, rfl⟩ := marksFrom_closing hp (by simp) h
    exact ⟨0, more, rfl, hmore, rfl⟩
  case case5 hc ih =>
    obtain ⟨p', more, hp', hmore, rfl⟩ := marksFrom_inside hp hc h
    obtain ⟨n, more', hused, hrest, rfl⟩ := ih hp' hmore hr
    exact ⟨n + 1, more', by omega, hrest, rfl⟩

/-- Without backslashes there are no escapes. -/
theorem escapedQuotation_eq_quotation {content cs : List Char} {used : Nat} (h : '\\' ∉ cs) :
    escapedQuotation content used cs = quotation '\'' content used cs := by
  fun_induction escapedQuotation content used cs
  case case1 => rfl
  case case2 => simp [quotation]
  case case3 hc => simp [quotation, hc]
  case case4 => simp at h
  case case5 ih =>
    rw [quotation, if_pos rfl, if_pos rfl]
    exact ih fun hmem => h (by simp [hmem])
  case case6 hd _ => simp [quotation, hd]
  case case7 hc ih =>
    rw [quotation, if_neg hc]
    exact ih fun hmem => h (List.mem_cons_of_mem _ hmem)

/-! ## The marks of the tokens -/

/-- The marks of a lexeme that begins a text. -/
def Lexeme.marks (l : Lexeme) (source : List Char) : List Mark :=
  match l.token.quoteAt? source with
  | none => List.replicate l.width .code
  | some lead =>
    match source.drop lead with
    | [] => []
    | q :: _ =>
      List.replicate lead .code ++ .opening q ::
        (List.replicate (l.extra - lead - 1) (.inside q) ++ [.closing q])

/-- The marks of the characters of a text that is made of lexemes. -/
def tokenMarks (source : List Char) : List Lexeme → List Mark
  | [] => []
  | l :: ls => l.marks source ++ tokenMarks (source.drop l.width) ls

/-- A token that neither separates statements nor hides text from the first pass. -/
structure Token.Harmless (token : Token) : Prop where
  noSeparator : token ≠ .symbol ";"
  noComment : token ≠ .comment
  noDollar : ∀ content, token ≠ .text .dollar content

theorem harmless_of_quoteAt? {token : Token} {source : List Char} {n : Nat}
    (h : token.quoteAt? source = some n) : token.Harmless := by
  constructor
  · rintro rfl
    cases h
  · rintro rfl
    cases h
  · rintro content rfl
    cases h

/-- A lexeme of a text that is let through has the marks that the first pass gives it. -/
theorem lexeme_marks {word : List Char} {c : Char} {cs : List Char} {l : Lexeme} {ms : List Mark}
    (hl : lexeme c cs = some l) (h : marksFrom (.code word) (c :: cs) = .ok ms) :
    l.token.Harmless ∧ ∃ word' more,
      marksFrom (.code word') (cs.drop l.extra) = .ok more ∧ ms = l.marks (c :: cs) ++ more := by
  obtain ⟨s, -, hstep, -, -⟩ := marksFrom_cons h
  have hcase := codeStep_cases hstep
  cases lexeme_shape hl with
  | dashes hc hnext => exact absurd ⟨hc, hnext⟩ hcase.noDashes
  | slash hc hnext => exact absurd ⟨hc, hnext⟩ hcase.noSlash
  | dollar hc => exact absurd hc hcase.letThrough.2.2.1
  | bare hbare =>
    refine ⟨⟨fun ht => ?_, hbare.noComment, hbare.noDollar⟩, ?_⟩
    · exact absurd (hbare.separator ht) hcase.letThrough.2.1
    obtain ⟨s, ⟨rest, hrest⟩, hwidth, hs⟩ := hbare.covers
    rw [← hrest] at h
    obtain ⟨word', more, hmore, rfl⟩ := marksFrom_unquoted hs h
    refine ⟨word', more, ?_, ?_⟩
    · have hdrop : cs.drop l.extra = rest := by
        rw [← List.drop_succ_cons (a := c), ← hrest]
        exact List.drop_left' hwidth
      rw [hdrop, hmore]
    · rw [Lexeme.marks, hbare.opensNot, hwidth]
  | quotes lead q rest hq =>
    refine ⟨harmless_of_quoteAt? hq.opens, ?_⟩
    have hletters : Unquoted lead :=
      fun a ha => notQuote_of_class (by decide) (by decide) (hq.letters a ha)
    have hback : '\\' ∉ rest := by
      have hno := (marksFrom_takes h).1
      rw [hq.source_eq] at hno
      exact fun hmem => hno (by simp [hmem])
    obtain ⟨r, hread, hextra⟩ := hq.read
    have hread : quotation q [] 0 rest = some r := by
      obtain hread | ⟨rfl, hread⟩ := hread
      · exact hread
      · rwa [escapedQuotation_eq_quotation hback] at hread
    rw [hq.source_eq] at h
    obtain ⟨_, _, hopen, rfl⟩ := marksFrom_unquoted hletters h
    obtain ⟨p, _, hp, hinside, rfl⟩ := marksFrom_opening hq.quote hopen
    obtain ⟨n, more, hn, hmore, rfl⟩ := marksFrom_quotation hp hread hinside
    refine ⟨[], more, ?_, ?_⟩
    · have hdrop : cs.drop l.extra = rest.drop (n + 1) := by
        rw [← List.drop_succ_cons (a := c), hq.source_eq, hextra, hn, Nat.add_assoc,
          List.drop_length_add_append, Nat.zero_add, List.drop_succ_cons]
      rw [hdrop, hmore]
    · have hinner : l.extra - lead.length - 1 = n := by omega
      rw [Lexeme.marks, hq.opens, hq.source_eq]
      simp [hinner]

/-- The marks of a text that is let through are those of its lexemes. -/
theorem marksFrom_eq_tokenMarks {word text : List Char} {ls : List Lexeme} {ms : List Mark}
    (hl : lexemes text = some ls) (h : marksFrom (.code word) text = .ok ms) :
    ms = tokenMarks text ls ∧ ∀ l ∈ ls, l.token.Harmless := by
  induction ls generalizing word text ms with
  | nil =>
    cases text with
    | nil => exact ⟨(marksFrom_nil h).2, nofun⟩
    | cons c rest =>
      rw [lexemes_cons] at hl
      obtain ⟨l, -, hrest⟩ := Option.bind_eq_some_iff.mp hl
      obtain ⟨_, -, hcons⟩ := Option.map_eq_some_iff.mp hrest
      cases hcons
  | cons l ls ih =>
    cases text with
    | nil =>
      rw [lexemes_nil] at hl
      cases hl
    | cons c rest =>
      rw [lexemes_cons] at hl
      obtain ⟨l', hlexeme, hrest⟩ := Option.bind_eq_some_iff.mp hl
      obtain ⟨ls', hls, hcons⟩ := Option.map_eq_some_iff.mp hrest
      obtain ⟨rfl, rfl⟩ := List.cons.inj hcons
      obtain ⟨hharmless, word', more, hmore, rfl⟩ := lexeme_marks hlexeme h
      obtain ⟨rfl, hall⟩ := ih hls hmore
      exact ⟨rfl, List.forall_mem_cons.mpr ⟨hharmless, hall⟩⟩

/-- **The first pass and the tokenizer agree on where quotations lie.** A text that is let through
has for each of its characters the mark that its tokens give it, and none of these tokens ends a
statement, is a comment or stands between dollars. -/
theorem screen_marks {text : List Char} {ls : List Lexeme} (hs : screen text = .ok ())
    (hl : lexemes text = some ls) :
    marks text = .ok (tokenMarks text ls) ∧ (tokenMarks text ls).length = text.length ∧
      ∀ l ∈ ls, l.token.Harmless := by
  obtain ⟨ms, hms⟩ := exists_marks hs
  obtain ⟨rfl, hharmless⟩ := marksFrom_eq_tokenMarks hl hms
  exact ⟨hms, (marksFrom_takes hms).2, hharmless⟩

/-- Texts that are announced by a letter, one of them glued to a number, and a name with its quote
doubled. -/
def prefixedTexts : List Char := "SELECT n'it''s', b\"x\", 1e'y', \"a\"\"b\" FROM t".toList

theorem screen_marks_prefixedTexts : ∃ ls, lexemes prefixedTexts = some ls ∧
    marks prefixedTexts = .ok (tokenMarks prefixedTexts ls) := by
  have hs : screen prefixedTexts = .ok () := eq_ok_of_isOk (by decide +kernel)
  have hl : (lexemes prefixedTexts).isSome = true := by decide +kernel
  obtain ⟨ls, hls⟩ := Option.isSome_iff_exists.mp hl
  exact ⟨ls, hls, (screen_marks hs hls).1⟩

end Enclave.Sql
