import Enclave.Plan.Statement
import Enclave.Proofs.Decimal.Numeral
import Enclave.Proofs.Sql.Lexeme

/-!
# How tokens are spelled

`Spells cs ts` says that the characters `cs` are read as the tokens `ts` wherever they stand in
front of a blank, a bracket, a comma or the end. Spellings can be put together, so the tokens of a
long text follow from those of its pieces.

`quotation_doubled` is what keeps a name or a text inside its quotes: with every quote doubled, the
quotation ends at the quote that was meant to close it.
-/

namespace Enclave.Sql

/-- Characters in front of which a token ends. -/
def Ends (cs : List Char) : Prop := ∀ c ∈ cs.head?, c ∈ [' ', '(', ')', ',']

/-- Characters that are read as some tokens. -/
def Spells (cs : List Char) (ts : List Token) : Prop :=
  ∀ rest, Ends rest →
    (lexemes (cs ++ rest)).map grammarTokens = (lexemes rest).map fun ls => ts ++ grammarTokens ls

theorem ends_nil : Ends [] := nofun

theorem ends_cons {c : Char} (hc : c ∈ [' ', '(', ')', ',']) (cs : List Char) : Ends (c :: cs) := by
  rintro _ ⟨⟩
  exact hc

theorem ends_blank (cs : List Char) : Ends (' ' :: cs) := ends_cons (by decide) cs

theorem Ends.append {cs ds : List Char} (hcs : Ends cs) (hds : Ends ds) : Ends (cs ++ ds) := by
  cases cs with
  | nil => exact hds
  | cons c cs => exact ends_cons (hcs c rfl) _

/-- A class of characters that leaves out those which end tokens. -/
theorem Ends.head_not {cs : List Char} (h : Ends cs) {p : Char → Bool}
    (hp : ([' ', '(', ')', ','].any p) = false) : ∀ c ∈ cs.head?, p c = false := by
  intro c hc
  exact Bool.eq_false_iff.mpr (List.any_eq_false.mp hp c (h c hc))

/-! ## Putting spellings together -/

theorem spells_nil : Spells [] [] := by
  intro rest _
  simp

theorem Spells.append {cs ds : List Char} {ts us : List Token} (hcs : Spells cs ts)
    (hds : Spells ds us) (hends : Ends ds) : Spells (cs ++ ds) (ts ++ us) := by
  intro rest hrest
  have hmore := congrArg (Option.map (ts ++ ·)) (hds rest hrest)
  rw [Option.map_map, Option.map_map] at hmore
  rw [List.append_assoc, hcs _ (hends.append hrest)]
  simpa [Function.comp_def] using hmore

/-- The tokens of a text that is spelled. -/
theorem Spells.tokens {cs : List Char} {ts : List Token} (h : Spells cs ts) :
    ∃ ls, lexemes cs = some ls ∧ grammarTokens ls = ts := by
  have htokens := h [] ends_nil
  rw [List.append_nil, lexemes_nil] at htokens
  obtain ⟨ls, hls, htokens⟩ := Option.map_eq_some_iff.mp htokens
  exact ⟨ls, hls, by simpa [grammarTokens] using htokens⟩

theorem grammarTokens_cons (l : Lexeme) (ls : List Lexeme) :
    grammarTokens (l :: ls) = (if l.token.isBlank then [] else [l.token]) ++ grammarTokens ls := by
  cases h : l.token.isBlank <;> simp [grammarTokens, h]

/-- A lexeme in front of a spelling. -/
theorem Spells.cons {c : Char} {ds : List Char} {us : List Token} (hds : Spells ds us)
    (cs : List Char) (t : Token)
    (h : ∀ rest, Ends rest → lexeme c (cs ++ (ds ++ rest)) = some ⟨t, cs.length⟩) :
    Spells (c :: (cs ++ ds)) ((if t.isBlank then [] else [t]) ++ us) := by
  intro rest hrest
  have hmore := congrArg (Option.map ((if t.isBlank then [] else [t]) ++ ·)) (hds rest hrest)
  rw [Option.map_map, Option.map_map] at hmore
  rw [List.cons_append, List.append_assoc, lexemes_cons, h rest hrest, Option.bind_some,
    List.drop_left, Option.map_map]
  simpa [Function.comp_def, grammarTokens_cons] using hmore

/-- A lexeme of its own. -/
theorem spells_of_lexeme {c : Char} {cs : List Char} {t : Token} (ht : t.isBlank = false)
    (h : ∀ rest, Ends rest → lexeme c (cs ++ rest) = some ⟨t, cs.length⟩) :
    Spells (c :: cs) [t] := by
  simpa [ht] using spells_nil.cons cs t h

theorem Spells.blank {cs : List Char} {ts : List Token} (h : Spells cs ts) :
    Spells (' ' :: cs) ts :=
  h.cons [] .blank fun _ _ => rfl

theorem Spells.opening {cs : List Char} {ts : List Token} (h : Spells cs ts) :
    Spells ('(' :: cs) (.symbol "(" :: ts) :=
  h.cons [] (.symbol "(") fun _ _ => rfl

theorem Spells.closing {cs : List Char} {ts : List Token} (h : Spells cs ts) :
    Spells (')' :: cs) (.symbol ")" :: ts) :=
  h.cons [] (.symbol ")") fun _ _ => rfl

theorem Spells.comma {cs : List Char} {ts : List Token} (h : Spells cs ts) :
    Spells (',' :: cs) (.symbol "," :: ts) :=
  h.cons [] (.symbol ",") fun _ _ => rfl

/-! ## Words -/

theorem takeWhile_eq_nil {p : Char → Bool} {cs : List Char} (h : ∀ c ∈ cs.head?, p c = false) :
    cs.takeWhile p = [] := by
  cases cs with
  | nil => rfl
  | cons c cs => simp [h c rfl]

/-- A class of characters takes those that belong to it, and stops where the token ends. -/
theorem takeWhile_append_ends {p : Char → Bool} {cs rest : List Char}
    (hcs : ∀ c ∈ cs, p c = true) (hrest : ∀ c ∈ rest.head?, p c = false) :
    (cs ++ rest).takeWhile p = cs := by
  rw [List.takeWhile_append_of_pos hcs, takeWhile_eq_nil hrest, List.append_nil]

/-- Characters that are one word. -/
def isWord : List Char → Bool
  | [] => false
  | c :: cs => isWordStart c && cs.all isWordPart

/-- A word in front of which no letter announces a quotation. -/
theorem lexeme_word {c : Char} {cs : List Char} (hc : isWordStart c = true)
    (hcs : ∀ a ∈ cs.head?, a ≠ '\'' ∧ a ≠ '"') : lexeme c cs = some (wordLexeme c cs) := by
  unfold lexeme
  split
  · exact absurd rfl (hcs _ rfl).1
  · exact absurd rfl (hcs _ rfl).1
  · exact absurd rfl (hcs _ rfl).2
  · rw [if_pos hc]

theorem spells_word {cs : List Char} (h : isWord cs = true) :
    Spells cs [.word (String.ofList cs) none] := by
  obtain _ | ⟨c, cs⟩ := cs
  · cases h
  obtain ⟨hc, hcs⟩ := Bool.and_eq_true_iff.mp h
  rw [List.all_eq_true] at hcs
  refine spells_of_lexeme rfl fun rest hrest => ?_
  have hstop := hrest.head_not (p := isWordPart) (by decide)
  have hnext : ∀ a ∈ (cs ++ rest).head?, a ≠ '\'' ∧ a ≠ '"' := by
    intro a ha
    -- What stands next ends the token, or it is a part of the word.
    obtain _ | ⟨b, cs⟩ := cs
    · constructor <;> rintro rfl <;> exact absurd (hrest _ ha) (by decide)
    · obtain rfl : b = a := Option.some.inj ha
      exact notQuote_of_class (by decide) (by decide) (hcs b List.mem_cons_self)
  rw [lexeme_word hc hnext, wordLexeme, takeWhile_append_ends hcs hstop]

/-! ## Quotations -/

theorem quotation_other {q c : Char} (hc : c ≠ q) (content cs : List Char) (used : Nat) :
    quotation q content used (c :: cs) = quotation q (c :: content) (used + 1) cs := by
  cases cs <;> simp [quotation, hc]

theorem quotation_closing {q : Char} {rest : List Char} (h : rest.head? ≠ some q)
    (content : List Char) (used : Nat) :
    quotation q content used (q :: rest) = some (content.reverse, used + 1) := by
  cases rest with
  | nil => simp [quotation]
  | cons d rest =>
    have hd : d ≠ q := fun hd => h (congrArg some hd)
    simp [quotation, hd]

/-- With every quote doubled, a quotation ends at the quote behind it. -/
theorem quotation_doubled {q : Char} (cs : List Char) {content rest : List Char} {used : Nat}
    (hrest : rest.head? ≠ some q) :
    quotation q content used (cs.flatMap (doubled q) ++ q :: rest)
      = some (content.reverse ++ cs, used + (cs.flatMap (doubled q)).length + 1) := by
  induction cs generalizing content used with
  | nil =>
    rw [List.flatMap_nil, List.nil_append, quotation_closing hrest, List.append_nil]
    rfl
  | cons c cs ih =>
    rw [List.flatMap_cons, List.append_assoc, List.length_append]
    by_cases hc : c = q
    · -- Two quotes are read as one character of the content.
      subst hc
      rw [doubled, if_pos rfl, List.cons_append, List.singleton_append, quotation, if_pos rfl,
        if_pos rfl, ih, List.reverse_cons, List.append_assoc]
      congr 3
      simp only [List.length_cons, List.length_nil]
      omega
    · rw [doubled, if_neg hc, List.singleton_append, quotation_other hc, ih, List.reverse_cons,
        List.append_assoc]
      congr 3
      simp only [List.length_cons, List.length_nil]
      omega

/-- The characters between quotes make one token, whatever they are. -/
theorem quotation_quoted {q : Char} (hq : q ∉ [' ', '(', ')', ',']) (cs : List Char)
    {rest : List Char} (hrest : Ends rest) :
    quotation q [] 0 ((cs.flatMap (doubled q) ++ [q]) ++ rest)
      = some (cs, (cs.flatMap (doubled q) ++ [q]).length) := by
  have hnext : rest.head? ≠ some q := fun hhead => hq (hrest q hhead)
  rw [List.append_assoc, List.singleton_append, quotation_doubled cs hnext]
  simp

theorem spells_quoteName (n : String) :
    Spells (quoteName n).toList [.word n (some '"')] := by
  rw [quoteName, String.toList_ofList, quotedChars]
  refine spells_of_lexeme rfl fun rest hrest => ?_
  have hread := quotation_quoted (q := '"') (by decide) n.toList hrest
  change (quotation '"' [] 0 _).map
    (fun r => (⟨.word (String.ofList r.1) (some '"'), r.2⟩ : Lexeme)) = _
  rw [hread, Option.map_some, String.ofList_toList]

theorem spells_quoteText (s : String) :
    Spells (quoteText s).toList [.text .plain s] := by
  rw [quoteText, String.toList_ofList, quotedChars]
  refine spells_of_lexeme rfl fun rest hrest => ?_
  have hread := quotation_quoted (q := '\'') (by decide) s.toList hrest
  change textLexeme .plain 0 (quotation '\'' [] 0 _) = _
  rw [hread, textLexeme, Option.map_some, String.ofList_toList, Nat.zero_add]

/-! ## Numbers -/

theorem dropWhile_append_ends {p : Char → Bool} {cs rest : List Char}
    (hcs : ∀ c ∈ cs, p c = true) (hrest : ∀ c ∈ rest.head?, p c = false) :
    (cs ++ rest).dropWhile p = rest := by
  rw [List.dropWhile_append_of_pos hcs]
  cases rest with
  | nil => rfl
  | cons c rest => simp [hrest c rfl]

/-- What stands behind the digits of a number and behind its point. -/
theorem exponent_head {w p x rest : List Char} (h : Decimal.Numeral w p x) (hrest : Ends rest) :
    ∀ c ∈ (x ++ rest).head?, c.isDigit = false ∧ (c == '.') = false ∧ c ≠ 'x' := by
  obtain rfl | ⟨sign, ds, rfl, -⟩ := h.exponent
  · intro c hc
    have hclass := hrest.head_not (p := fun c => c.isDigit || c == '.' || c == 'x') (by decide) c hc
    simpa [and_assoc] using hclass
  · rintro c ⟨⟩
    decide

theorem fraction_head {w p x rest : List Char} (h : Decimal.Numeral w p x) (hrest : Ends rest) :
    ∀ c ∈ (p ++ (x ++ rest)).head?, c.isDigit = false ∧ c ≠ 'x' := by
  obtain rfl | ⟨ds, rfl, -⟩ := h.fraction
  · exact fun c hc => ⟨(exponent_head h hrest c hc).1, (exponent_head h hrest c hc).2.2⟩
  · rintro c ⟨⟩
    decide

theorem mantissaChars_numeral {w p x rest : List Char} (h : Decimal.Numeral w p x)
    (hrest : Ends rest) : mantissaChars (w ++ (p ++ (x ++ rest))) = w ++ p := by
  have hx := exponent_head h hrest
  have hdigits : ∀ ds : List Char, (∀ c ∈ ds, c.isDigit = true) →
      (ds ++ (x ++ rest)).takeWhile Char.isDigit = ds :=
    fun ds hds => takeWhile_append_ends hds fun c hc => (hx c hc).1
  obtain rfl | ⟨ds, rfl, hds⟩ := h.fraction
  · have hpoint : ((x ++ rest).take 1).filter (· == '.') = [] := by
      cases hmore : x ++ rest with
      | nil => rfl
      | cons c more =>
        have hc := (hx c (by rw [hmore]; rfl)).2.1
        simp [hc]
    rw [List.nil_append, mantissaChars, hdigits w h.whole.digit,
      dropWhile_append_ends h.whole.digit fun c hc => (hx c hc).1]
    simp only [hpoint, List.length_nil, List.drop_zero]
    rw [takeWhile_eq_nil fun c hc => (hx c hc).1, List.append_nil]
  · have hpoint : ∀ c ∈ (('.' :: ds) ++ (x ++ rest)).head?, c.isDigit = false :=
      fun c hc => (fraction_head h hrest c hc).1
    rw [mantissaChars, takeWhile_append_ends h.whole.digit hpoint,
      dropWhile_append_ends h.whole.digit hpoint]
    simp [hdigits ds hds]

theorem exponentChars_numeral {w p x rest : List Char} (h : Decimal.Numeral w p x)
    (hrest : Ends rest) : exponentChars (x ++ rest) = x := by
  obtain rfl | ⟨sign, ds, rfl, hsign, hds⟩ := h.exponent
  · cases rest with
    | nil => rfl
    | cons c rest =>
      have hclass := hrest.head_not (p := fun c => c == 'e' || c == 'E') (by decide) c rfl
      simp only [Bool.or_eq_false_iff, beq_eq_false_iff_ne] at hclass
      simp [exponentChars, hclass.1, hclass.2]
  · have hdigits : (ds ++ rest).takeWhile Char.isDigit = ds :=
      takeWhile_append_ends hds.digit (hrest.head_not (by decide))
    obtain ⟨d, ds, rfl⟩ := List.exists_cons_of_ne_nil hds.nonempty
    have hdigit := hds.digit d List.mem_cons_self
    have hd : d ≠ '+' ∧ d ≠ '-' :=
      ⟨Decimal.ne_of_isDigit hdigit rfl, Decimal.ne_of_isDigit hdigit rfl⟩
    rw [List.cons_append] at hdigits
    obtain rfl | rfl | rfl := hsign
    · simp [exponentChars, hd.1, hd.2, hdigits]
    · simp [exponentChars, hdigits]
    · simp [exponentChars, hdigits]

theorem isWordStart_of_isDigit {c : Char} (h : c.isDigit = true) : isWordStart c = false := by
  have hrange : c.val.toNat ≤ 57 := by
    simp only [Char.isDigit, Bool.and_eq_true, decide_eq_true_eq] at h
    exact h.2
  have hupper : c.isUpper = false := by
    refine decide_eq_false fun hc => ?_
    have hle : 65 ≤ c.val.toNat := hc.1
    omega
  have hlower : c.isLower = false := by
    refine Bool.and_eq_false_imp.mpr fun hc => decide_eq_false fun _ => ?_
    have hle : 97 ≤ c.val.toNat := of_decide_eq_true hc
    omega
  have hne : (c == '_') = false := beq_eq_false_iff_ne.mpr (Decimal.ne_of_isDigit h rfl)
  change (c.isUpper || c.isLower || c == '_') = false
  rw [hupper, hlower, hne]
  rfl

theorem lexeme_digit {c : Char} (hc : c.isDigit = true) (cs : List Char) :
    lexeme c cs = some (numberLexeme (c :: cs)) := by
  have hstart := isWordStart_of_isDigit hc
  have hquote : ∀ q : Char, q.isDigit = false → c ≠ q := fun _ => Decimal.ne_of_isDigit hc
  have hkind : announcedKind c = none := by
    cases hk : announcedKind c with
    | none => rfl
    | some kind =>
      rw [(announcedKind_letter hk).1] at hstart
      cases hstart
  simp [lexeme, hkind, hstart, hc, hquote '\'' rfl, hquote '"' rfl, hquote '`' rfl]

theorem spells_number {w p x : List Char} (h : Decimal.Numeral w p x) :
    Spells (w ++ (p ++ x)) [.number (String.ofList (w ++ (p ++ x))) false] := by
  obtain ⟨c, cs, hcs, hc⟩ := h.head_isDigit
  rw [hcs]
  refine spells_of_lexeme rfl fun rest hrest => ?_
  have htext : c :: (cs ++ rest) = w ++ (p ++ (x ++ rest)) := by
    rw [← List.cons_append, ← hcs, List.append_assoc, List.append_assoc]
  have hmantissa := mantissaChars_numeral h hrest
  rw [← htext] at hmantissa
  have hchars : numberChars (c :: (cs ++ rest)) = c :: cs := by
    rw [numberChars, hmantissa, htext, ← List.append_assoc, List.drop_left,
      exponentChars_numeral h hrest, List.append_assoc, hcs]
  -- A leading zero does not begin a hexadecimal number: no `x` stands behind it.
  have hx : ∀ more, (c :: (cs ++ rest)).takeWhile Char.isDigit = ['0'] →
      (c :: (cs ++ rest)).dropWhile Char.isDigit ≠ 'x' :: more := by
    intro more _ hhex
    have hfraction := fraction_head h hrest
    rw [htext, dropWhile_append_ends h.whole.digit fun c hc => (hfraction c hc).1] at hhex
    exact (hfraction 'x' (by rw [hhex]; rfl)).2 rfl
  have hlong : (rest.head? == some 'L') = false := by
    cases rest with
    | nil => rfl
    | cons d rest => simpa using hrest.head_not (p := (· == 'L')) (by decide) d rfl
  have hpoint : mantissaChars (c :: (cs ++ rest)) ≠ ['.'] := by
    rw [hmantissa]
    obtain ⟨d, w, rfl⟩ := List.exists_cons_of_ne_nil h.whole.nonempty
    intro hdot
    have hd := h.whole.digit d List.mem_cons_self
    exact Decimal.ne_of_isDigit hd rfl (List.cons.inj hdot).1
  rw [lexeme_digit hc, numberLexeme_eq hx, if_neg hpoint, hchars]
  simp [hlong]

/-- A minus sign that neither begins an arrow nor a comment. -/
theorem symbolLexeme_minus {c : Char} (hc : c ≠ '>') (cs : List Char) :
    symbolLexeme '-' (c :: cs) = ⟨.symbol "-", 0⟩ := by
  -- The longer symbols that begin with a minus sign are arrows.
  have hsymbols : ∀ s ∈ longSymbols, s.toList ≠ [] ∧
      (s.toList.head? ≠ some '-' ∨ s.toList[1]? = some '>') := by decide
  have hnone : longSymbols.find? (fun s => s.toList.isPrefixOf ('-' :: c :: cs)) = none := by
    rw [List.find?_eq_none]
    intro s hs hbegins
    obtain ⟨hne, harrow⟩ := hsymbols s hs
    obtain ⟨more, hmore⟩ := List.isPrefixOf_iff_prefix.mp hbegins
    obtain ⟨a, as, has⟩ := List.exists_cons_of_ne_nil hne
    rw [has] at harrow hmore
    obtain ⟨rfl, htail⟩ := List.cons.inj hmore
    obtain hhead | hsecond := harrow
    · exact hhead rfl
    · cases as with
      | nil => cases hsecond
      | cons b as =>
        obtain rfl := (List.cons.inj htail).1
        exact hc (Option.some.inj hsecond)
  rw [symbolLexeme, hnone]

theorem spells_minus {c : Char} {cs : List Char} {ts : List Token} (hc : c.isDigit = true)
    (h : Spells (c :: cs) ts) : Spells ('-' :: c :: cs) (.symbol "-" :: ts) := by
  refine h.cons [] (.symbol "-") fun rest _ => ?_
  have hdash : c ≠ '-' := Decimal.ne_of_isDigit hc rfl
  have harrow : c ≠ '>' := Decimal.ne_of_isDigit hc rfl
  simp [lexeme, announcedKind, isWordStart, hdash, symbolLexeme_minus harrow, Text.isBlank]

end Enclave.Sql
