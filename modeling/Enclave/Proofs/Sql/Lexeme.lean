import Enclave.Sql.Token
import Mathlib.Data.List.TakeWhile

/-!
# The lexemes of a text

`lexemes_cons` reads the tokens of a text from the front: a lexeme, and the lexemes of what is left
behind its characters. `lexeme_shape` says what a lexeme can be. Either it is a quotation, perhaps
with one letter in front, or it begins a comment or a text between dollars, or it is a stretch of
characters none of which is a quote.
-/

namespace Enclave.Sql

/-! ## From the front -/

/-- The lexemes already found stand in front of those of the rest. -/
theorem lexemesBehind_eq (found : List Lexeme) (cs : List Char) :
    lexemesBehind found cs = (lexemes cs).map (found.reverse ++ ·) := by
  induction h : cs.length using Nat.strongRecOn generalizing found cs with
  | _ n ih =>
    cases cs with
    | nil => simp [lexemes, lexemesBehind]
    | cons c rest =>
      rw [lexemes, lexemesBehind, lexemesBehind]
      cases hl : lexeme c rest with
      | none => rfl
      | some l =>
        have hshort : (rest.drop l.extra).length < n := by
          rw [← h, List.length_drop, List.length_cons]
          omega
        simp only
        rw [ih _ hshort (l :: found) _ rfl, ih _ hshort [l] _ rfl, Option.map_map]
        simp [Function.comp_def]

@[simp]
theorem lexemes_nil : lexemes [] = some [] := by
  simp [lexemes, lexemesBehind]

/-- A text is read lexeme by lexeme. -/
theorem lexemes_cons (c : Char) (rest : List Char) :
    lexemes (c :: rest)
      = (lexeme c rest).bind fun l => (lexemes (rest.drop l.extra)).map (l :: ·) := by
  rw [lexemes, lexemesBehind]
  cases lexeme c rest with
  | none => rfl
  | some l =>
    simp only [Option.bind_some]
    rw [lexemesBehind_eq]
    rfl

/-! ## Stretches without quotes -/

/-- Characters none of which opens or closes a quotation. -/
def Unquoted (s : List Char) : Prop := ∀ a ∈ s, a ≠ '\'' ∧ a ≠ '"'

/-- A lexeme that begins a text is made of its first characters, none of which is a quote. -/
def Lexeme.Covers (l : Lexeme) (text : List Char) : Prop :=
  ∃ s, s <+: text ∧ s.length = l.width ∧ Unquoted s

theorem begins_append {s t cs : List Char} (hs : s <+: cs) (ht : t <+: cs.drop s.length) :
    s ++ t <+: cs := by
  have happend := List.prefix_iff_eq_append.mp hs
  rw [← happend]
  exact List.prefix_append_right_inj s |>.mpr ht

theorem unquoted_nil : Unquoted [] := by
  simp [Unquoted]

theorem Unquoted.append {s t : List Char} (hs : Unquoted s) (ht : Unquoted t) :
    Unquoted (s ++ t) := by
  intro a ha
  rcases List.mem_append.mp ha with ha | ha
  · exact hs a ha
  · exact ht a ha

/-- A character of a class that leaves out the quotes. -/
theorem notQuote_of_class {p : Char → Bool} (h1 : p '\'' = false) (h2 : p '"' = false) {c : Char}
    (hc : p c = true) : c ≠ '\'' ∧ c ≠ '"' := by
  constructor
  · rintro rfl
    rw [h1] at hc
    cases hc
  · rintro rfl
    rw [h2] at hc
    cases hc

theorem unquoted_takeWhile {p : Char → Bool} (h1 : p '\'' = false) (h2 : p '"' = false)
    (cs : List Char) : Unquoted (cs.takeWhile p) :=
  fun _ ha => notQuote_of_class h1 h2 (List.mem_takeWhile_imp ha)

theorem isWordPart_of_isWordStart {c : Char} (h : isWordStart c = true) : isWordPart c = true := by
  simp only [isWordStart, isWordPart, Char.isAlphanum, Bool.or_eq_true] at h ⊢
  rcases h with h | h
  · exact .inl (.inl h)
  · exact .inr h

theorem unquoted_singleton {c : Char} (h1 : c ≠ '\'') (h2 : c ≠ '"') : Unquoted [c] := by
  intro a ha
  obtain rfl := List.mem_singleton.mp ha
  exact ⟨h1, h2⟩

theorem wordLexeme_covers {c : Char} (h1 : c ≠ '\'') (h2 : c ≠ '"') (cs : List Char) :
    (wordLexeme c cs).Covers (c :: cs) := by
  refine ⟨c :: cs.takeWhile isWordPart, ?_, rfl, ?_⟩
  · exact List.cons_prefix_cons.mpr ⟨rfl, List.takeWhile_prefix _⟩
  · exact (unquoted_singleton h1 h2).append (unquoted_takeWhile (by decide) (by decide) cs)

/-- One character of a class at the beginning of a text, if there is one. -/
theorem filter_take_one_begins (p : Char → Bool) (cs : List Char) :
    (cs.take 1).filter p <+: cs := by
  cases cs with
  | nil => exact List.prefix_rfl
  | cons c cs =>
    by_cases h : p c = true
    · simp [h]
    · simp [h]

theorem unquoted_filter {p : Char → Bool} (h1 : p '\'' = false) (h2 : p '"' = false)
    (cs : List Char) : Unquoted (cs.filter p) :=
  fun _ ha => notQuote_of_class h1 h2 (List.mem_filter.mp ha).2

/-- An exponent stands at the beginning of the text that it is read from. -/
theorem exponentChars_begins (cs : List Char) :
    exponentChars cs <+: cs ∧ Unquoted (exponentChars cs) := by
  cases cs with
  | nil => exact ⟨List.prefix_rfl, unquoted_nil⟩
  | cons e rest =>
    simp only [exponentChars]
    split
    · rename_i he
      split
      · exact ⟨List.nil_prefix, unquoted_nil⟩
      · have hletter : e ≠ '\'' ∧ e ≠ '"' :=
          notQuote_of_class (p := fun c => c == 'e' || c == 'E') rfl rfl (by simpa using he)
        refine ⟨List.cons_prefix_cons.mpr ⟨rfl, ?_⟩, ?_⟩
        · exact begins_append (filter_take_one_begins _ rest) (List.takeWhile_prefix _)
        · exact (unquoted_singleton hletter.1 hletter.2).append
            ((unquoted_filter (by decide) (by decide) _).append
              (unquoted_takeWhile (by decide) (by decide) _))
    · exact ⟨List.nil_prefix, unquoted_nil⟩

/-! ## Numbers -/

/-- The digits of a number in front of its exponent, with at most one point. -/
def mantissaChars (cs : List Char) : List Char :=
  let behind := cs.dropWhile Char.isDigit
  let point := (behind.take 1).filter (· == '.')
  cs.takeWhile Char.isDigit ++ point ++ (behind.drop point.length).takeWhile Char.isDigit

/-- The characters of a number. -/
def numberChars (cs : List Char) : List Char :=
  mantissaChars cs ++ exponentChars (cs.drop (mantissaChars cs).length)

theorem drop_takeWhile_length (p : Char → Bool) (cs : List Char) (n : Nat) :
    (cs.dropWhile p).drop n = cs.drop ((cs.takeWhile p).length + n) := by
  have htext : cs.takeWhile p ++ cs.dropWhile p = cs := List.takeWhile_append_dropWhile
  conv => rhs; rw [← htext, List.drop_append, List.drop_of_length_le (by simp [htext]),
    List.nil_append]
  congr 1
  rw [htext]
  omega

theorem mantissaChars_begins (cs : List Char) :
    mantissaChars cs <+: cs ∧ Unquoted (mantissaChars cs) := by
  constructor
  · rw [mantissaChars, List.append_assoc]
    refine begins_append (List.takeWhile_prefix _) ?_
    rw [← Nat.add_zero (List.takeWhile _ _).length, ← drop_takeWhile_length, List.drop_zero]
    exact begins_append (filter_take_one_begins _ _) (List.takeWhile_prefix _)
  · exact ((unquoted_takeWhile (by decide) (by decide) _).append
      (unquoted_filter (by decide) (by decide) _)).append
        (unquoted_takeWhile (by decide) (by decide) _)

theorem numberChars_begins (cs : List Char) :
    numberChars cs <+: cs ∧ Unquoted (numberChars cs) :=
  ⟨begins_append (mantissaChars_begins cs).1 (exponentChars_begins _).1,
    (mantissaChars_begins cs).2.append (exponentChars_begins _).2⟩

/-- Digits behind `0x` are a text of its own kind. -/
theorem numberLexeme_hex {cs rest : List Char} (hw : cs.takeWhile Char.isDigit = ['0'])
    (hb : cs.dropWhile Char.isDigit = 'x' :: rest) :
    numberLexeme cs = ⟨.text .hexadecimal (String.ofList (rest.takeWhile isHexDigit)),
      (rest.takeWhile isHexDigit).length + 1⟩ := by
  simp only [numberLexeme, hw, hb]

/-- Any other number: its characters, and whether the mark of a long one follows. -/
theorem numberLexeme_eq {cs : List Char} (hx : ∀ rest, cs.takeWhile Char.isDigit = ['0'] →
      cs.dropWhile Char.isDigit ≠ 'x' :: rest) :
    numberLexeme cs = if mantissaChars cs = ['.'] then ⟨.symbol ".", 0⟩ else
      ⟨.number (String.ofList (numberChars cs))
          ((cs.drop (numberChars cs).length).head? == some 'L'),
        (numberChars cs).length - 1
          + ((cs.drop (numberChars cs).length).head? == some 'L').toNat⟩ := by
  fun_cases numberLexeme cs with
  | case1 _ _ rest hb hw => exact absurd hb (hx rest hw)
  | case2 _ _ _ _ _ hpoint => exact (if_pos hpoint).symm
  | case3 whole digits point fraction mantissa hpoint behind =>
    have hrest : behind = cs.drop (mantissaChars cs).length := by
      change (cs.dropWhile Char.isDigit).drop (point.length + fraction.length)
        = cs.drop (whole ++ point ++ fraction).length
      rw [drop_takeWhile_length, List.length_append, List.length_append, Nat.add_assoc]
    have hdrop : ∀ e : List Char, behind.drop e.length
        = cs.drop (mantissaChars cs ++ e).length := by
      intro e
      rw [hrest, List.drop_drop, List.length_append]
    have hmantissa : mantissaChars cs ≠ ['.'] := hpoint
    rw [if_neg hmantissa, numberChars, ← hdrop, ← hrest]
    rfl

/-! ## What a lexeme can be -/

/-- Where the quotation of a token that begins a text opens: behind the letter that announces it,
if there is one. -/
def Token.quoteAt? (token : Token) (source : List Char) : Option Nat :=
  match token with
  | .word _ (some _) => some 0
  | .text .plain _ => some 0
  | .text .dollar _ => none
  | .text .hexadecimal _ => if source[1]? = some '\'' then some 1 else none
  | .text _ _ => some 1
  | _ => none

/-- A lexeme whose characters are a quotation, perhaps with a letter in front. -/
structure Lexeme.Quotes (l : Lexeme) (source lead : List Char) (q : Char) (rest : List Char) :
    Prop where
  source_eq : source = lead ++ q :: rest
  lead_le : lead.length ≤ 1
  letters : ∀ a ∈ lead, isWordPart a = true
  quote : q = '\'' ∨ q = '"' ∨ q = '`'
  read : ∃ r, (quotation q [] 0 rest = some r ∨ q = '\'' ∧ escapedQuotation [] 0 rest = some r) ∧
    l.extra = lead.length + r.2
  opens : l.token.quoteAt? source = some lead.length

/-- A lexeme without quotes that is neither a comment nor a text between dollars. -/
structure Lexeme.Bare (l : Lexeme) (c : Char) (cs : List Char) : Prop where
  covers : l.Covers (c :: cs)
  opensNot : l.token.quoteAt? (c :: cs) = none
  noComment : l.token ≠ .comment
  noDollar : ∀ content, l.token ≠ .text .dollar content
  separator : l.token = .symbol ";" → c = ';'

/-- What the first characters of a text say about its first lexeme. -/
inductive Lexeme.Shape (l : Lexeme) (c : Char) (cs : List Char) : Prop where
  | quotes (lead : List Char) (q : Char) (rest : List Char) (h : l.Quotes (c :: cs) lead q rest)
  | dashes (hc : c = '-') (hnext : cs.head? = some '-')
  | slash (hc : c = '/') (hnext : cs.head? = some '*')
  | dollar (hc : c = '$')
  | bare (h : l.Bare c cs)

theorem announcedKind_letter {c : Char} {kind : TextKind} (h : announcedKind c = some kind) :
    isWordStart c = true ∧ kind ≠ .plain ∧ kind ≠ .dollar := by
  unfold announcedKind at h
  split at h <;> cases h <;> decide

/-- A letter, the quote that it announces, and a quotation. -/
theorem quotes_of_announced {c q : Char} {kind : TextKind} {rest : List Char} {l : Lexeme}
    {x : Option (List Char × Nat)} (hk : announcedKind c = some kind)
    (hq : q = '\'' ∨ q = '"' ∧ announcesAnyQuote kind = true)
    (hx : x = quotation q [] 0 rest ∨ q = '\'' ∧ x = escapedQuotation [] 0 rest)
    (h : textLexeme kind 1 x = some l) : l.Quotes (c :: q :: rest) [c] q rest := by
  obtain ⟨hletter, hplain, hdollar⟩ := announcedKind_letter hk
  obtain ⟨r, rfl, rfl⟩ := Option.map_eq_some_iff.mp h
  refine ⟨rfl, Nat.le_refl 1, ?_, ?_, ⟨r, ?_, rfl⟩, ?_⟩
  · simpa using isWordPart_of_isWordStart hletter
  · exact hq.imp_right fun hany => .inl hany.1
  · exact hx.imp Eq.symm fun hx => ⟨hx.1, hx.2.symm⟩
  · cases kind with
    | plain => exact absurd rfl hplain
    | dollar => exact absurd rfl hdollar
    | hexadecimal =>
      obtain rfl : q = '\'' := hq.resolve_right fun hany => absurd hany.2 (by decide)
      rfl
    | national | escaped | bytes | raw => rfl

/-- A quotation with no letter in front. -/
theorem quotes_of_quote {q : Char} {rest : List Char} {l : Lexeme} {r : List Char × Nat}
    (hq : q = '\'' ∨ q = '"' ∨ q = '`') (hr : quotation q [] 0 rest = some r)
    (hextra : l.extra = r.2) (hat : l.token.quoteAt? (q :: rest) = some 0) :
    l.Quotes (q :: rest) [] q rest :=
  ⟨rfl, Nat.zero_le 1, by simp, hq, ⟨r, .inl hr, by simpa using hextra⟩, hat⟩

theorem wordLexeme_bare {c : Char} (h1 : c ≠ '\'') (h2 : c ≠ '"') (cs : List Char) :
    (wordLexeme c cs).Bare c cs :=
  ⟨wordLexeme_covers h1 h2 cs, rfl, nofun, nofun, nofun⟩

/-- A symbol or a blank of one character. -/
theorem bare_single {c : Char} (h1 : c ≠ '\'') (h2 : c ≠ '"') {token : Token} (cs : List Char)
    (ht : token = .blank ∨ token = .symbol (String.ofList [c])) :
    Lexeme.Bare ⟨token, 0⟩ c cs := by
  have hcovers : Lexeme.Covers ⟨token, 0⟩ (c :: cs) :=
    ⟨[c], List.cons_prefix_cons.mpr ⟨rfl, List.nil_prefix⟩, rfl, unquoted_singleton h1 h2⟩
  rcases ht with rfl | rfl
  · exact ⟨hcovers, rfl, nofun, nofun, nofun⟩
  · refine ⟨hcovers, rfl, nofun, nofun, fun h => ?_⟩
    have hsemicolon : String.ofList [c] = String.ofList [';'] := Token.symbol.inj h
    exact List.singleton_inj.mp (String.ofList_injective hsemicolon)

theorem symbolLexeme_bare {c : Char} (h1 : c ≠ '\'') (h2 : c ≠ '"') (cs : List Char) :
    (symbolLexeme c cs).Bare c cs := by
  have hsymbols : ∀ s ∈ longSymbols, s.toList ≠ [] ∧ '\'' ∉ s.toList ∧ '"' ∉ s.toList ∧
      (if s == "!=" then "<>" else s) ≠ ";" := by decide
  unfold symbolLexeme
  split
  · rename_i s hs
    obtain ⟨hne, hsingle, hdouble, hsemicolon⟩ := hsymbols s (List.mem_of_find?_eq_some hs)
    have hpos : 0 < s.toList.length := List.length_pos_iff.mpr hne
    refine ⟨⟨s.toList, ?_, ?_, ?_⟩, rfl, nofun, nofun, fun h => ?_⟩
    · have hbegins := List.find?_some hs
      exact List.isPrefixOf_iff_prefix.mp hbegins
    · simp only [Lexeme.width]
      omega
    · intro a ha
      exact ⟨fun h => hsingle (h ▸ ha), fun h => hdouble (h ▸ ha)⟩
    · exact absurd (Token.symbol.inj h) hsemicolon
  · exact bare_single h1 h2 cs (.inr rfl)

theorem mantissaChars_ne_nil {c : Char} (h : c.isDigit = true ∨ c = '.') (cs : List Char) :
    mantissaChars (c :: cs) ≠ [] := by
  by_cases hd : c.isDigit = true
  · simp [mantissaChars, hd]
  · obtain rfl := h.resolve_left hd
    simp [mantissaChars]

theorem numberLexeme_bare {c : Char} (hc : c.isDigit = true ∨ c = '.') (cs : List Char) :
    (numberLexeme (c :: cs)).Bare c cs := by
  by_cases hx : ∃ rest, (c :: cs).takeWhile Char.isDigit = ['0'] ∧
      (c :: cs).dropWhile Char.isDigit = 'x' :: rest
  · obtain ⟨rest, hw, hb⟩ := hx
    rw [numberLexeme_hex hw hb]
    have hsource := List.takeWhile_append_dropWhile (p := Char.isDigit) (l := c :: cs)
    rw [hw, hb] at hsource
    obtain ⟨rfl, rfl⟩ := List.cons.inj hsource
    refine ⟨⟨'0' :: 'x' :: rest.takeWhile isHexDigit, ?_, rfl, ?_⟩, rfl, nofun, nofun, nofun⟩
    · exact (List.prefix_append_right_inj ['0', 'x']).mpr (List.takeWhile_prefix _)
    · exact (unquoted_singleton (by decide) (by decide)).append
        ((unquoted_singleton (by decide) (by decide)).append
          (unquoted_takeWhile (by decide) (by decide) _))
  · rw [numberLexeme_eq fun rest hw hb => hx ⟨rest, hw, hb⟩]
    have hpos : 0 < (numberChars (c :: cs)).length := by
      have hmantissa := List.length_pos_iff.mpr (mantissaChars_ne_nil hc cs)
      rw [numberChars, List.length_append]
      omega
    obtain ⟨hbegins, hunquoted⟩ := numberChars_begins (c :: cs)
    split
    · rename_i hpoint
      have hdot : c = '.' := by
        have hmantissa := (mantissaChars_begins (c :: cs)).1
        rw [hpoint] at hmantissa
        exact (List.cons_prefix_cons.mp hmantissa).1.symm
      subst hdot
      exact bare_single (by decide) (by decide) cs (.inr rfl)
    · cases hlong : ((c :: cs).drop (numberChars (c :: cs)).length).head? == some 'L' with
      | false =>
        refine ⟨⟨numberChars (c :: cs), hbegins, ?_, hunquoted⟩, rfl, nofun, nofun, nofun⟩
        simp only [Lexeme.width, Bool.toNat_false]
        omega
      | true =>
        obtain ⟨rest, hrest⟩ := List.head?_eq_some_iff.mp (eq_of_beq hlong)
        refine ⟨⟨numberChars (c :: cs) ++ ['L'], ?_, ?_, ?_⟩, rfl, nofun, nofun, nofun⟩
        · refine begins_append hbegins ?_
          rw [hrest]
          exact List.cons_prefix_cons.mpr ⟨rfl, List.nil_prefix⟩
        · simp only [Lexeme.width, Bool.toNat_true, List.length_append, List.length_singleton]
          omega
        · exact hunquoted.append (unquoted_singleton (by decide) (by decide))

/-- **What a lexeme can be**: a quotation, perhaps with a letter in front; something that begins
like a comment or with a dollar; or a stretch without quotes. -/
theorem lexeme_shape {c : Char} {cs : List Char} {l : Lexeme} (h : lexeme c cs = some l) :
    l.Shape c cs := by
  have hword : ∀ cs, isWordStart c = true → (wordLexeme c cs).Bare c cs := by
    intro cs hstart
    obtain ⟨hsingle, hdouble⟩ := notQuote_of_class (by decide) (by decide) hstart
    exact wordLexeme_bare hsingle hdouble cs
  revert h
  fun_cases lexeme c cs <;> intro h
  case case1 rest hk =>
    exact .quotes _ _ _ (quotes_of_announced hk (.inl rfl) (.inr ⟨rfl, rfl⟩) h)
  case case2 rest _ hk =>
    exact .quotes _ _ _ (quotes_of_announced hk (.inl rfl) (.inl rfl) h)
  case case3 rest hk hany =>
    exact .quotes _ _ _ (quotes_of_announced hk (.inr ⟨rfl, hany⟩) (.inl rfl) h)
  case case4 rest hk hany =>
    cases h
    exact .bare (hword _ (announcedKind_letter hk).1)
  case case5 hstart _ _ _ =>
    cases h
    exact .bare (hword cs hstart)
  case case6 hq _ _ _ =>
    subst hq
    obtain ⟨r, hr, rfl⟩ := Option.map_eq_some_iff.mp h
    exact .quotes _ _ _ (quotes_of_quote (.inl rfl) hr (Nat.zero_add _) rfl)
  case case7 hdouble _ _ _ =>
    obtain ⟨r, hr, rfl⟩ := Option.map_eq_some_iff.mp h
    refine .quotes _ _ _ (quotes_of_quote (.inr ?_) hr rfl rfl)
    simpa using hdouble
  case case8 hnumber _ _ _ =>
    cases h
    refine .bare (numberLexeme_bare ?_ cs)
    simpa using hnumber
  case case9 hcomment _ _ _ =>
    simp only [Bool.and_eq_true, decide_eq_true_eq, beq_iff_eq] at hcomment
    exact .dashes hcomment.1 hcomment.2
  case case10 hcomment _ _ _ =>
    simp only [Bool.and_eq_true, decide_eq_true_eq, beq_iff_eq] at hcomment
    exact .slash hcomment.1 hcomment.2
  case case11 hdollar _ _ _ _ _ =>
    exact .dollar hdollar
  case case12 hsingle hdouble _ hdollar hblank hdash hslash _ _ _ =>
    rw [if_neg hdash, if_neg hslash, if_neg hdollar, if_pos hblank] at h
    cases h
    exact .bare (bare_single hsingle (fun hc => hdouble (by simp [hc])) cs (.inl rfl))
  case case13 hsingle hdouble _ hdollar hblank hdash hslash _ _ _ =>
    rw [if_neg hdash, if_neg hslash, if_neg hdollar, if_neg hblank] at h
    cases h
    exact .bare (symbolLexeme_bare hsingle (fun hc => hdouble (by simp [hc])) cs)

end Enclave.Sql
