import Enclave.Proofs.Json.Passage
import Enclave.Proofs.Json.Spelling
import Enclave.Proofs.Outcome

/-!
# Inside and outside of strings

Quotes part a JSON text into its strings and what stands between them. `Place` follows them from
character to character and knows nothing else of the text. The texts of a value begin and end
outside of strings, and what they have outside of strings is bare: punctuation, blanks, numbers and
three words, with no underscore among them and no backslash (`spans_spelt`).

A reader that takes up such a text in the middle of a string has the two mixed up. What it takes for
a string is bare (`readString_bare`), so it never finds an underscore in one.
-/

namespace Enclave.Json

/-! ## Places -/

/-- A place in a text: outside of its strings, inside one of them, or inside behind a backslash. -/
inductive Place where
  | outside
  | inside
  | escaped
  deriving Repr, DecidableEq

namespace Place

/-- The place behind a character. -/
def next : Place → Char → Place
  | outside, c => if c = '"' then inside else outside
  | inside, c => if c = '"' then outside else if c = '\\' then escaped else inside
  | escaped, _ => inside

/-- The place behind some characters. -/
def after (p : Place) (cs : List Char) : Place := cs.foldl next p

/-- No character outside of strings is an underscore or a backslash. -/
def Bare : Place → List Char → Prop
  | _, [] => True
  | p, c :: cs => (p = outside → c ≠ '_' ∧ c ≠ '\\') ∧ Bare (p.next c) cs

variable {p : Place} {as bs cs : List Char}

theorem after_append (p : Place) (as bs : List Char) :
    p.after (as ++ bs) = (p.after as).after bs := List.foldl_append

theorem bare_append : p.Bare (as ++ bs) ↔ p.Bare as ∧ (p.after as).Bare bs := by
  induction as generalizing p with
  | nil => simp [Bare, after]
  | cons c as ih => simp only [List.cons_append, Bare, ih, and_assoc, after, List.foldl_cons]

/-- Outside of strings, only a quote leads elsewhere. -/
theorem after_outside (h : ∀ c ∈ cs, c ≠ '"') : outside.after cs = outside := by
  induction cs with
  | nil => rfl
  | cons c cs ih =>
    obtain ⟨hc, hcs⟩ := List.forall_mem_cons.mp h
    rw [after, List.foldl_cons, next, if_neg hc]
    exact ih hcs

/-- Inside of a string, only a quote or a backslash does. -/
theorem after_inside (h : ∀ c ∈ cs, c ≠ '"' ∧ c ≠ '\\') : inside.after cs = inside := by
  induction cs with
  | nil => rfl
  | cons c cs ih =>
    obtain ⟨⟨hquote, hback⟩, hcs⟩ := List.forall_mem_cons.mp h
    rw [after, List.foldl_cons, next, if_neg hquote, if_neg hback]
    exact ih hcs

theorem bare_inside (h : ∀ c ∈ cs, c ≠ '"' ∧ c ≠ '\\') : inside.Bare cs := by
  induction cs with
  | nil => trivial
  | cons c cs ih =>
    obtain ⟨⟨hquote, hback⟩, hcs⟩ := List.forall_mem_cons.mp h
    rw [Bare, next, if_neg hquote, if_neg hback]
    exact ⟨nofun, ih hcs⟩

/-- What is bare and has no quote has neither of the two characters. -/
theorem Bare.ne_of_outside (h : outside.Bare cs) (hquote : ∀ c ∈ cs, c ≠ '"') :
    ∀ c ∈ cs, c ≠ '_' ∧ c ≠ '\\' := by
  induction cs with
  | nil => nofun
  | cons c cs ih =>
    obtain ⟨hc, hcs⟩ := List.forall_mem_cons.mp hquote
    rw [Bare, next, if_neg hc] at h
    exact List.forall_mem_cons.mpr ⟨h.1 rfl, ih h.2 hcs⟩

end Place

/-- A text that leads from one place to another, bare outside of its strings, and with an underscore
only if `P`. -/
structure Spans (p q : Place) (P : Prop) (cs : List Char) : Prop where
  bare : p.Bare cs
  after : p.after cs = q
  underscore : '_' ∈ cs → P

section Spans

variable {p q r : Place} {P Q : Prop} {as bs cs : List Char}

theorem Spans.append (has : Spans p q P as) (hbs : Spans q r P bs) : Spans p r P (as ++ bs) where
  bare := Place.bare_append.mpr ⟨has.bare, has.after ▸ hbs.bare⟩
  after := by rw [Place.after_append, has.after, hbs.after]
  underscore h := (List.mem_append.mp h).elim has.underscore hbs.underscore

theorem Spans.imp (h : Spans p q P cs) (himp : P → Q) : Spans p q Q cs :=
  ⟨h.bare, h.after, himp ∘ h.underscore⟩

/-- Characters that neither are one of the two nor a quote stay outside of strings. -/
theorem spans_outside (h : ∀ c ∈ cs, c ≠ '"' ∧ c ≠ '\\' ∧ c ≠ '_') :
    Spans .outside .outside P cs := by
  have hquote : ∀ c ∈ cs, c ≠ '"' := fun c hc => (h c hc).1
  refine ⟨?_, Place.after_outside hquote, fun hmem => absurd rfl (h '_' hmem).2.2⟩
  induction cs with
  | nil => trivial
  | cons c cs ih =>
    obtain ⟨hc, hcs⟩ := List.forall_mem_cons.mp h
    rw [Place.Bare, Place.next, if_neg hc.1]
    exact ⟨fun _ => ⟨hc.2.2, hc.2.1⟩, ih hcs fun c hc => (hcs c hc).1⟩

theorem spans_inside (h : ∀ c ∈ cs, c ≠ '"' ∧ c ≠ '\\') (hmem : '_' ∈ cs → P) :
    Spans .inside .inside P cs :=
  ⟨Place.bare_inside h, Place.after_inside h, hmem⟩

theorem spans_blank (h : ∀ c ∈ bs, isJsonBlank c = true) : Spans .outside .outside P bs := by
  refine spans_outside fun c hc => ?_
  have hblank := h c hc
  refine ⟨?_, ?_, ?_⟩ <;> rintro rfl <;> cases hblank

theorem spans_cons {c : Char} (hc : c ≠ '"' ∧ c ≠ '\\' ∧ c ≠ '_')
    (hcs : Spans .outside .outside P cs) : Spans .outside .outside P (c :: cs) :=
  (spans_outside (List.forall_mem_singleton.mpr hc)).append hcs

end Spans

/-! ## The texts of a value -/

/-- An underscore occurs in a value. -/
def Value.Underscored (v : Value) : Prop := ∃ t, v.Mentions t ∧ '_' ∈ t.toList

theorem HexDigits.notMem {digits n : Nat} {ds : List Char} (h : HexDigits digits n ds) {c : Char}
    (hc : hexValue? c = none) : c ∉ ds := by
  obtain ⟨-, values, hdigits, -⟩ := h
  clear * - hdigits hc
  induction hdigits with
  | nil => nofun
  | cons hd _ ih =>
    rintro (_ | ⟨_, hmem⟩)
    · rw [hexValue?_of_lower hd.1 hd.2] at hc
      cases hc
    · exact ih hmem

theorem ne_of_isPlain {c : Char} (h : isPlain c = true) : c ≠ '"' ∧ c ≠ '\\' := by
  simp only [isPlain, Bool.and_eq_true, bne_iff_ne] at h
  exact h.1

/-- A character of a string stays inside of it, and has an underscore only if it is one. -/
theorem CharText.spans {pairs : Bool} {c : Char} {cs : List Char} (h : CharText pairs c cs) :
    Spans .inside .inside (c = '_') cs := by
  have hhex : ∀ {digits n ds}, HexDigits digits n ds → Spans .inside .inside (c = '_') ds := by
    intro digits n ds hds
    refine spans_inside (fun d hd => ⟨?_, ?_⟩) fun hmem => absurd hmem (hds.notMem rfl)
    · rintro rfl
      exact hds.notMem rfl hd
    · rintro rfl
      exact hds.notMem rfl hd
  have hunit : Spans .inside .inside (c = '_') ['\\', 'u'] :=
    ⟨⟨nofun, nofun, trivial⟩, rfl, by simp⟩
  cases h with
  | plain h =>
    exact spans_inside (List.forall_mem_singleton.mpr (ne_of_isPlain h)) (by simp [eq_comm])
  | unit hds => exact hunit.append (hhex hds)
  | pair _ _ _ hs ls _ => exact hunit.append ((hhex hs).append (hunit.append (hhex ls)))
  | _ => exact ⟨⟨nofun, nofun, trivial⟩, rfl, by simp⟩

theorem spans_pieces {pairs : Bool} {s : List Char} {pieces : List (List Char)}
    (h : List.Forall₂ (CharText pairs) s pieces) :
    Spans .inside .inside ('_' ∈ s) pieces.flatten := by
  induction h with
  | nil => exact ⟨trivial, rfl, nofun⟩
  | @cons c piece s pieces hc _ ih =>
    have hfirst : Spans .inside .inside ('_' ∈ c :: s) piece := hc.spans.imp <| by
      rintro rfl
      exact List.mem_cons_self
    exact hfirst.append (ih.imp (List.mem_cons_of_mem _))

theorem StringText.spans {pairs : Bool} {s : String} {cs : List Char}
    (h : StringText pairs (.str s) cs) : Spans .outside .outside ('_' ∈ s.toList) cs := by
  obtain ⟨pieces, hpieces, rfl⟩ := h
  have hopen : Spans .outside .inside ('_' ∈ s.toList) ['"'] :=
    ⟨⟨fun _ => by decide, trivial⟩, rfl, by simp⟩
  have hclose : Spans .inside .outside ('_' ∈ s.toList) ['"'] := ⟨⟨nofun, trivial⟩, rfl, by simp⟩
  exact hopen.append ((spans_pieces hpieces).append hclose)

theorem ReadsNumber.spans {cs : List Char} {n : Numeral} (h : ReadsNumber cs n) (P : Prop) :
    Spans .outside .outside P cs := by
  have hnumber : ∀ {c}, isNumberChar c = true → c ≠ '"' ∧ c ≠ '\\' ∧ c ≠ '_' := fun h =>
    ⟨ne_of_isNumberChar h rfl, ne_of_isNumberChar h rfl, ne_of_isNumberChar h rfl⟩
  cases h with
  | negative h =>
    obtain ⟨_, _, _, rfl, hshape⟩ := readNumber_shape h
    rw [List.append_nil]
    exact spans_cons (by decide) (spans_outside fun c hc => hnumber (hshape.isNumberChar c hc))
  | positive hdigit h =>
    obtain ⟨_, _, _, hcs, hshape⟩ := readNumber_shape h
    rw [hcs, List.append_nil]
    exact spans_outside fun c hc => hnumber (hshape.isNumberChar c hc)

theorem ScalarText.spans {v : Value} {cs : List Char} (h : ScalarText v cs) :
    Spans .outside .outside v.Underscored cs := by
  cases h with
  | null => exact spans_outside (by simp)
  | true => exact spans_outside (by simp)
  | false => exact spans_outside (by simp)
  | number h =>
    cases h with
    | int h => exact h.spans _
    | float h => exact h.spans _
  | string h =>
    cases h with
    | str h => exact (StringText.str h).spans.imp fun hmem => ⟨_, .str, hmem⟩

theorem spans_listed {α : Type} {close : Char} (hclose : close ≠ '"' ∧ close ≠ '\\' ∧ close ≠ '_')
    {P : Prop} {as : List α} {cs : List Char}
    (h : dialect.Listed close (fun _ => Spans .outside .outside P) as cs) :
    Spans .outside .outside P cs := by
  have hend : Spans .outside .outside P [close] :=
    spans_outside (List.forall_mem_singleton.mpr hclose)
  induction h with
  | nil hbs => exact (spans_blank hbs).append hend
  | last hbs ha hbs' => exact (spans_blank hbs).append (ha.append ((spans_blank hbs').append hend))
  | cons hbs ha hbs' _ _ ih =>
    have hmore := (spans_blank hbs').append (spans_cons (c := ',') (by decide) ih)
    exact (spans_blank hbs).append (ha.append hmore)

/-- **The texts of a value begin and end outside of strings.** Outside of strings they are bare, and
they have an underscore only if one occurs in the value. -/
theorem spans_spelt {v : Value} {cs : List Char} (h : dialect.Spelt v cs) :
    Spans .outside .outside v.Underscored cs := by
  induction v using Value.induction generalizing cs with
  | leaf v hleaf =>
    cases h with
    | scalar h => exact ScalarText.spans h
    | _ => cases hleaf
  | arr vs ih =>
    cases h with
    | scalar h => cases dialect.nesting_of_scalar h
    | tuple htuples => cases htuples
    | list h =>
      refine spans_cons (by decide) (spans_listed (by decide) (h.imp fun v hv _ hcs => ?_))
      exact (ih v hv hcs).imp fun ⟨t, ht, hmem⟩ => ⟨t, .item hv ht, hmem⟩
  | obj kvs ih =>
    cases h with
    | scalar h => cases dialect.nesting_of_scalar h
    | mapping h =>
      refine spans_cons (by decide) (spans_listed (by decide) (h.imp fun kv hkv _ hcs => ?_))
      obtain @⟨k, v, ks, bs, bs', cs, hk, hbs, hbs', hv⟩ := hcs
      have hname := (ScalarText.stringText hk).spans.imp fun hmem =>
        (⟨k, .name hkv, hmem⟩ : (Value.obj kvs).Underscored)
      have hvalue := (ih _ hkv hv).imp fun ⟨t, ht, hmem⟩ =>
        (⟨t, .member hkv ht, hmem⟩ : (Value.obj kvs).Underscored)
      exact hname.append ((spans_blank hbs).append (spans_cons (by decide)
        ((spans_blank hbs').append hvalue)))

/-! ## The reader of strings -/

section Reader

variable {fuel : Nat} {cs rest : List Char}

theorem readHex4_inside {n : Nat} (h : readHex4 cs = .ok (n, rest)) :
    Place.inside.after cs = Place.inside.after rest := by
  have hplain : ∀ {d v}, hexValue? d = some v → d ≠ '"' ∧ d ≠ '\\' := by
    rintro d v hd
    constructor <;> rintro rfl <;> cases hd
  unfold readHex4 at h
  split at h
  · rename_i a b c d r
    split at h
    · rename_i ha hb hc hd
      cases h
      have hdigits : ∀ e ∈ [a, b, c, d], e ≠ '"' ∧ e ≠ '\\' := by
        simp [hplain ha, hplain hb, hplain hc, hplain hd]
      change Place.inside.after ([a, b, c, d] ++ rest) = _
      rw [Place.after_append, Place.after_inside hdigits]
    · cases h
  · cases h

theorem readUnicode_inside {e : Escaped} (h : readUnicode cs = .ok (e, rest)) :
    Place.inside.after cs = Place.inside.after rest := by
  unfold readUnicode at h
  obtain ⟨⟨n, rest₁⟩, hfirst, h⟩ := bind_eq_ok.mp h
  rw [readHex4_inside hfirst]
  simp only at h
  split at h
  · cases h
    rfl
  split at h
  · split at h
    · rename_i rest₂
      obtain ⟨⟨m, rest₃⟩, hsecond, h⟩ := bind_eq_ok.mp h
      change Place.inside.after rest₂ = _
      rw [readHex4_inside hsecond]
      simp only at h
      split at h <;> cases h <;> rfl
    · cases h
      rfl
  · cases h
    rfl

theorem readEscape_escaped {e : Escaped} (h : readEscape cs = .ok (e, rest)) :
    Place.escaped.after cs = Place.inside.after rest := by
  unfold readEscape at h
  split at h
  case h_10 => exact readUnicode_inside h
  case h_1 => cases h
  case h_11 => cases h
  all_goals
    cases h
    rfl

/-- A string ends at the quote that leads out of it. -/
theorem readString_inside {t : StringToken} (h : readString fuel cs = .ok t) :
    Place.inside.after cs = Place.outside.after t.rest := by
  induction fuel generalizing cs t with
  | zero => cases h
  | succ fuel ih =>
    have hrun : ∀ c ∈ cs.takeWhile isPlain, c ≠ '"' ∧ c ≠ '\\' := fun c hc =>
      ne_of_isPlain (List.mem_takeWhile_imp hc)
    rw [← List.takeWhile_append_dropWhile (p := isPlain) (l := cs), Place.after_append,
      Place.after_inside hrun]
    unfold readString at h
    simp only at h
    split at h
    · cases h
    rename_i c rest hrest
    rw [hrest]
    split at h
    · rename_i hc
      subst hc
      cases h
      rfl
    split at h
    · rename_i hc
      subst hc
      split at h
      · cases h
      rename_i e rest' hescape
      split at h
      · cases h
      rename_i t' hstring
      have hbehind := (readEscape_escaped hescape).trans (ih hstring)
      split at h <;> cases h <;> exact hbehind
    · cases h

/-- What is bare reads as a string without underscores. -/
theorem readString_bare {t : StringToken} (hbare : Place.outside.Bare cs)
    (h : readString fuel cs = .ok t) : '_' ∉ t.chars ∧ Place.inside.Bare t.rest := by
  cases fuel with
  | zero => cases h
  | succ fuel =>
    have hrun : ∀ c ∈ cs.takeWhile isPlain, c ≠ '"' := fun c hc =>
      (ne_of_isPlain (List.mem_takeWhile_imp hc)).1
    rw [← List.takeWhile_append_dropWhile (p := isPlain) (l := cs), Place.bare_append,
      Place.after_outside hrun] at hbare
    have hmem := Place.Bare.ne_of_outside hbare.1 hrun
    unfold readString at h
    simp only at h
    split at h
    · cases h
    rename_i c rest hrest
    rw [hrest] at hbare
    split at h
    · rename_i hc
      subst hc
      cases h
      exact ⟨fun hunder => (hmem '_' hunder).1 rfl, hbare.2.2⟩
    split at h
    · rename_i hc
      exact absurd hc (hbare.2.1 rfl).2
    · cases h

/-- The place at the end of the text does not change while the reader is outside of strings. -/
def placePassage (p : Place) : Passage where
  ahead cs := Place.outside.after cs = p
  string _ := True
  number _ := True
  skip := by
    intro c cs hquote _ h
    rwa [Place.after, List.foldl_cons, Place.next, if_neg hquote] at h
  of_string h hstring := ⟨trivial, (readString_inside hstring).symm.trans h⟩
  of_number _ := trivial

/-- A reader that takes the inside of strings for the outside. -/
def mixedPassage : Passage where
  ahead := Place.inside.Bare
  string s := '_' ∉ s.toList
  number _ := True
  skip := by
    intro c cs hquote hback h
    rw [Place.Bare, Place.next, if_neg hquote, if_neg hback] at h
    exact h.2
  of_string h hstring := by
    rw [String.toList_ofList]
    exact readString_bare h.2 hstring
  of_number _ := trivial

/-- A text that is read to its end ends outside of strings. -/
theorem Doc.read_outside {text : String} {d : Doc} (hread : Doc.read text = (d, none))
    (hfault : d.hardFault = none) : Place.outside.after text.toList = .outside := by
  obtain ⟨-, -, hend⟩ := (placePassage _).read text rfl
  rw [hread] at hend
  obtain ⟨rest, hblank, hplace⟩ := hend hfault rfl
  refine hplace.symm.trans (Place.after_outside fun c hc => ?_)
  rintro rfl
  cases hblank _ hc

/-- A text that begins inside of a string has no text with an underscore to a reader that does not
know. -/
theorem Doc.read_bare {text : String} {d : Doc} (h : Place.inside.Bare text.toList)
    (hread : Doc.read text = (d, none)) : ∀ t, d.Mentions t → '_' ∉ t.toList := by
  have htexts := (mixedPassage.read text h).1
  rwa [hread] at htexts

end Reader

end Enclave.Json
