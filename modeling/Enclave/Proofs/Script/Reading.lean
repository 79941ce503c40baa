import Enclave.Proofs.Decimal.Reading
import Enclave.Proofs.Json.Canonical
import Enclave.Proofs.Json.Dialect
import Enclave.Proofs.Script.Literal
import Enclave.Proofs.Text.Blank

/-!
# Reading the texts of a value

What the reader of literals makes of a text is known from its scalars alone: `value_spelt` says
that, in every dialect whose scalars it reads (`Understands`), it finds the value where the
containers are nested no deeper than it goes, and else finds them nested too deep. So the counter
of containers is back where it was behind each of them, whatever the mix.

Nothing is asked of the text behind a value but that it does not continue a number or a name
(`EndsValue`).
-/

namespace Enclave.Script.Literal

open Json (Value Dialect)

/-! ## Behind a value -/

/-- A text that can continue neither a number nor a name. -/
def EndsValue (rest : List Char) : Prop :=
  ∀ c ∈ rest.head?, (c.isAlphanum || c == '.' || c == '_' || c == '+' || c == '-') = false

theorem endsValue_nil : EndsValue [] := nofun

/-- What stands behind a value or a key. -/
theorem endsValue_cons {c : Char} (hc : c ∈ [',', ':', ']', ')', '}']) (rest : List Char) :
    EndsValue (c :: rest) := by
  rintro _ ⟨⟩
  simp only [List.mem_cons, List.not_mem_nil, or_false] at hc
  rcases hc with rfl | rfl | rfl | rfl | rfl <;> rfl

/-- Blanks continue neither. -/
theorem EndsValue.blank {bs rest : List Char} (hbs : ∀ c ∈ bs, Text.isBlank c = true)
    (hrest : EndsValue rest) : EndsValue (bs ++ rest) := by
  cases bs with
  | nil => exact hrest
  | cons b bs =>
    rintro _ ⟨⟩
    have hb := hbs b List.mem_cons_self
    have hne := fun d hd => beq_eq_false_iff_ne.mpr (Text.ne_of_isBlank (d := d) hb hd)
    simp [Text.isAlphanum_of_isBlank hb, hne '.' (by decide), hne '_' (by decide),
      hne '+' (by decide), hne '-' (by decide)]

/-! ## Numbers -/

/-- What belongs to a number wherever it stands is taken into it. -/
theorem numeral_run {cs : List Char}
    (hcs : ∀ c ∈ cs, c.isAlphanum = true ∨ c = '.' ∨ c = '_') (found rest : List Char) :
    numeral found (cs ++ rest) = numeral (cs.reverse ++ found) rest := by
  induction cs generalizing found with
  | nil => rfl
  | cons c cs ih =>
    obtain ⟨hc, hcs⟩ := List.forall_mem_cons.mp hcs
    have htaken : (c.isAlphanum || c == '.' || c == '_') = true := by simpa [or_assoc] using hc
    have hsign : (c == '+' || c == '-') = false := by
      rw [Bool.or_eq_false_iff, beq_eq_false_iff_ne, beq_eq_false_iff_ne]
      constructor
      · rintro rfl
        revert htaken
        decide
      · rintro rfl
        revert htaken
        decide
    rw [List.cons_append, numeral]
    simp only [htaken, hsign, Bool.true_or, Bool.false_and, Bool.not_false, Bool.and_true, if_true]
    rw [ih hcs]
    simp

/-- Behind the letter of an exponent, so is a sign. -/
theorem numeral_sign {found : List Char} (hfound : found.head? = some 'e' ∨ found.head? = some 'E')
    {c : Char} (hc : c = '+' ∨ c = '-') (rest : List Char) :
    numeral found (c :: rest) = numeral (c :: found) rest := by
  have hsign : (c == '+' || c == '-') = true := by simpa using hc
  have hletter : (found.head? == some 'e' || found.head? == some 'E') = true := by
    simpa using hfound
  rw [numeral]
  simp [hsign, hletter]

/-- A number ends where the text cannot continue it. -/
theorem numeral_end {rest : List Char} (hrest : EndsValue rest) (found : List Char) :
    numeral found rest = (found.reverse, rest) := by
  cases rest with
  | nil => rfl
  | cons c rest =>
    have hc := hrest c rfl
    simp only [Bool.or_eq_false_iff] at hc
    obtain ⟨⟨⟨⟨halnum, hpoint⟩, hunder⟩, hplus⟩, hminus⟩ := hc
    simp [numeral, halnum, hpoint, hunder, hplus, hminus]

/-- A number without underscores is what its numeral says, behind a minus sign or without one. -/
theorem number_of_numeral {negative : Bool} {body rest : List Char} {v : Value}
    (hbody : negative = true ∨ ∃ c ∈ body.head?, c.isDigit = true)
    (hnumeral : numeral (if negative then ['-'] else []) (body ++ rest) =
      ((if negative then ['-'] else []) ++ body, rest))
    (hplain : ∀ c ∈ body, c ≠ '_')
    (hvalue : numeralValue? ((if negative then ['-'] else []) ++ body) = some v) :
    number ((if negative then ['-'] else []) ++ (body ++ rest)) = .ok (v, rest) := by
  have hfilter : ∀ sign : List Char, (∀ c ∈ sign, c ≠ '_') →
      (sign ++ body).filter (· != '_') = sign ++ body := fun sign hsign =>
    List.filter_eq_self.mpr fun c hc => by
      simpa using (List.mem_append.mp hc).elim (hsign c) (hplain c)
  cases negative with
  | true =>
    simp only [if_true, List.singleton_append] at hnumeral hvalue ⊢
    have hminus := hfilter ['-'] (by simp)
    rw [List.singleton_append] at hminus
    simp only [number, hnumeral, hminus, hvalue]
  | false =>
    simp only [Bool.false_eq_true, if_false, List.nil_append] at hnumeral hvalue ⊢
    obtain ⟨c, hhead, hc⟩ := hbody.resolve_left Bool.false_ne_true
    obtain ⟨r, rfl⟩ := List.head?_eq_some_iff.mp hhead
    have hplus : c ≠ '+' := Decimal.ne_of_isDigit hc rfl
    have hminus : c ≠ '-' := Decimal.ne_of_isDigit hc rfl
    have hself := hfilter [] (by simp)
    rw [List.nil_append] at hself
    rw [List.cons_append] at hnumeral ⊢
    simp [number, hplus, hminus, hnumeral, hself, hvalue]

/-- An integer reads back, if a signed word holds it. -/
theorem number_intText {n : Int} (h : Signed (.int n)) {rest : List Char} (hrest : EndsValue rest) :
    number ((Decimal.intText n).toList ++ rest) = .ok (.int n, rest) := by
  have hword : -(2 ^ 63) ≤ n ∧ n < 2 ^ 63 := h
  have hvalue : numeralValue? (Decimal.intText n).toList = some (.int n) := by
    rw [numeralValue?, Decimal.readInt?_intText, Option.filter_some, if_pos (by simpa using hword)]
  obtain ⟨negative, htext, -⟩ := Decimal.intText_eq n
  have hdigits := Decimal.digits_digitChars n.natAbs
  have hsigned : (Decimal.intText n).toList =
      (if negative then ['-'] else []) ++ Decimal.digitChars n.natAbs := by
    rw [htext, String.toList_ofList]
    cases negative <;> rfl
  rw [hsigned] at hvalue ⊢
  rw [List.append_assoc]
  refine number_of_numeral (.inr ?_) ?_ ?_ hvalue
  · obtain ⟨c, cs, hcs⟩ := List.exists_cons_of_ne_nil hdigits.nonempty
    exact ⟨c, by simp [hcs], hdigits.digit c (by rw [hcs]; exact List.mem_cons_self)⟩
  · rw [numeral_run fun c hc => .inl (by simp [Char.isAlphanum, hdigits.digit c hc]),
      numeral_end hrest]
    cases negative <;> simp
  · exact fun c hc => Decimal.ne_of_isDigit (hdigits.digit c hc) rfl

/-! ## Names -/

/-- A name is taken up to its end. -/
theorem span_name (name : List Char) (hname : name.all isNamePart = true) {rest : List Char}
    (hrest : EndsValue rest) :
    (name ++ rest).takeWhile isNamePart = name ∧ (name ++ rest).dropWhile isNamePart = rest := by
  rw [List.all_eq_true] at hname
  rw [List.takeWhile_append_of_pos hname, List.dropWhile_append_of_pos hname]
  cases rest with
  | nil => simp
  | cons c rest =>
    have hends := hrest c rfl
    simp only [Bool.or_eq_false_iff] at hends
    have hc : isNamePart c = false := by simp [isNamePart, hends]
    simp [hc]

/-! ## Scalars -/

/-- A text that begins a value: neither with a blank nor with what closes a container. -/
def BeginsValue (cs : List Char) : Prop :=
  ∃ c r, cs = c :: r ∧ Text.isBlank c = false ∧ c ∉ [']', ')', '}']

/-- A text that reads as a value without parts, whatever ends it. -/
structure ReadsScalar (v : Value) (cs : List Char) : Prop where
  begins : BeginsValue cs
  read : ∀ fuel depth rest, EndsValue rest →
    value (fuel + 1) depth (cs ++ rest) = .ok (v, rest)

/-- What begins with a digit or a minus sign is a number. -/
theorem value_number {c : Char} (hc : c.isDigit = true ∨ c = '-') (fuel depth : Nat)
    (cs : List Char) : value (fuel + 1) depth (c :: cs) = number (c :: cs) := by
  have hskip : skipBlank (c :: cs) = c :: cs := by
    refine List.dropWhile_cons_of_neg ?_
    obtain hdigit | rfl := hc
    · simp [Decimal.isBlank_of_isDigit hdigit]
    · decide
  have hne : ∀ d : Char, d.isDigit = false → d ≠ '-' → c ≠ d := by
    rintro d hd hminus rfl
    obtain hdigit | hsign := hc
    · rw [hd] at hdigit
      cases hdigit
    · exact hminus hsign
  have hopens : ¬(c = '{' ∨ c = '[' ∨ c = '(') ∧ ¬(c = '\'' ∨ c = '"') := by
    simp only [not_or]
    refine ⟨⟨?_, ?_, ?_⟩, ?_, ?_⟩ <;> exact hne _ rfl (by decide)
  rw [value, hskip]
  dsimp only
  rw [if_neg hopens.1, if_neg hopens.2, if_pos (hc.elim (.inr ∘ .inr) .inl)]

/-- A number is a scalar. -/
theorem readsScalar_number {c : Char} {r : List Char} {v : Value}
    (hc : c.isDigit = true ∨ c = '-')
    (h : ∀ rest, EndsValue rest → number (c :: r ++ rest) = .ok (v, rest)) :
    ReadsScalar v (c :: r) where
  begins := by
    refine ⟨c, r, rfl, ?_⟩
    obtain hdigit | rfl := hc
    · have hne : ∀ d : Char, d.isDigit = false → c ≠ d := fun d => Decimal.ne_of_isDigit hdigit
      simp [Decimal.isBlank_of_isDigit hdigit, hne ']' rfl, hne ')' rfl, hne '}' rfl]
    · decide
  read fuel depth rest hrest := by
    rw [List.cons_append, value_number hc, ← List.cons_append, h rest hrest]

/-- The text of an integer begins with a digit or a minus sign. -/
theorem intText_head (n : Int) : ∃ c cs, (Decimal.intText n).toList = c :: cs ∧
    (c.isDigit = true ∨ c = '-') := by
  obtain ⟨negative, htext, -⟩ := Decimal.intText_eq n
  have hdigits := Decimal.digits_digitChars n.natAbs
  rw [htext, String.toList_ofList]
  cases negative with
  | true => exact ⟨'-', _, rfl, .inr rfl⟩
  | false =>
    obtain ⟨c, cs, hcs⟩ := List.exists_cons_of_ne_nil hdigits.nonempty
    exact ⟨c, cs, hcs, .inl (hdigits.digit c (by rw [hcs]; exact List.mem_cons_self))⟩

theorem readsScalar_int {n : Int} (h : Signed (.int n)) :
    ReadsScalar (.int n) (Decimal.intText n).toList := by
  obtain ⟨c, cs, hcs, hc⟩ := intText_head n
  have hnumber := fun rest (hrest : EndsValue rest) => number_intText h hrest
  rw [hcs] at hnumber ⊢
  exact readsScalar_number hc hnumber

theorem readsScalar_none : ReadsScalar .null "None".toList where
  begins := ⟨'N', _, rfl, by decide⟩
  read fuel depth rest hrest := by
    have hspan := span_name "None".toList (by decide) hrest
    change namedValue ("None".toList ++ rest) = _
    rw [namedValue, hspan.1, hspan.2]
    rfl

theorem readsScalar_true : ReadsScalar (.bool true) "True".toList where
  begins := ⟨'T', _, rfl, by decide⟩
  read fuel depth rest hrest := by
    have hspan := span_name "True".toList (by decide) hrest
    change namedValue ("True".toList ++ rest) = _
    rw [namedValue, hspan.1, hspan.2]
    rfl

theorem readsScalar_false : ReadsScalar (.bool false) "False".toList where
  begins := ⟨'F', _, rfl, by decide⟩
  read fuel depth rest hrest := by
    have hspan := span_name "False".toList (by decide) hrest
    change namedValue ("False".toList ++ rest) = _
    rw [namedValue, hspan.1, hspan.2]
    rfl

/-- A string is a scalar. -/
theorem readsScalar_string {quote : Char} {cs : List Char} {s : String}
    (hquote : quote = '\'' ∨ quote = '"')
    (h : ∀ rest, string quote (cs ++ rest) = .ok (s, rest)) :
    ReadsScalar (.str s) (quote :: cs) where
  begins := by
    refine ⟨quote, cs, rfl, ?_⟩
    rcases hquote with rfl | rfl <;> decide
  read fuel depth rest _ := by
    have hskip : skipBlank (quote :: (cs ++ rest)) = quote :: (cs ++ rest) := by
      rcases hquote with rfl | rfl <;> rfl
    rw [List.cons_append, value, hskip]
    rcases hquote with rfl | rfl <;> simp [h rest]

/-! ## Blanks -/

section Blanks

variable {bs : List Char} (hbs : ∀ c ∈ bs, Text.isBlank c = true)
include hbs

theorem skipBlank_blank (cs : List Char) : skipBlank (bs ++ cs) = skipBlank cs :=
  List.dropWhile_append_of_pos hbs

theorem value_blank (fuel depth : Nat) (cs : List Char) :
    value (fuel + 1) depth (bs ++ cs) = value (fuel + 1) depth cs := by
  simp only [value, skipBlank_blank hbs]

omit hbs in
theorem BeginsValue.skipBlank {cs : List Char} (h : BeginsValue cs) : skipBlank cs = cs := by
  obtain ⟨c, r, rfl, hblank, -⟩ := h
  exact List.dropWhile_cons_of_neg (by simp [hblank])

omit hbs in
theorem BeginsValue.append {cs : List Char} (h : BeginsValue cs) (rest : List Char) :
    BeginsValue (cs ++ rest) := by
  obtain ⟨c, r, rfl, hc⟩ := h
  exact ⟨c, r ++ rest, rfl, hc⟩

end Blanks

/-! ## What a reader finds -/

/-- A reader finds `a` in front of `rest` where the containers fit, and else finds them nested too
deep. -/
def Finds {α : Type} (fits : Prop) (a : α) (rest : List Char) (step : Step α) : Prop :=
  fits ∧ step = .ok (a, rest) ∨ ¬fits ∧ ∃ place, step = .error (.tooDeep, place)

theorem Finds.congr {α : Type} {fits fits' : Prop} {a : α} {rest : List Char} {step : Step α}
    (hfits : fits ↔ fits') (h : Finds fits a rest step) : Finds fits' a rest step :=
  h.imp (And.imp_left hfits.mp) (And.imp_left (mt hfits.mpr))

/-- What the reader makes of the text of a value inside `depth` containers. -/
structure ReadsPart (depth : Nat) (v : Value) (cs : List Char) : Prop where
  begins : BeginsValue cs
  finds : ∀ fuel rest, cs.length ≤ fuel → EndsValue rest →
    Finds (depth + v.nesting ≤ maxDepth) v.canonical rest (value fuel depth (cs ++ rest))

theorem ReadsScalar.readsPart {v : Value} {cs : List Char} (h : ReadsScalar v cs)
    (hleaf : v.nesting = 0) {depth : Nat} (hdepth : depth ≤ maxDepth) : ReadsPart depth v cs where
  begins := h.begins
  finds fuel rest hfuel hrest := by
    obtain ⟨c, r, rfl, -⟩ := h.begins
    obtain ⟨fuel, rfl⟩ := Nat.exists_eq_add_one_of_ne_zero (n := fuel) (by
      rw [List.length_cons] at hfuel
      omega)
    rw [Value.canonical_of_nesting hleaf]
    exact .inl ⟨by omega, h.read fuel depth rest hrest⟩

/-! ## Lists and tuples -/

section Items

variable {close : Char} (hclose : close = ']' ∨ close = ')') {bs : List Char}
  (hbs : ∀ c ∈ bs, Text.isBlank c = true)
include hclose

theorem endsValue_close (rest : List Char) : EndsValue (close :: rest) := by
  rcases hclose with rfl | rfl <;> exact endsValue_cons (by decide) rest

theorem ne_close {c : Char} (hc : c ∉ [']', ')', '}']) : c ≠ close := by
  rintro rfl
  rcases hclose with rfl | rfl <;> exact hc (by decide)

include hbs

theorem items_close (fuel depth : Nat) (found : List Value) (rest : List Char) :
    items (fuel + 1) depth close found (bs ++ close :: rest) = .ok (found.reverse, rest) := by
  have hskip : skipBlank (close :: rest) = close :: rest := by
    rcases hclose with rfl | rfl <;> rfl
  rw [items, skipBlank_blank hbs, hskip]
  simp

/-- A fault of an item is a fault of the list. -/
theorem items_error {fuel depth : Nat} (found : List Value) {cs : List Char}
    {e : Fault × List Char} (hcs : BeginsValue cs) (h : value fuel depth cs = .error e) :
    items (fuel + 1) depth close found (bs ++ cs) = .error e := by
  rw [items, skipBlank_blank hbs, hcs.skipBlank]
  obtain ⟨c, r, rfl, -, hc⟩ := hcs
  simp only [ne_close hclose hc, if_false, h]

/-- Behind an item, a comma leads to more of them, and the list ends where it closes. -/
theorem items_value {fuel depth : Nat} (found : List Value) {cs bs' rest : List Char}
    {next : Char} {v : Value} (hcs : BeginsValue cs) (hbs' : ∀ c ∈ bs', Text.isBlank c = true)
    (h : value fuel depth cs = .ok (v, bs' ++ next :: rest)) :
    (next = ',' →
      items (fuel + 1) depth close found (bs ++ cs) = items fuel depth close (v :: found) rest) ∧
    (next = close →
      items (fuel + 1) depth close found (bs ++ cs) = .ok ((v :: found).reverse, rest)) := by
  rw [items, skipBlank_blank hbs, hcs.skipBlank]
  obtain ⟨c, r, rfl, -, hc⟩ := hcs
  simp only [ne_close hclose hc, if_false, h, skipBlank_blank hbs']
  constructor
  · rintro rfl
    rfl
  · rintro rfl
    rcases hclose with rfl | rfl <;> rfl

/-- An item that fits leaves the list to what stands behind it; one that does not is found first. -/
theorem items_part (fuel : Nat) {depth : Nat} (found : List Value) {v : Value} {vs : List Value}
    {next : Char} {cs bs' tail rest : List Char} {fits : Prop} (hv : ReadsPart depth v cs)
    (hfuel : cs.length ≤ fuel) (hbs' : ∀ c ∈ bs', Text.isBlank c = true)
    (hnext : next = ',' ∧ Finds fits vs rest (items fuel depth close (v.canonical :: found) tail) ∨
      next = close ∧ fits ∧ vs = (v.canonical :: found).reverse ∧ tail = rest) :
    Finds (depth + v.nesting ≤ maxDepth ∧ fits) vs rest
      (items (fuel + 1) depth close found (bs ++ (cs ++ (bs' ++ next :: tail)))) := by
  have hends : EndsValue (next :: tail) := by
    obtain ⟨rfl, -⟩ | ⟨rfl, -⟩ := hnext
    · exact endsValue_cons (by decide) tail
    · exact endsValue_close hclose tail
  have hbegins := hv.begins.append (bs' ++ next :: tail)
  obtain ⟨hfits, hread⟩ | ⟨hfits, place, hread⟩ := hv.finds fuel _ hfuel (hends.blank hbs')
  · have hvalue := items_value hclose hbs found hbegins hbs' hread
    obtain ⟨hcomma, hmore⟩ | ⟨hend, hmore, rfl, rfl⟩ := hnext
    · rw [hvalue.1 hcomma]
      exact hmore.congr (by simp [hfits])
    · exact .inl ⟨⟨hfits, hmore⟩, hvalue.2 hend⟩
  · exact .inr ⟨fun h => hfits h.1, place, items_error hclose hbs found hbegins hread⟩

end Items

/-! ## Mappings -/

section Members

variable {bs : List Char} (hbs : ∀ c ∈ bs, Text.isBlank c = true)
include hbs

theorem members_close (fuel depth : Nat) (found : List (String × Value)) (rest : List Char) :
    members (fuel + 1) depth found (bs ++ '}' :: rest) = .ok (found.reverse, rest) := by
  simp only [members, skipBlank_blank hbs]
  rfl

variable {fuel depth : Nat} (found : List (String × Value)) {cs bs' behind : List Char}
  {key : String} (hcs : BeginsValue cs) (hbs' : ∀ c ∈ bs', Text.isBlank c = true)
  (hkey : value fuel depth cs = .ok (.str key, bs' ++ ':' :: behind))
include hcs hbs' hkey

/-- A fault of a value is a fault of the mapping. -/
theorem members_error {e : Fault × List Char} (h : value fuel depth behind = .error e) :
    members (fuel + 1) depth found (bs ++ cs) = .error e := by
  have hcolon : skipBlank (':' :: behind) = ':' :: behind := rfl
  rw [members, skipBlank_blank hbs, hcs.skipBlank]
  obtain ⟨c, r, rfl, -, hc⟩ := hcs
  split
  · rename_i hbrace
    obtain rfl := (List.cons.inj hbrace).1
    exact absurd (by decide) hc
  · simp only [hkey, skipBlank_blank hbs', hcolon, h]

/-- Behind a member, a comma leads to more of them, and the mapping ends where it closes. -/
theorem members_value {bs'' rest : List Char} {next : Char} {v : Value}
    (hbs'' : ∀ c ∈ bs'', Text.isBlank c = true)
    (h : value fuel depth behind = .ok (v, bs'' ++ next :: rest)) :
    (next = ',' →
      members (fuel + 1) depth found (bs ++ cs) = members fuel depth ((key, v) :: found) rest) ∧
    (next = '}' →
      members (fuel + 1) depth found (bs ++ cs) = .ok (((key, v) :: found).reverse, rest)) := by
  have hcolon : skipBlank (':' :: behind) = ':' :: behind := rfl
  rw [members, skipBlank_blank hbs, hcs.skipBlank]
  obtain ⟨c, r, rfl, -, hc⟩ := hcs
  split
  · rename_i hbrace
    obtain rfl := (List.cons.inj hbrace).1
    exact absurd (by decide) hc
  · simp only [hkey, skipBlank_blank hbs', hcolon, h, skipBlank_blank hbs'']
    constructor <;> rintro rfl <;> rfl

end Members

/-- A member that fits leaves the mapping to what stands behind it. -/
theorem members_part (fuel : Nat) {depth : Nat} (found : List (String × Value)) {k : String}
    {v : Value} {kvs : List (String × Value)} {next : Char}
    {bs ks bsk bsv cs bs' tail rest : List Char} {fits : Prop}
    (hbs : ∀ c ∈ bs, Text.isBlank c = true) (hk : ReadsScalar (.str k) ks)
    (hbsk : ∀ c ∈ bsk, Text.isBlank c = true) (hbsv : ∀ c ∈ bsv, Text.isBlank c = true)
    (hv : ReadsPart depth v cs) (hfuel : cs.length < fuel) (hbs' : ∀ c ∈ bs', Text.isBlank c = true)
    (hnext :
      next = ',' ∧ Finds fits kvs rest (members fuel depth ((k, v.canonical) :: found) tail) ∨
      next = '}' ∧ fits ∧ kvs = ((k, v.canonical) :: found).reverse ∧ tail = rest) :
    Finds (depth + v.nesting ≤ maxDepth ∧ fits) kvs rest (members (fuel + 1) depth found
      (bs ++ (ks ++ (bsk ++ ':' :: (bsv ++ (cs ++ (bs' ++ next :: tail))))))) := by
  obtain ⟨fuel, rfl⟩ := Nat.exists_eq_add_one_of_ne_zero (n := fuel) (by omega)
  have hends : EndsValue (next :: tail) := by
    obtain ⟨rfl, -⟩ | ⟨rfl, -⟩ := hnext <;> exact endsValue_cons (by decide) tail
  have hkey := hk.read fuel depth (bsk ++ ':' :: (bsv ++ (cs ++ (bs' ++ next :: tail))))
    ((endsValue_cons (by decide) _).blank hbsk)
  have hbegins := hk.begins.append (bsk ++ ':' :: (bsv ++ (cs ++ (bs' ++ next :: tail))))
  obtain ⟨hfits, hread⟩ | ⟨hfits, place, hread⟩ :=
    hv.finds (fuel + 1) _ (by omega) (hends.blank hbs')
  all_goals rw [← value_blank hbsv] at hread
  · have hvalue := members_value hbs found hbegins hbsk hkey hbs' hread
    obtain ⟨hcomma, hmore⟩ | ⟨hend, hmore, rfl, rfl⟩ := hnext
    · rw [hvalue.1 hcomma]
      exact hmore.congr (by simp [hfits])
    · exact .inl ⟨⟨hfits, hmore⟩, hvalue.2 hend⟩
  · exact .inr ⟨fun h => hfits h.1, place, members_error hbs found hbegins hbsk hkey hread⟩

/-! ## Values -/

/-- A dialect that the reader of literals reads, as far as its scalars go. -/
structure Understands (d : Dialect) : Prop where
  blank : ∀ {c}, d.blank c = true → Text.isBlank c = true
  scalar : ∀ {v cs}, d.scalar v cs → ReadsScalar v cs

section Spelt

variable {d : Dialect} (hd : Understands d) {depth : Nat} (hdepth : depth ≤ maxDepth)
include hd

theorem Understands.blanks {bs : List Char} (hbs : ∀ c ∈ bs, d.blank c = true) :
    ∀ c ∈ bs, Text.isBlank c = true := fun c hc => hd.blank (hbs c hc)

include hdepth

/-- The items of a list are found where each of them fits. -/
theorem items_listed {close : Char} (hclose : close = ']' ∨ close = ')') {vs : List Value}
    {cs : List Char} (h : d.Listed close (ReadsPart depth) vs cs) (fuel : Nat) (found : List Value)
    (rest : List Char) (hfuel : cs.length ≤ fuel) :
    Finds (depth + Value.itemNesting vs ≤ maxDepth)
      (found.reverse ++ Value.canonicalItems vs) rest
      (items fuel depth close found (cs ++ rest)) := by
  induction h generalizing fuel found with
  | nil hbs =>
    rw [List.length_append, List.length_singleton] at hfuel
    obtain ⟨fuel, rfl⟩ := Nat.exists_eq_add_one_of_ne_zero (n := fuel) (by omega)
    have hend := items_close hclose (hd.blanks hbs) fuel depth found rest
    exact .inl ⟨hdepth, by simpa [Value.canonicalItems] using hend⟩
  | @last v bs cs bs' hbs hv hbs' =>
    simp only [List.length_append, List.length_singleton] at hfuel
    obtain ⟨fuel, rfl⟩ := Nat.exists_eq_add_one_of_ne_zero (n := fuel) (by omega)
    have hpart := items_part hclose (hd.blanks hbs) fuel found hv (by omega) (hd.blanks hbs')
      (.inr ⟨rfl, trivial, rfl, Eq.refl rest⟩)
    simpa [Value.itemNesting, Value.canonicalItems] using hpart
  | @cons v vs bs cs bs' more hbs hv hbs' _ _ ih =>
    simp only [List.length_append, List.length_cons] at hfuel
    obtain ⟨fuel, rfl⟩ := Nat.exists_eq_add_one_of_ne_zero (n := fuel) (by omega)
    have hpart := items_part hclose (hd.blanks hbs) fuel found hv (by omega) (hd.blanks hbs')
      (.inl ⟨rfl, ih fuel (v.canonical :: found) (by omega)⟩)
    rw [← Nat.max_le, Nat.add_max_add_left] at hpart
    simpa [Value.itemNesting, Value.canonicalItems] using hpart

/-- The members of a mapping are found where each value fits. -/
theorem members_listed {kvs : List (String × Value)} {cs : List Char}
    (h : d.Listed '}' (d.Member (ReadsPart depth)) kvs cs) (fuel : Nat)
    (found : List (String × Value)) (rest : List Char) (hfuel : cs.length ≤ fuel) :
    Finds (depth + Value.fieldNesting kvs ≤ maxDepth)
      (found.reverse ++ kvs.map fun kv => (kv.1, kv.2.canonical)) rest
      (members fuel depth found (cs ++ rest)) := by
  induction h generalizing fuel found with
  | nil hbs =>
    rw [List.length_append, List.length_singleton] at hfuel
    obtain ⟨fuel, rfl⟩ := Nat.exists_eq_add_one_of_ne_zero (n := fuel) (by omega)
    have hend := members_close (hd.blanks hbs) fuel depth found rest
    exact .inl ⟨hdepth, by simpa using hend⟩
  | @last kv bs cs bs' hbs hkv hbs' =>
    obtain @⟨k, v, ks, bsk, bsv, cs, hk, hbsk, hbsv, hv⟩ := hkv
    simp only [List.length_append, List.length_cons, List.length_nil] at hfuel
    obtain ⟨fuel, rfl⟩ := Nat.exists_eq_add_one_of_ne_zero (n := fuel) (by omega)
    have hpart := members_part fuel found (hd.blanks hbs) (hd.scalar hk) (hd.blanks hbsk)
      (hd.blanks hbsv) hv (by omega) (hd.blanks hbs') (.inr ⟨rfl, trivial, rfl, Eq.refl rest⟩)
    simpa [Value.fieldNesting] using hpart
  | @cons kv kvs bs cs bs' more hbs hkv hbs' _ _ ih =>
    obtain @⟨k, v, ks, bsk, bsv, cs, hk, hbsk, hbsv, hv⟩ := hkv
    simp only [List.length_append, List.length_cons] at hfuel
    obtain ⟨fuel, rfl⟩ := Nat.exists_eq_add_one_of_ne_zero (n := fuel) (by omega)
    have hpart := members_part fuel found (hd.blanks hbs) (hd.scalar hk) (hd.blanks hbsk)
      (hd.blanks hbsv) hv (by omega) (hd.blanks hbs')
      (.inl ⟨rfl, ih fuel ((k, v.canonical) :: found) (by omega)⟩)
    rw [← Nat.max_le, Nat.add_max_add_left] at hpart
    simpa [Value.fieldNesting] using hpart

end Spelt

/-- A container is found where its parts fit one level deeper, and refused where it opens too
deep. -/
theorem finds_container {α β : Type} {depth nesting : Nat} {cs rest : List Char} {a : α} (f : α → β)
    {step : Step α}
    (h : depth < maxDepth → Finds (depth + 1 + nesting ≤ maxDepth) a rest step) :
    Finds (depth + (nesting + 1) ≤ maxDepth) (f a) rest
      (if maxDepth ≤ depth then .error (.tooDeep, cs) else step.map fun r => (f r.1, r.2)) := by
  by_cases hdepth : maxDepth ≤ depth
  · rw [if_pos hdepth]
    exact .inr ⟨by omega, cs, rfl⟩
  · rw [if_neg hdepth]
    obtain ⟨hfits, rfl⟩ | ⟨hfits, place, rfl⟩ := h (by omega)
    · exact .inl ⟨by omega, rfl⟩
    · exact .inr ⟨by omega, place, rfl⟩

theorem value_list (fuel depth : Nat) (cs : List Char) :
    value (fuel + 1) depth ('[' :: cs) = if maxDepth ≤ depth then .error (.tooDeep, '[' :: cs)
      else (items fuel (depth + 1) ']' [] cs).map fun r => (.arr r.1, r.2) := by
  have hskip : skipBlank ('[' :: cs) = '[' :: cs := rfl
  rw [value, hskip]
  cases hread : items fuel (depth + 1) ']' [] cs <;> simp [hread, Except.map]

theorem value_tuple (fuel depth : Nat) (cs : List Char) :
    value (fuel + 1) depth ('(' :: cs) = if maxDepth ≤ depth then .error (.tooDeep, '(' :: cs)
      else (items fuel (depth + 1) ')' [] cs).map fun r => (.arr r.1, r.2) := by
  have hskip : skipBlank ('(' :: cs) = '(' :: cs := rfl
  rw [value, hskip]
  cases hread : items fuel (depth + 1) ')' [] cs <;> simp [hread, Except.map]

theorem value_mapping (fuel depth : Nat) (cs : List Char) :
    value (fuel + 1) depth ('{' :: cs) = if maxDepth ≤ depth then .error (.tooDeep, '{' :: cs)
      else (members fuel (depth + 1) [] cs).map fun r => (.object r.1, r.2) := by
  have hskip : skipBlank ('{' :: cs) = '{' :: cs := rfl
  rw [value, hskip]
  cases hread : members fuel (depth + 1) [] cs <;> simp [hread, Except.map]

section Trees

variable {d : Dialect} (hd : Understands d)
include hd

/-- **A text of a value reads as the value** inside `depth` containers, if the value fits there;
otherwise it is nested too deep. -/
theorem value_spelt {v : Value} {cs : List Char} (h : d.Spelt v cs) {depth : Nat}
    (hdepth : depth ≤ maxDepth) : ReadsPart depth v cs := by
  induction v using Value.induction generalizing cs depth with
  | leaf v hleaf =>
    cases h with
    | scalar h => exact (hd.scalar h).readsPart hleaf hdepth
    | _ => cases hleaf
  | arr vs ih =>
    have hparts : ∀ {close cs}, d.Listed close d.Spelt vs cs → depth < maxDepth →
        d.Listed close (ReadsPart (depth + 1)) vs cs := fun hlisted hlt =>
      hlisted.imp fun v hv cs h => ih v hv h hlt
    cases h with
    | scalar h => cases d.nesting_of_scalar h
    | list h =>
      refine ⟨⟨'[', _, rfl, by decide⟩, fun fuel rest hfuel _ => ?_⟩
      rw [List.length_cons] at hfuel
      obtain ⟨fuel, rfl⟩ := Nat.exists_eq_add_one_of_ne_zero (n := fuel) (by omega)
      rw [List.cons_append, value_list]
      exact finds_container Value.arr fun hlt =>
        items_listed hd hlt (.inl rfl) (hparts h hlt) fuel [] rest (by omega)
    | tuple _ h =>
      refine ⟨⟨'(', _, rfl, by decide⟩, fun fuel rest hfuel _ => ?_⟩
      rw [List.length_cons] at hfuel
      obtain ⟨fuel, rfl⟩ := Nat.exists_eq_add_one_of_ne_zero (n := fuel) (by omega)
      rw [List.cons_append, value_tuple]
      exact finds_container Value.arr fun hlt =>
        items_listed hd hlt (.inr rfl) (hparts h hlt) fuel [] rest (by omega)
  | obj kvs ih =>
    cases h with
    | scalar h => cases d.nesting_of_scalar h
    | mapping h =>
      have hparts : depth < maxDepth → d.Listed '}' (d.Member (ReadsPart (depth + 1))) kvs _ :=
        fun hlt => h.imp fun kv hkv _ => .imp fun _ hv => ih kv hkv hv hlt
      refine ⟨⟨'{', _, rfl, by decide⟩, fun fuel rest hfuel _ => ?_⟩
      rw [List.length_cons] at hfuel
      obtain ⟨fuel, rfl⟩ := Nat.exists_eq_add_one_of_ne_zero (n := fuel) (by omega)
      rw [List.cons_append, value_mapping, Value.canonical, Value.canonicalFields_eq_ofList]
      exact finds_container Value.object fun hlt =>
        members_listed hd hlt (hparts hlt) fuel [] rest (by omega)

/-- The same of a whole text, with blanks around the value. -/
theorem read_spelt {v : Value} {cs before behind : List Char} (h : d.Spelt v cs)
    (hbefore : ∀ c ∈ before, d.blank c = true) (hbehind : ∀ c ∈ behind, d.blank c = true) :
    v.nesting ≤ maxDepth ∧
        read (String.ofList (before ++ (cs ++ behind))) = .ok v.canonical ∨
      maxDepth < v.nesting ∧
        ∃ place, read (String.ofList (before ++ (cs ++ behind))) = .error (place, .tooDeep) := by
  have hfuel : 2 * (before ++ (cs ++ behind)).length + 2 =
    2 * (before ++ (cs ++ behind)).length + 1 + 1 := rfl
  have hends : EndsValue behind := by
    rw [← List.append_nil behind]
    exact endsValue_nil.blank (hd.blanks hbehind)
  rw [read, String.toList_ofList, hfuel]
  simp only [value_blank (hd.blanks hbefore)]
  obtain ⟨hfits, hread⟩ | ⟨hfits, place, hread⟩ :=
    (value_spelt hd h (Nat.zero_le _)).finds (2 * (before ++ (cs ++ behind)).length + 1 + 1) behind
      (by simp only [List.length_append]; omega) hends
  · have hskip : skipBlank behind = [] := by
      rw [← List.append_nil behind, skipBlank_blank (hd.blanks hbehind)]
      rfl
    refine .inl ⟨by omega, ?_⟩
    rw [hread]
    simp only [hskip]
  · refine .inr ⟨by omega, (before ++ (cs ++ behind)).length - place.length, ?_⟩
    rw [hread]

end Trees

end Enclave.Script.Literal
