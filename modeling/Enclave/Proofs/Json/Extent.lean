import Enclave.Proofs.Json.RoundTrip

/-!
# How far the reader goes in a value

A double may be another one after it was written and read, and some numbers have no text at all.
The text around them is read nevertheless: whatever the numbers of a value are, the reader stops
within its text or goes on right behind it (`passes_laid`). So what is read of an object are members
of the object under their own names, and strings are the strings that they were
(`Doc.read_pretty_obj`).
-/

namespace Enclave.Json

/-! ## Numbers -/

section Numbers

variable {negative : Bool} {word left : Nat} {n : Numeral} {r rest : List Char}

/-- Digits are taken up to anything that cannot continue a number. -/
theorem takeWhile_digits {ds : List Char} (hds : ∀ c ∈ ds, c.isDigit = true)
    (hrest : ∀ c, rest.head? = some c → c.isDigit = false) :
    (ds ++ rest).takeWhile Char.isDigit = ds ∧ (ds ++ rest).dropWhile Char.isDigit = rest := by
  rw [List.takeWhile_append_of_pos hds, List.dropWhile_append_of_pos hds]
  cases rest with
  | nil => simp
  | cons c rest => simp [hrest c rfl]

theorem exponentSign_append_digits {sign ds : List Char}
    (hsign : sign = [] ∨ sign = ['-'] ∨ sign = ['+']) (hds : Decimal.Digits ds) :
    (exponentSign (sign ++ (ds ++ rest))).2 = ds ++ rest := by
  obtain ⟨d, ds, rfl⟩ := List.exists_cons_of_ne_nil hds.nonempty
  have hd := hds.digit d List.mem_cons_self
  rcases hsign with rfl | rfl | rfl
  · have hplus : d ≠ '+' := isDigit_ne hd rfl
    have hminus : d ≠ '-' := isDigit_ne hd rfl
    rw [List.nil_append, List.cons_append, exponentSign]
    · rintro _ ⟨⟩
      exact hplus rfl
    · rintro _ ⟨⟩
      exact hminus rfl
  · rfl
  · rfl

/-- An exponent is read up to its end. -/
theorem readExponent_rest {sign ds : List Char} {start : Int}
    (hsign : sign = [] ∨ sign = ['-'] ∨ sign = ['+']) (hds : Decimal.Digits ds)
    (hrest : EndsNumber rest)
    (h : readExponent negative word start (sign ++ (ds ++ rest)) = .ok (n, r)) : r = rest := by
  have hdrop := (takeWhile_digits hds.digit fun c hc => (hrest c hc).1).2
  unfold readExponent at h
  simp only [exponentSign_append_digits hsign hds, hdrop] at h
  split at h
  · cases h
  split at h
  · cases h
  split at h
  · cases h
    rfl
  split at h <;> cases h <;> rfl

/-- What stands behind the digits of a number is read up to its end. -/
theorem exponent_rest {x : List Char} {start : Int} {m : Numeral}
    (hx : x = [] ∨ ∃ sign ds, x = 'e' :: (sign ++ ds) ∧
      (sign = [] ∨ sign = ['-'] ∨ sign = ['+']) ∧ Decimal.Digits ds)
    (hrest : EndsNumber rest)
    (h : (match behindLetter? (x ++ rest) with
      | some cs => readExponent negative word start cs
      | none => .ok (m, x ++ rest)) = .ok (n, r)) : r = rest := by
  obtain rfl | ⟨sign, ds, rfl, hsign, hds⟩ := hx
  · have hletter : behindLetter? ([] ++ rest) = none := by
      rw [behindLetter?_append hrest]
      rfl
    rw [hletter] at h
    cases h
    rfl
  · rw [List.cons_append, List.append_assoc] at h
    exact readExponent_rest hsign hds hrest h

/-- No digit follows the digits of a number. -/
theorem head?_not_isDigit {w p x : List Char} (hnumeral : Decimal.Numeral w p x)
    (hrest : EndsNumber rest) :
    ∀ c, (p ++ (x ++ rest)).head? = some c → c.isDigit = false := by
  intro c hc
  obtain hp | ⟨ds, hp, -⟩ := hnumeral.fraction
  · obtain hx | ⟨sign, ds, hx, -⟩ := hnumeral.exponent
    · rw [hp, hx] at hc
      exact (hrest c hc).1
    · rw [hp, hx] at hc
      cases hc
      rfl
  · rw [hp] at hc
    cases hc
    rfl

theorem readNumberTail_rest {w p x : List Char} (hnumeral : Decimal.Numeral w p x)
    (hrest : EndsNumber rest)
    (h : readNumberTail negative word left (p ++ (x ++ rest)) = .ok (n, r)) : r = rest := by
  obtain rfl | ⟨ds, rfl, hds⟩ := hnumeral.fraction
  · have hpoint : ∀ cs, x ++ rest ≠ '.' :: cs := by
      intro cs hcs
      obtain rfl | ⟨sign, ds, rfl, -⟩ := hnumeral.exponent
      · exact (hrest '.' (by rw [← List.nil_append rest, hcs]; rfl)).2.1 rfl
      · cases hcs
    unfold readNumberTail at h
    split at h
    · rename_i hcs
      exact absurd hcs (hpoint _)
    · exact exponent_rest hnumeral.exponent hrest h
  · have hx : Decimal.Numeral w [] x := ⟨hnumeral.whole, .inl rfl, hnumeral.exponent⟩
    obtain ⟨-, hdrop⟩ := takeWhile_digits hds (head?_not_isDigit hx hrest)
    rw [List.nil_append] at hdrop
    rw [List.cons_append, readNumberTail] at h
    simp only [hdrop] at h
    split at h
    · cases h
    · exact exponent_rest hnumeral.exponent hrest h

/-- A number is read up to its end, or not at all. -/
theorem readNumber_rest {w p x : List Char} (hnumeral : Decimal.Numeral w p x)
    (hrest : EndsNumber rest) (h : readNumber negative (w ++ (p ++ (x ++ rest))) = .ok (n, r)) :
    r = rest := by
  obtain ⟨htake, hdrop⟩ :=
    takeWhile_digits hnumeral.whole.digit (head?_not_isDigit hnumeral hrest)
  unfold readNumber at h
  split at h
  · cases h
  · -- A zero is the only digit of its number.
    rename_i hcs
    split at h
    · cases h
    rename_i hdigit
    obtain ⟨d, ds, hw⟩ := List.exists_cons_of_ne_nil hnumeral.whole.nonempty
    rw [hw, List.cons_append, List.cons.injEq] at hcs
    obtain ⟨rfl, hcs⟩ := hcs
    have hds : ds = [] := by
      rw [List.eq_nil_iff_forall_not_mem]
      cases ds with
      | nil => simp
      | cons d ds =>
        have hd := hnumeral.whole.digit d (by simp [hw])
        rw [← hcs] at hdigit
        simp [hd] at hdigit
    rw [hds, List.nil_append] at hcs
    rw [← hcs] at h
    exact readNumberTail_rest hnumeral hrest h
  · simp only [hdrop] at h
    split at h
    · cases h
    · exact readNumberTail_rest hnumeral hrest h

end Numbers

/-! ## Values -/

/-- What the reader makes of a text of a value, whatever the numbers of the value are: it stops
within the text or goes on right behind it, and takes a string for the string. -/
structure Passes (v : Value) (cs : List Char) : Prop where
  opens : ∃ c r, cs = c :: r ∧ OpensValue c
  rest : ∀ fuel rest r, 3 * cs.length ≤ fuel → EndsNumber rest →
    (readValue fuel (cs ++ rest)).2 = some r → r = rest
  text : ∀ s, v = .str s → ∀ fuel rest, 3 * cs.length ≤ fuel →
    (readValue fuel (cs ++ rest)).1 = .str s none

/-- A value that reads back passes. -/
theorem ScalarText.passes {v : Value} {cs : List Char} (h : ScalarText v cs) : Passes v cs := by
  obtain ⟨c, cs', hcs, -⟩ := h.opens
  have hsteps : ∀ fuel, 3 * cs.length ≤ fuel → ∃ fuel', fuel = fuel' + 1 := fun fuel hfuel =>
    Nat.exists_eq_add_one_of_ne_zero (by rw [hcs, List.length_cons] at hfuel; omega)
  refine ⟨h.opens, fun fuel rest r hfuel hrest hread => ?_, ?_⟩
  · obtain ⟨fuel, rfl⟩ := hsteps fuel hfuel
    rw [h.readValue fuel hrest] at hread
    exact (Option.some.inj hread).symm
  · rintro s rfl fuel rest hfuel
    obtain ⟨fuel, rfl⟩ := hsteps fuel hfuel
    rw [h.stringText.readValue]

/-- The text of a number passes if the reader stops in it or right behind it. -/
theorem passes_number {v : Value} {c : Char} {cs : List Char} (hopens : OpensValue c)
    (hv : ∀ s, v ≠ .str s)
    (h : ∀ fuel rest r, EndsNumber rest → (readValue (fuel + 1) (c :: (cs ++ rest))).2 = some r →
      r = rest) : Passes v (c :: cs) where
  opens := ⟨c, cs, rfl, hopens⟩
  rest fuel rest r hfuel hrest hread := by
    rw [List.length_cons] at hfuel
    obtain ⟨fuel, rfl⟩ := Nat.exists_eq_add_one_of_ne_zero (n := fuel) (by omega)
    exact h fuel rest r hrest hread
  text s hs := absurd hs (hv s)

theorem leaf_rest {x : Except Fault (Numeral × List Char)} {r : List Char}
    (h : (leaf x).2 = some r) : ∃ n, x = .ok (n, r) := by
  cases x with
  | ok p => cases h; exact ⟨p.1, rfl⟩
  | error f => cases h

/-- The text of a number with its sign passes. -/
theorem passes_numeral {v : Value} (hv : ∀ s, v ≠ .str s) {w p x : List Char}
    (hnumeral : Decimal.Numeral w p x) (negative : Bool) :
    Passes v (if negative then '-' :: (w ++ (p ++ x)) else w ++ (p ++ x)) := by
  cases negative with
  | true =>
    refine passes_number opensValue_minus hv fun fuel rest r hrest hread => ?_
    rw [readValue_minus, List.append_assoc, List.append_assoc] at hread
    obtain ⟨n, hread⟩ := leaf_rest hread
    exact readNumber_rest hnumeral hrest hread
  | false =>
    obtain ⟨c, cs, hcs, hdigit⟩ := hnumeral.head_isDigit
    rw [if_neg Bool.false_ne_true, hcs]
    refine passes_number (.of_isDigit hdigit) hv fun fuel rest r hrest hread => ?_
    rw [readValue_digit hdigit, ← List.cons_append, ← hcs, List.append_assoc,
      List.append_assoc] at hread
    obtain ⟨n, hread⟩ := leaf_rest hread
    exact readNumber_rest hnumeral hrest hread

theorem passes_int (n : Int) : Passes (.int n) (Decimal.intText n).toList := by
  obtain ⟨negative, htext, -⟩ := Decimal.intText_eq n
  have hnumeral : Decimal.Numeral (Decimal.digitChars n.natAbs) [] [] :=
    ⟨Decimal.digits_digitChars _, .inl rfl, .inl rfl⟩
  have hpasses := passes_numeral (v := .int n) (by simp) hnumeral negative
  rw [htext, String.toList_ofList]
  rwa [List.append_nil, List.append_nil] at hpasses

theorem passes_float (f : Float) : Passes (.float f) (floatText f).toList := by
  cases hsize : Decimal.Reading.ofFloat f with
  | notANumber =>
    have htext : floatText f = "NaN" := by rw [floatText, Decimal.Notation.render, hsize]
    rw [htext]
    exact passes_number ⟨by decide, by decide, by decide⟩ (by simp)
      fun _ _ _ _ hread => by cases hread
  | infinite negative =>
    have htext : floatText f = if negative then "-inf" else "inf" := by
      rw [floatText, Decimal.Notation.render, hsize]
    rw [htext]
    cases negative with
    | true =>
      exact passes_number opensValue_minus (by simp) fun _ _ _ _ hread => by cases hread
    | false =>
      exact passes_number ⟨by decide, by decide, by decide⟩ (by simp)
        fun _ _ _ _ hread => by cases hread
  | finite negative size =>
    obtain ⟨negative, w, p, x, htext, -, hnumeral⟩ :=
      Decimal.Notation.render_numeral (c := notation64) (f := f) rfl (by
        rw [Decimal.isFinite, hsize])
    rw [floatText, htext, String.toList_ofList]
    exact passes_numeral (by simp) hnumeral negative

/-! ## Containers -/

theorem readItem_rest {fuel : Nat} {cs tail r : List Char}
    (hvalue : ∀ t, (readValue fuel cs).2 = some t → t = tail)
    (h : (readItem (fuel + 1) cs).2.2 = some r) : (readItems fuel false tail).2.2 = some r := by
  rw [readItem] at h
  split at h
  · cases h
  · rename_i t hread
    rwa [← hvalue t (by rw [hread])]

/-- The reader stops within the items of a list or goes on right behind them. -/
theorem readItems_rest {vs : List Value} {cs : List Char} (h : dialect.Listed ']' Passes vs cs)
    (fuel : Nat) (hfuel : 3 * cs.length + 2 ≤ fuel) (rest r : List Char) :
    ((readItems fuel true (cs ++ rest)).2.2 = some r → r = rest) ∧
      (vs ≠ [] → (readItems fuel false (',' :: (cs ++ rest))).2.2 = some r → r = rest) := by
  obtain ⟨fuel, rfl⟩ := Nat.exists_eq_add_one_of_ne_zero (n := fuel) (by omega)
  obtain ⟨fuel, rfl⟩ := Nat.exists_eq_add_one_of_ne_zero (n := fuel) (by omega)
  induction h generalizing fuel with
  | nil hbs =>
    rw [List.append_assoc, List.singleton_append, readItems_end hbs]
    exact ⟨fun h => (Option.some.inj h).symm, fun h => absurd rfl h⟩
  | @last v bs cs bs' hbs hv hbs' =>
    simp only [List.length_append, List.length_singleton] at hfuel
    obtain ⟨fuel, rfl⟩ := Nat.exists_eq_add_one_of_ne_zero (n := fuel) (by omega)
    have hvalue := fun t => hv.rest (fuel + 1) (bs' ++ ']' :: rest) t (by omega)
      ((endsNumber_bracket rest).blank hbs')
    have hitem : (readItem (fuel + 2) (cs ++ (bs' ++ ']' :: rest))).2.2 = some r → r = rest := by
      intro h
      have hend := readItem_rest hvalue h
      rw [readItems_end hbs'] at hend
      exact (Option.some.inj hend).symm
    simp only [List.append_assoc, List.singleton_append]
    rw [readItems_first hbs hv.opens, readItems_comma hbs hv.opens]
    exact ⟨hitem, fun _ => hitem⟩
  | @cons v vs bs cs bs' more hbs hv hbs' hmore htrailing ih =>
    simp only [List.length_append, List.length_cons] at hfuel
    obtain ⟨fuel, rfl⟩ := Nat.exists_eq_add_one_of_ne_zero (n := fuel) (by omega)
    obtain ⟨fuel, rfl⟩ := Nat.exists_eq_add_one_of_ne_zero (n := fuel) (by omega)
    have hne : vs ≠ [] := fun h => Bool.false_ne_true (htrailing h)
    have hvalue := fun t => hv.rest (fuel + 2) (bs' ++ ',' :: (more ++ rest)) t (by omega)
      (EndsNumber.blank hbs' (.cons rfl (by decide) (by decide) (by decide)))
    have hitem : (readItem (fuel + 3) (cs ++ (bs' ++ ',' :: (more ++ rest)))).2.2 = some r →
        r = rest := by
      intro h
      have hitems := readItem_rest hvalue h
      rw [readItems_blank hbs'] at hitems
      exact (ih fuel (by omega)).2 hne hitems
    simp only [List.append_assoc, List.cons_append]
    rw [readItems_first hbs hv.opens, readItems_comma hbs hv.opens]
    exact ⟨hitem, fun _ => hitem⟩

/-- A member that was read is one of those that were written, and a string is what it was. -/
def ReadAmong (kvs : Fields) (x : String × Option Fault × Doc) : Prop :=
  x.2.1 = none ∧ ∃ v, (x.1, v) ∈ kvs ∧ ∀ s, v = .str s → x.2.2 = .str s none

/-- What the reader makes of the rest of an object: it stops within its members or goes on right
behind them, and they are members that were written. -/
structure PassesFields (kvs : Fields) (rest : List Char)
    (r : List (String × Option Fault × Doc) × Option Fault × Option (List Char)) : Prop where
  rest : ∀ t, r.2.2 = some t → t = rest
  members : ∀ x ∈ r.1, ReadAmong kvs x

theorem PassesFields.end (kvs : Fields) (rest : List Char) :
    PassesFields kvs rest ([], none, some rest) :=
  ⟨fun _ h => (Option.some.inj h).symm, by simp⟩

theorem PassesFields.mono {kvs : Fields} {kv : String × Value} {rest : List Char}
    {r : List (String × Option Fault × Doc) × Option Fault × Option (List Char)}
    (h : PassesFields kvs rest r) : PassesFields (kv :: kvs) rest r where
  rest := h.rest
  members x hx := by
    obtain ⟨hflaw, v, hv, htext⟩ := h.members x hx
    exact ⟨hflaw, v, List.mem_cons_of_mem _ hv, htext⟩

/-- A member and the members behind it. -/
theorem passesFields_readField (tail : List Char) {k : String} {v : Value} {kvs : Fields}
    {bs r cs rest : List Char} {fuel : Nat} (hbs : ∀ c ∈ bs, isJsonBlank c = true)
    (hkey : readString (r.length + 1) r = .ok ⟨k.toList, none, bs ++ ':' :: cs⟩)
    (hvalue : ∀ t, (readValue fuel cs).2 = some t → t = tail)
    (htext : ∀ s, v = .str s → (readValue fuel cs).1 = .str s none)
    (hfields : PassesFields ((k, v) :: kvs) rest (readFields fuel false tail)) :
    PassesFields ((k, v) :: kvs) rest (readField (fuel + 1) ('"' :: r)) := by
  have hcolon : skipBlank (':' :: cs) = ':' :: cs := List.dropWhile_cons_of_neg (by decide)
  rw [readField]
  simp only [hkey, skipBlank_blank hbs, hcolon, String.ofList_toList]
  split
  · rename_i d hread
    rw [hread] at htext
    refine ⟨fun t ht => ?_, fun x hx => ?_⟩
    · cases ht
    · rw [List.mem_singleton.mp hx]
      exact ⟨rfl, v, List.mem_cons_self, htext⟩
  · rename_i d t hread
    rw [hread] at hvalue htext
    obtain rfl := hvalue t rfl
    exact ⟨hfields.rest, List.forall_mem_cons.mpr
      ⟨⟨rfl, v, List.mem_cons_self, htext⟩, hfields.members⟩⟩

/-- The reader stops within the members of an object or goes on right behind them. -/
theorem passesFields_readFields {kvs : Fields} {cs : List Char}
    (h : dialect.Listed '}' (dialect.Member Passes) kvs cs) (fuel : Nat)
    (hfuel : 3 * cs.length + 2 ≤ fuel) (rest : List Char) :
    PassesFields kvs rest (readFields fuel true (cs ++ rest)) ∧
      (kvs ≠ [] → PassesFields kvs rest (readFields fuel false (',' :: (cs ++ rest)))) := by
  obtain ⟨fuel, rfl⟩ := Nat.exists_eq_add_one_of_ne_zero (n := fuel) (by omega)
  obtain ⟨fuel, rfl⟩ := Nat.exists_eq_add_one_of_ne_zero (n := fuel) (by omega)
  induction h generalizing fuel with
  | nil hbs =>
    rw [List.append_assoc, List.singleton_append, readFields_end hbs]
    exact ⟨.end _ rest, fun h => absurd rfl h⟩
  | @last kv bs cs bs' hbs hkv hbs' =>
    obtain @⟨k, v, ks, bsk, bsv, cs, hk, hbsk, hbsv, hv⟩ := hkv
    simp only [List.length_append, List.length_cons, List.length_nil] at hfuel
    obtain ⟨fuel, rfl⟩ := Nat.exists_eq_add_one_of_ne_zero (n := fuel) (by omega)
    obtain ⟨r, rfl, hkey⟩ := hk.stringText.readString
      (bsk ++ ':' :: (bsv ++ (cs ++ (bs' ++ '}' :: rest))))
    have hfield : PassesFields [(k, v)] rest (readField (fuel + 2)
        ('"' :: (r ++ (bsk ++ ':' :: (bsv ++ (cs ++ (bs' ++ '}' :: rest))))))) := by
      refine passesFields_readField (bs' ++ '}' :: rest) hbsk hkey
        (fun t ht => ?_) (fun s hs => ?_) ?_
      · rw [readValue_blank hbsv] at ht
        exact hv.rest _ _ t (by omega) ((endsNumber_brace rest).blank hbs') ht
      · rw [readValue_blank hbsv]
        exact hv.text s hs _ _ (by omega)
      · rw [readFields_end hbs']
        exact .end _ rest
    simp only [List.append_assoc, List.cons_append, List.nil_append]
    rw [readFields_first hbs, readFields_comma hbs]
    exact ⟨hfield, fun _ => hfield⟩
  | @cons kv kvs bs cs bs' more hbs hkv hbs' hmore htrailing ih =>
    obtain @⟨k, v, ks, bsk, bsv, cs, hk, hbsk, hbsv, hv⟩ := hkv
    simp only [List.length_append, List.length_cons] at hfuel
    obtain ⟨fuel, rfl⟩ := Nat.exists_eq_add_one_of_ne_zero (n := fuel) (by omega)
    obtain ⟨fuel, rfl⟩ := Nat.exists_eq_add_one_of_ne_zero (n := fuel) (by omega)
    have hne : kvs ≠ [] := fun h => Bool.false_ne_true (htrailing h)
    obtain ⟨r, rfl, hkey⟩ := hk.stringText.readString
      (bsk ++ ':' :: (bsv ++ (cs ++ (bs' ++ ',' :: (more ++ rest)))))
    have hfield : PassesFields ((k, v) :: kvs) rest (readField (fuel + 3)
        ('"' :: (r ++ (bsk ++ ':' :: (bsv ++ (cs ++ (bs' ++ ',' :: (more ++ rest)))))))) := by
      refine passesFields_readField (bs' ++ ',' :: (more ++ rest)) hbsk hkey
        (fun t ht => ?_) (fun s hs => ?_) ?_
      · rw [readValue_blank hbsv] at ht
        exact hv.rest _ _ t (by omega)
          (EndsNumber.blank hbs' (.cons rfl (by decide) (by decide) (by decide))) ht
      · rw [readValue_blank hbsv]
        exact hv.text s hs _ _ (by omega)
      · rw [readFields_blank hbs']
        exact ((ih fuel (by omega)).2 hne).mono
    simp only [List.append_assoc, List.cons_append]
    rw [readFields_first hbs, readFields_comma hbs]
    exact ⟨hfield, fun _ => hfield⟩

/-! ## Whole texts -/

/-- **The reader stops within the text of a value or goes on right behind it.** -/
theorem passes_laid (l : Layout) (depth : Nat) (v : Value) : Passes v (v.laid l depth) := by
  induction v using Value.induction generalizing depth with
  | leaf v hleaf =>
    cases v with
    | null => exact ScalarText.null.passes
    | bool b =>
      cases b with
      | true => exact ScalarText.true.passes
      | false => exact ScalarText.false.passes
    | int n => exact passes_int n
    | float f => exact passes_float f
    | str s => exact (ScalarText.string (stringText_stringChars true s)).passes
    | arr vs => cases hleaf
    | obj kvs => cases hleaf
  | arr vs ih =>
    obtain ⟨cs, hcs, hitems⟩ := exists_laid_arr l depth fun v hv => ih v hv (depth + 1)
    rw [hcs]
    refine ⟨⟨'[', _, rfl, by decide, by decide, by decide⟩, fun fuel rest r hfuel _ hread => ?_,
      by simp⟩
    rw [List.length_cons] at hfuel
    obtain ⟨fuel, rfl⟩ := Nat.exists_eq_add_one_of_ne_zero (n := fuel) (by omega)
    rw [List.cons_append, readValue_bracket] at hread
    exact (readItems_rest hitems fuel (by omega) rest r).1 hread
  | obj kvs ih =>
    obtain ⟨cs, hcs, hmembers⟩ := exists_laid_obj l depth fun kv hkv => ih kv hkv (depth + 1)
    rw [hcs]
    refine ⟨⟨'{', _, rfl, by decide, by decide, by decide⟩, fun fuel rest r hfuel _ hread => ?_,
      by simp⟩
    rw [List.length_cons] at hfuel
    obtain ⟨fuel, rfl⟩ := Nat.exists_eq_add_one_of_ne_zero (n := fuel) (by omega)
    rw [List.cons_append, readValue_brace] at hread
    exact (passesFields_readFields hmembers fuel (by omega) rest).1.rest r hread

/-- **What is read of a written object are members of it**, and its strings as they were. -/
theorem Doc.read_pretty_obj (kvs : Fields) : ∃ fields stop,
    (Doc.read (Value.obj kvs).pretty).1 = .obj fields stop ∧ ∀ x ∈ fields, ReadAmong kvs x := by
  have hpasses : ∀ kv ∈ kvs, Passes kv.2 (kv.2.laid .pretty 1) := fun kv _ =>
    passes_laid .pretty 1 kv.2
  obtain ⟨cs, hcs, hmembers⟩ := exists_laid_obj .pretty 0 hpasses
  have hchars : (Value.obj kvs).pretty.toList = '{' :: cs := by
    rw [Value.pretty, String.toList_ofList, Value.prettyChars_eq_laid, hcs]
  have hfields := (passesFields_readFields hmembers (3 * (cs.length + 1) + 2) (by omega) []).1
  rw [List.append_nil] at hfields
  refine ⟨_, (readFields (3 * (cs.length + 1) + 2) true cs).2.1, ?_, hfields.members⟩
  have hread := readValue_brace (3 * (cs.length + 1) + 2) cs
  rw [Doc.read, hchars, List.length_cons]
  simp only [hread]
  split <;> simp_all

end Enclave.Json
