import Enclave.Proofs.Script.Walk

/-!
# Where a walk arrives

A walk over a text follows the reader of literals: from the place where a value is about to be read
it comes to the place behind what the reader found, with the same containers open, or it ends with
the fault that the reader reports, at the same place (`Arrives`). The readers keep the text that is
left, and those that loop are given fuel; the walk keeps its place and stops by itself.

Here this is shown of strings with their escapes (`Extends`), of numbers and of names. A walk that
is sound where it begins stays so, and two of its points are never the same (`Precedes.ahead_lt`);
so one that ends does so within `Point.ahead` steps (`walk_of_ends`).
-/

namespace Enclave.Script.Literal

open Json (Value)

/-! ## Walks -/

/-- Some steps lead from one point to another. -/
def Leads (text : List Char) : Point → Point → Prop :=
  Relation.ReflTransGen fun p q => p.step text = .goOn q

/-- At least one step leads from one point to another. -/
def Precedes (text : List Char) : Point → Point → Prop :=
  Relation.TransGen fun p q => p.step text = .goOn q

/-- A walk from a point on ends with an answer. -/
def Ends (text : List Char) (p : Point) (a : Except (Nat × Fault) Value) : Prop :=
  ∃ q, Leads text p q ∧ q.step text = .answer a

/-- What so many steps lead to. -/
def walk (text : List Char) : Nat → Point → Move
  | 0, p => .goOn p
  | steps + 1, p =>
    match p.step text with
    | .goOn q => walk text steps q
    | end_ => end_

section Walks

variable {text : List Char} {p q : Point}

theorem Leads.sound (h : Leads text p q) (hp : Sound text p) : Sound text q ∧ p.pos ≤ q.pos := by
  induction h with
  | refl => exact ⟨hp, Nat.le_refl _⟩
  | tail _ hstep ih =>
    have hkeeps := step_keeps ih.1
    rw [hstep] at hkeeps
    exact ⟨hkeeps.1, Nat.le_trans ih.2 hkeeps.2.1⟩

theorem Precedes.ahead_lt (h : Precedes text p q) (hp : Sound text p) :
    q.ahead text < p.ahead text := by
  induction h with
  | single hstep =>
    have hkeeps := step_keeps hp
    rw [hstep] at hkeeps
    exact hkeeps.2.2
  | tail hbefore hstep ih =>
    have hkeeps := step_keeps (Leads.sound hbefore.to_reflTransGen hp).1
    rw [hstep] at hkeeps
    exact Nat.lt_trans hkeeps.2.2 ih

/-- A walk with so many steps before it at most ends within them. -/
theorem walk_of_ends {a : Except (Nat × Fault) Value} (h : Ends text p a) (hp : Sound text p)
    {steps : Nat} (hsteps : p.ahead text < steps) : walk text steps p = .answer a := by
  obtain ⟨q, hleads, hend⟩ := h
  induction hleads using Relation.ReflTransGen.head_induction_on generalizing steps with
  | refl =>
    obtain ⟨steps, rfl⟩ := Nat.exists_eq_add_one_of_ne_zero (Nat.ne_zero_of_lt hsteps)
    rw [walk, hend]
  | head hstep _ ih =>
    obtain ⟨steps, rfl⟩ := Nat.exists_eq_add_one_of_ne_zero (Nat.ne_zero_of_lt hsteps)
    have hkeeps := step_keeps hp
    rw [hstep] at hkeeps
    rw [walk, hstep]
    exact ih hkeeps.1 (by have hless := hkeeps.2.2; omega)

theorem Leads.ends {a : Except (Nat × Fault) Value} (h : Leads text p q) (hq : Ends text q a) :
    Ends text p a := by
  obtain ⟨r, hr, hend⟩ := hq
  exact ⟨r, h.trans hr, hend⟩

theorem ends_of_step {a : Except (Nat × Fault) Value} (h : p.step text = .answer a) :
    Ends text p a := ⟨p, .refl, h⟩

theorem step_of_not_skips (h : p.stage.skips = false) : p.step text = p.act text := by
  rw [Point.step, h, Bool.false_and, if_neg Bool.false_ne_true]

theorem step_of_not_blank (h : text[p.pos]?.any Text.isBlank = false) :
    p.step text = p.act text := by
  rw [Point.step, h, Bool.and_false, if_neg Bool.false_ne_true]

end Walks

/-! ## Arriving -/

/-- From a point on, a walk does what a reader found: it comes to the place behind the value, with
these containers open, or it ends with the same fault at the same place. -/
def Arrives {α : Type} (text : List Char) (p : Point) (depth : Nat) (waiting : List Waiting)
    (wrap : α → Value) : Step α → Prop
  | .ok (a, rest) => ∃ pos, p.pos < pos ∧ pos ≤ text.length ∧ rest = text.drop pos ∧
      Leads text p ⟨pos, depth, .back (wrap a), waiting⟩
  | .error (f, rest) => ∃ pos, pos ≤ text.length ∧ rest = text.drop pos ∧
      Ends text p (.error (pos, f))

section Arrives

variable {α β : Type} {text : List Char} {p q : Point} {depth depth' pos start : Nat}
  {waiting waiting' : List Waiting} {wrap : α → Value} {wrap' : β → Value}

theorem Arrives.of_leads {s : Step α} (h : Arrives text q depth waiting wrap s)
    (hleads : Leads text p q) (hpos : p.pos ≤ q.pos) : Arrives text p depth waiting wrap s := by
  rcases s with ⟨f, rest⟩ | ⟨a, rest⟩
  · obtain ⟨pos, hplace, hrest, hends⟩ := h
    exact ⟨pos, hplace, hrest, hleads.ends hends⟩
  · obtain ⟨pos, hmore, hplace, hrest, hback⟩ := h
    exact ⟨pos, Nat.lt_of_le_of_lt hpos hmore, hplace, hrest, hleads.trans hback⟩

/-- A walk that goes on with what a first reader found. -/
theorem Arrives.bind {s : Step α} {t : Step β} (h : Arrives text p depth waiting wrap s)
    (herror : ∀ e, s = .error e → t = .error e)
    (hok : ∀ a pos, p.pos < pos → pos ≤ text.length → s = .ok (a, text.drop pos) →
      Arrives text ⟨pos, depth, .back (wrap a), waiting⟩ depth' waiting' wrap' t) :
    Arrives text p depth' waiting' wrap' t := by
  rcases s with ⟨f, rest⟩ | ⟨a, rest⟩
  · rw [herror _ rfl]
    exact h
  · obtain ⟨pos, hmore, hplace, rfl, hback⟩ := h
    exact (hok a pos hmore hplace rfl).of_leads hback (Nat.le_of_lt hmore)

/-- A reader that only wraps what another one found. -/
theorem Arrives.map {s : Step α} {t : Step β} (h : Arrives text p depth waiting wrap s)
    (herror : ∀ e, s = .error e → t = .error e)
    (hok : ∀ a rest, s = .ok (a, rest) → ∃ b, t = .ok (b, rest) ∧ wrap' b = wrap a) :
    Arrives text p depth waiting wrap' t := by
  rcases s with ⟨f, rest⟩ | ⟨a, rest⟩
  · rw [herror _ rfl]
    exact h
  · obtain ⟨b, ht, hb⟩ := hok a rest rfl
    rw [ht]
    simpa only [Arrives, hb] using h

/-- A fault at the place of a point. -/
theorem arrives_fault {f : Fault} (hstep : p.step text = p.fault f) (hpos : p.pos ≤ text.length)
    {rest : List Char} (hrest : rest = text.drop p.pos) :
    Arrives text p depth waiting wrap (.error (f, rest)) :=
  ⟨p.pos, hpos, hrest, ends_of_step hstep⟩

/-- A value that a step gives back. -/
theorem arrives_back {a : α} (hstep : p.step text = .goOn ⟨pos, depth, .back (wrap a), waiting⟩)
    (hmore : p.pos < pos) (hpos : pos ≤ text.length) {rest : List Char}
    (hrest : rest = text.drop pos) : Arrives text p depth waiting wrap (.ok (a, rest)) :=
  ⟨pos, hmore, hpos, hrest, .single hstep⟩

theorem Arrives.of_step {s : Step α} (h : Arrives text q depth waiting wrap s)
    (hstep : p.step text = .goOn q) (hpos : p.pos ≤ q.pos) :
    Arrives text p depth waiting wrap s :=
  h.of_leads (.single hstep) hpos

/-! ## Texts by place -/

theorem getElem?_of_drop {c : Char} {cs : List Char} (h : text.drop pos = c :: cs) :
    text[pos]? = some c ∧ text.drop (pos + 1) = cs := by
  constructor
  · rw [← List.head?_drop, h]
    rfl
  · rw [← List.tail_drop, h]
    rfl

theorem drop_of_getElem? {c : Char} (h : text[pos]? = some c) :
    text.drop pos = c :: text.drop (pos + 1) := by
  obtain ⟨hlt, rfl⟩ := List.getElem?_eq_some_iff.mp h
  exact List.drop_eq_getElem_cons hlt

theorem getElem?_of_drop_nil (h : text.drop pos = []) : text[pos]? = none := by
  rw [← List.head?_drop, h]
  rfl

/-- Blanks are passed one by one. -/
theorem leads_skipBlank (depth : Nat) (waiting : List Waiting) {stage : Stage}
    (hskips : stage.skips = true) (hpos : pos ≤ text.length) :
    ∃ place, pos ≤ place ∧ place ≤ text.length ∧ text.drop place = skipBlank (text.drop pos) ∧
      text[place]?.any Text.isBlank = false ∧
      Leads text ⟨pos, depth, stage, waiting⟩ ⟨place, depth, stage, waiting⟩ := by
  induction hcs : text.drop pos generalizing pos with
  | nil =>
    refine ⟨pos, Nat.le_refl _, hpos, hcs, ?_, .refl⟩
    rw [getElem?_of_drop_nil hcs]
    rfl
  | cons c cs ih =>
    obtain ⟨hc, hrest⟩ := getElem?_of_drop hcs
    cases hblank : Text.isBlank c with
    | false =>
      refine ⟨pos, Nat.le_refl _, hpos, ?_, by rw [hc]; exact hblank, .refl⟩
      rw [hcs, skipBlank, List.dropWhile_cons_of_neg (by simp [hblank])]
    | true =>
      obtain ⟨place, hmore, hplace, hdrop, hend, hleads⟩ := ih (lt_of_getElem? hc) hrest
      refine ⟨place, Nat.le_of_succ_le hmore, hplace, ?_, hend, .head ?_ hleads⟩
      · rw [hdrop, skipBlank, skipBlank, List.dropWhile_cons_of_pos hblank]
      · simp [Point.step, hskips, hc, hblank]

/-- Behind the blanks a walk does the same as in front of them. -/
theorem Arrives.of_skipBlank {s : Step α} {stage : Stage} {opened : Nat} {outer : List Waiting}
    (hskips : stage.skips = true) (hpos : pos ≤ text.length)
    (h : ∀ place, pos ≤ place → place ≤ text.length →
      text.drop place = skipBlank (text.drop pos) → text[place]?.any Text.isBlank = false →
      Arrives text ⟨place, opened, stage, outer⟩ depth waiting wrap s) :
    Arrives text ⟨pos, opened, stage, outer⟩ depth waiting wrap s := by
  obtain ⟨place, hmore, hplace, hdrop, hblank, hskip⟩ := leads_skipBlank opened outer hskips hpos
  exact (h place hmore hplace hdrop hblank).of_leads hskip hmore

/-! ## Strings -/

variable {quote c : Char} {found : List Char} {fuel count : Nat}

theorem escape_plain (h : digitCount? c = none) (rest : List Char) :
    escape (c :: rest) = .ok (plainEscape c, rest) := by
  unfold escape
  dsimp only
  split
  case h_8 => cases h
  case h_9 => cases h
  case h_10 => cases h
  case h_11 => simp [plainEscape, escape, *]
  all_goals rfl

theorem escape_digits (h : digitCount? c = some count) (rest : List Char) :
    escape (c :: rest) = (hexEscape count rest).map fun r => ([r.1], r.2) := by
  unfold digitCount? at h
  split at h <;> cases h <;> rfl

theorem drop_add_of_room (h : pos + count ≤ text.length) :
    ((text.drop pos).take count).length = count ∧
      part? text pos (pos + count) = some ((text.drop pos).take count) := by
  constructor
  · rw [List.length_take, List.length_drop]
    omega
  · rw [part?_eq_some (Nat.le_add_right _ _) h, List.drop_take, Nat.add_sub_cancel_left]

/-- From a point inside a string on, a walk adds to the string what a reader found, or it ends with
the same fault at the same place. -/
def Extends (text : List Char) (p : Point) (quote : Char) (found : List Char) :
    Step (List Char) → Prop
  | .ok (more, rest) => ∃ pos, p.pos ≤ pos ∧ pos ≤ text.length ∧ rest = text.drop pos ∧
      Leads text p ⟨pos, p.depth, .string quote (more.reverse ++ found), p.waiting⟩
  | .error (f, rest) => ∃ pos, pos ≤ text.length ∧ rest = text.drop pos ∧
      Ends text p (.error (pos, f))

theorem digits_extend (hpos : pos ≤ text.length) :
    Extends text ⟨pos, depth, .digits quote found count, waiting⟩ quote found
      ((hexEscape count (text.drop pos)).map fun r => ([r.1], r.2)) := by
  have hact : Point.step text ⟨pos, depth, .digits quote found count, waiting⟩
      = Point.readDigits text ⟨pos, depth, .digits quote found count, waiting⟩ quote found count :=
    step_of_not_skips rfl
  rw [Point.readDigits] at hact
  simp only at hact
  rw [hexEscape]
  rcases Nat.lt_or_ge text.length (pos + count) with hshort | hroom
  · have hfew : ((text.drop pos).take count).length < count := by
      rw [List.length_take, List.length_drop]
      omega
    rw [if_pos hshort] at hact
    rw [if_pos hfew]
    exact ⟨pos, hpos, rfl, ends_of_step hact⟩
  · obtain ⟨hlength, hpart⟩ := drop_add_of_room hroom
    rw [if_neg (Nat.not_lt.mpr hroom), hpart] at hact
    rw [if_neg (Nat.not_lt.mpr (Nat.le_of_eq hlength.symm)), List.drop_drop]
    simp only at hact
    cases hcode : codePoint? ((text.drop pos).take count) with
    | none =>
      rw [hcode] at hact
      exact ⟨pos + count, hroom, rfl, ends_of_step hact⟩
    | some d =>
      rw [hcode] at hact
      exact ⟨pos + count, Nat.le_add_right _ _, hroom, rfl, .single hact⟩

theorem Extends.of_step {s : Step (List Char)} (h : Extends text q quote found s)
    (hstep : p.step text = .goOn q) (hpos : p.pos ≤ q.pos) (hdepth : q.depth = p.depth)
    (hwaiting : q.waiting = p.waiting) : Extends text p quote found s := by
  rcases s with ⟨f, rest⟩ | ⟨more, rest⟩
  · obtain ⟨pos, hplace, hrest, hends⟩ := h
    exact ⟨pos, hplace, hrest, Leads.ends (.single hstep) hends⟩
  · obtain ⟨pos, hmore, hplace, hrest, hleads⟩ := h
    rw [hdepth, hwaiting] at hleads
    exact ⟨pos, Nat.le_trans hpos hmore, hplace, hrest, .head hstep hleads⟩

theorem escape_extends (hpos : pos ≤ text.length) :
    Extends text ⟨pos, depth, .escape quote found, waiting⟩ quote found
      (escape (text.drop pos)) := by
  have hact : Point.step text ⟨pos, depth, .escape quote found, waiting⟩
      = Point.readEscape text ⟨pos, depth, .escape quote found, waiting⟩ quote found :=
    step_of_not_skips rfl
  cases hcs : text.drop pos with
  | nil =>
    rw [Point.readEscape, getElem?_of_drop_nil hcs] at hact
    exact ⟨pos, hpos, hcs.symm, ends_of_step hact⟩
  | cons c rest =>
    obtain ⟨hc, rfl⟩ := getElem?_of_drop hcs
    have hlt := lt_of_getElem? hc
    rw [Point.readEscape, hc] at hact
    simp only at hact
    cases hdigits : digitCount? c with
    | none =>
      rw [hdigits] at hact
      rw [escape_plain hdigits]
      exact ⟨pos + 1, Nat.le_succ pos, hlt, rfl, .single hact⟩
    | some count =>
      rw [hdigits] at hact
      rw [escape_digits hdigits]
      exact (digits_extend hlt).of_step hact (Nat.le_succ pos) rfl rfl

theorem string_arrives (hpos : pos ≤ text.length) (hfuel : text.length - pos < fuel) :
    Arrives text ⟨pos, depth, .string quote found, waiting⟩ depth waiting Value.str
      (stringBehind quote fuel found (text.drop pos)) := by
  induction fuel generalizing pos found with
  | zero => omega
  | succ fuel ih =>
    have hact : Point.step text ⟨pos, depth, .string quote found, waiting⟩
        = Point.turnString text ⟨pos, depth, .string quote found, waiting⟩ quote found :=
      step_of_not_skips rfl
    cases hcs : text.drop pos with
    | nil =>
      rw [Point.turnString, getElem?_of_drop_nil hcs] at hact
      exact arrives_fault hact hpos hcs.symm
    | cons c rest =>
      obtain ⟨hc, rfl⟩ := getElem?_of_drop hcs
      have hlt := lt_of_getElem? hc
      rw [Point.turnString, hc] at hact
      simp only at hact
      rw [stringBehind]
      split
      · rename_i hquote
        rw [if_pos hquote] at hact
        exact arrives_back hact (Nat.lt_succ_self pos) hlt rfl
      rename_i hquote
      rw [if_neg hquote] at hact
      split
      · rename_i hbackslash
        rw [if_pos hbackslash] at hact
        have hextends : Extends text ⟨pos + 1, depth, .escape quote found, waiting⟩ quote found
            (escape (text.drop (pos + 1))) := escape_extends hlt
        rcases hescape : escape (text.drop (pos + 1)) with ⟨f, rest⟩ | ⟨more, rest⟩ <;>
          rw [hescape] at hextends
        · obtain ⟨place, hplace, hrest, hends⟩ := hextends
          exact ⟨place, hplace, hrest, Leads.ends (.single hact) hends⟩
        · obtain ⟨place, hmore, hplace, rfl, hleads⟩ := hextends
          simp only at hmore
          exact (ih hplace (by omega)).of_leads (.head hact hleads) (Nat.le_of_succ_le hmore)
      · rename_i hbackslash
        rw [if_neg hbackslash] at hact
        exact (ih hlt (by omega)).of_step hact (Nat.le_succ pos)

/-! ## Numbers -/

theorem part_concat (hstart : start ≤ pos) (hc : text[pos]? = some c) :
    (text.take (pos + 1)).drop start = (text.take pos).drop start ++ [c] := by
  have hlt := lt_of_getElem? hc
  rw [List.take_add_one, hc, Option.toList_some,
    List.drop_append_of_le_length (by rw [List.length_take]; omega)]

/-- What was read last stands in front of the place. -/
theorem head?_of_part (hfound : found.reverse = (text.take (pos + 1)).drop start)
    (hstart : start ≤ pos) (hpos : pos + 1 ≤ text.length) : found.head? = text[pos]? := by
  have hc : text[pos]? = some text[pos] := List.getElem?_eq_getElem hpos
  rw [part_concat hstart hc] at hfound
  rw [← List.getLast?_reverse, hfound, List.getLast?_concat, hc]

/-- Whether a number goes on with a character, by the one in front of it. -/
def goesOn (before : Option Char) (c : Char) : Bool :=
  if c = '+' ∨ c = '-' then before == some 'e' || before == some 'E'
  else c.isAlphanum || c == '.' || c == '_'

theorem numeral_cons (found : List Char) (c : Char) (rest : List Char) :
    numeral found (c :: rest) =
      if goesOn found.head? c then numeral (c :: found) rest else (found.reverse, c :: rest) := by
  rw [numeral, goesOn]
  by_cases hsign : c = '+' ∨ c = '-'
  · have htest : (c == '+' || c == '-') = true := by simpa using hsign
    simp [hsign, htest]
  · have htest : (c == '+' || c == '-') = false := by simpa using hsign
    simp [hsign, htest]

/-- The value of the text of a number, in front of a rest. -/
def numberOf (part rest : List Char) : Step Value :=
  match numeralValue? (part.filter (· != '_')) with
  | some v => .ok (v, rest)
  | none => .error (.badNumber (String.ofList (part.filter (· != '_'))), rest)

/-- The first character of a number belongs to it. -/
theorem number_eq (hc : c = '-' ∨ c = '+' ∨ c.isDigit = true) (rest : List Char) :
    number (c :: rest) = numberOf (numeral [c] rest).1 (numeral [c] rest).2 := by
  rcases hc with rfl | rfl | hdigit
  · rfl
  · rfl
  · have hminus : c ≠ '-' := by
      rintro rfl
      cases hdigit
    have hplus : c ≠ '+' := by
      rintro rfl
      cases hdigit
    have hfirst : numeral [] (c :: rest) = numeral [c] rest := by
      rw [numeral_cons, if_pos]
      simp [goesOn, hminus, hplus, Char.isAlphanum, hdigit]
    cases hvalue : numeralValue? ((numeral [c] rest).1.filter (· != '_')) <;>
      simp only [number, numberOf, List.cons.injEq, hminus, hplus, hfirst, hvalue, false_and,
        imp_self, implies_true]

theorem step_number (hc : text[pos]? = some c) {before : Nat} (hpos : pos = before + 1) :
    Point.step text ⟨pos, depth, .number start, waiting⟩ =
      if goesOn text[before]? c then .goOn ⟨pos + 1, depth, .number start, waiting⟩
      else Point.endNumber text ⟨pos, depth, .number start, waiting⟩ start := by
  subst hpos
  rw [step_of_not_skips rfl]
  change Point.turnNumber text ⟨before + 1, depth, .number start, waiting⟩ start = _
  rw [Point.turnNumber, hc, goesOn]
  by_cases hsign : c = '+' ∨ c = '-'
  · simp [hsign, Nat.ppred]
  · simp [hsign]

theorem step_number_digit (hc : text[pos]? = some c) (hdigit : c.isDigit = true) :
    Point.step text ⟨pos, depth, .number start, waiting⟩
      = .goOn ⟨pos + 1, depth, .number start, waiting⟩ := by
  have hsign : ¬(c = '+' ∨ c = '-') := by
    rintro (rfl | rfl) <;> cases hdigit
  rw [step_of_not_skips rfl]
  simp [Point.act, Point.turnNumber, hc, hsign, Char.isAlphanum, hdigit]

/-- A walk takes what belongs to a number, and no more. -/
theorem leads_numeral (depth : Nat) (waiting : List Waiting) (hpos : pos ≤ text.length)
    (hstart : start < pos) (hfound : found.reverse = (text.take pos).drop start) :
    ∃ place, pos ≤ place ∧ place ≤ text.length ∧
      numeral found (text.drop pos) = ((text.take place).drop start, text.drop place) ∧
      Leads text ⟨pos, depth, .number start, waiting⟩ ⟨place, depth, .number start, waiting⟩ ∧
      Point.step text ⟨place, depth, .number start, waiting⟩
        = Point.endNumber text ⟨place, depth, .number start, waiting⟩ start := by
  induction hcs : text.drop pos generalizing pos found with
  | nil =>
    refine ⟨pos, Nat.le_refl _, hpos, by rw [numeral, hfound, hcs], .refl, ?_⟩
    rw [step_of_not_skips rfl]
    change Point.turnNumber text ⟨pos, depth, .number start, waiting⟩ start = _
    rw [Point.turnNumber, getElem?_of_drop_nil hcs]
  | cons c rest ih =>
    obtain ⟨hc, hrest⟩ := getElem?_of_drop hcs
    obtain ⟨before, rfl⟩ := Nat.exists_eq_add_one_of_ne_zero (Nat.ne_zero_of_lt hstart)
    have hstep : Point.step text ⟨before + 1, depth, .number start, waiting⟩ = _ :=
      step_number hc rfl
    rw [numeral_cons, head?_of_part hfound (Nat.le_of_lt_succ hstart) hpos]
    split
    · rename_i hon
      rw [if_pos hon] at hstep
      have hpart : (c :: found).reverse = (text.take (before + 1 + 1)).drop start := by
        rw [part_concat (Nat.le_of_lt hstart) hc, ← hfound, List.reverse_cons]
      obtain ⟨place, hmore, hplace, hnumeral, hleads, hend⟩ :=
        ih (lt_of_getElem? hc) (Nat.lt_succ_of_lt hstart) hpart hrest
      exact ⟨place, Nat.le_of_succ_le hmore, hplace, hnumeral, .head hstep hleads, hend⟩
    · rename_i hon
      rw [if_neg hon] at hstep
      exact ⟨before + 1, Nat.le_refl _, hpos, by rw [hfound, hcs], .refl, hstep⟩

theorem number_arrives (hc : text[pos]? = some c) (hkind : c = '-' ∨ c = '+' ∨ c.isDigit = true)
    (hfirst : Leads text p ⟨pos + 1, depth, .number pos, waiting⟩) (hpos : p.pos = pos) :
    Arrives text p depth waiting id (number (text.drop pos)) := by
  have hlt := lt_of_getElem? hc
  have hpart : [c].reverse = (text.take (pos + 1)).drop pos := by
    rw [part_concat (Nat.le_refl _) hc, List.drop_take_self]
    rfl
  obtain ⟨place, hmore, hplace, hnumeral, hleads, hend⟩ :=
    leads_numeral depth waiting hlt (Nat.lt_succ_self pos) hpart
  rw [drop_of_getElem? hc, number_eq hkind, hnumeral, numberOf]
  rw [Point.endNumber, part?_eq_some (Nat.le_of_succ_le hmore) hplace] at hend
  simp only at hend ⊢
  cases hvalue : numeralValue? (((text.take place).drop pos).filter (· != '_')) with
  | none =>
    rw [hvalue] at hend
    exact ⟨place, hplace, rfl, hfirst.ends (hleads.ends (ends_of_step hend))⟩
  | some v =>
    rw [hvalue] at hend
    exact ⟨place, by omega, hplace, rfl, (hfirst.trans hleads).trans (.single hend)⟩

/-! ## Names -/

/-- The value of a name, in front of a rest. -/
def namedOf (name rest : List Char) : Step Value :=
  match named? (String.ofList name) with
  | some v => .ok (v, rest)
  | none => .error (.unknownName (String.ofList name), rest)

theorem namedValue_eq (cs : List Char) :
    namedValue cs = namedOf (cs.takeWhile isNamePart) (cs.dropWhile isNamePart) := by
  unfold namedValue namedOf
  simp only
  generalize String.ofList (cs.takeWhile isNamePart) = name
  split
  case h_6 => simp [named?, *]
  all_goals rfl

theorem leads_name (depth : Nat) (waiting : List Waiting) (hpos : pos ≤ text.length)
    (hstart : start ≤ pos) :
    ∃ place, pos ≤ place ∧ place ≤ text.length ∧
      (text.take place).drop start
        = (text.take pos).drop start ++ (text.drop pos).takeWhile isNamePart ∧
      text.drop place = (text.drop pos).dropWhile isNamePart ∧
      Leads text ⟨pos, depth, .name start, waiting⟩ ⟨place, depth, .name start, waiting⟩ ∧
      text[place]?.any isNamePart = false := by
  induction hcs : text.drop pos generalizing pos with
  | nil =>
    refine ⟨pos, Nat.le_refl _, hpos, by simp, hcs, .refl, ?_⟩
    rw [getElem?_of_drop_nil hcs]
    rfl
  | cons c rest ih =>
    obtain ⟨hc, hrest⟩ := getElem?_of_drop hcs
    cases hpart : isNamePart c with
    | false =>
      refine ⟨pos, Nat.le_refl _, hpos, ?_, ?_, .refl, by rw [hc]; exact hpart⟩
      · simp [hpart]
      · simp [hpart, hcs]
    | true =>
      obtain ⟨place, hmore, hplace, hname, hbehind, hleads, hend⟩ :=
        ih (lt_of_getElem? hc) (Nat.le_succ_of_le hstart) hrest
      refine ⟨place, Nat.le_of_succ_le hmore, hplace, ?_, ?_, .head ?_ hleads, hend⟩
      · rw [hname, part_concat hstart hc, List.takeWhile_cons_of_pos hpart]
        simp
      · rw [hbehind, List.dropWhile_cons_of_pos hpart]
      · rw [step_of_not_skips rfl]
        simp [Point.act, Point.turnName, hc, hpart]

theorem name_arrives (hc : text[pos]? = some c) (halpha : c.isAlpha = true)
    (hfirst : Leads text p ⟨pos, depth, .name pos, waiting⟩) (hpos : p.pos = pos) :
    Arrives text p depth waiting id (namedValue (text.drop pos)) := by
  have hlt := lt_of_getElem? hc
  have hpart : isNamePart c = true := by simp [isNamePart, Char.isAlphanum, halpha]
  obtain ⟨place, hmore, hplace, hname, hbehind, hleads, hend⟩ :=
    leads_name depth waiting (Nat.le_of_lt hlt) (Nat.le_refl pos)
  have hstep : Point.step text ⟨place, depth, .name pos, waiting⟩
      = Point.turnName text ⟨place, depth, .name pos, waiting⟩ pos := step_of_not_skips rfl
  rw [List.drop_take_self, List.nil_append] at hname
  have hnonempty : pos < place := by
    refine Nat.lt_of_le_of_ne hmore fun hsame => ?_
    rw [← hsame, hc] at hend
    exact absurd hpart (Bool.eq_false_iff.mp hend)
  rw [Point.turnName, if_neg (by simp [hend]), part?_eq_some hmore hplace] at hstep
  rw [namedValue_eq, ← hname, ← hbehind, namedOf]
  simp only at hstep ⊢
  cases hvalue : named? (String.ofList ((text.take place).drop pos)) with
  | none =>
    rw [hvalue] at hstep
    exact ⟨place, hplace, rfl, hfirst.ends (hleads.ends (ends_of_step hstep))⟩
  | some v =>
    rw [hvalue] at hstep
    exact ⟨place, by omega, hplace, rfl, (hfirst.trans hleads).trans (.single hstep)⟩

end Arrives

end Enclave.Script.Literal
