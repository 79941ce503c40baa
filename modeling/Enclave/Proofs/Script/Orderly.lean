import Enclave.Proofs.Script.Arrival

/-!
# Whole walks

The readers of values, mappings and sequences call each other, so that a walk follows them is shown
of the three at once, by their fuel (`ReadsAlong`). A walk over a whole text therefore ends with
what `read` says of it, and what every step keeps holds of every point that the reader comes to.
`Orderly` puts this together: the text is not left; a value that is read takes a character and
leaves as many containers open as before; every turn of a loop takes a character, or the next one
gives the container back.
-/

namespace Enclave.Script.Literal

open Json (Value)

/-! ## Containers -/

/-- What is read behind the value of a member. -/
def behindMember (fuel depth : Nat) (found : List (String × Value)) (cs : List Char) :
    Step (List (String × Value)) :=
  match skipBlank cs with
  | ',' :: rest => members fuel depth found rest
  | '}' :: rest => .ok (found.reverse, rest)
  | rest => .error (.mappingEnd, rest)

/-- What is read behind the key of a member. -/
def behindKey (fuel depth : Nat) (found : List (String × Value)) (key : String) (cs : List Char) :
    Step (List (String × Value)) :=
  match skipBlank cs with
  | ':' :: rest =>
    match value fuel depth rest with
    | .error e => .error e
    | .ok (v, rest) => behindMember fuel depth ((key, v) :: found) rest
  | rest => .error (.expected ':', rest)

/-- What is read behind an item. -/
def behindItem (fuel depth : Nat) (close : Char) (found : List Value) (cs : List Char) :
    Step (List Value) :=
  match skipBlank cs with
  | ',' :: rest => items fuel depth close found rest
  | c :: rest => if c = close then .ok (found.reverse, rest) else .error (.sequenceEnd, c :: rest)
  | [] => .error (.sequenceEnd, [])

theorem members_succ (fuel depth : Nat) (found : List (String × Value)) (cs : List Char) :
    members (fuel + 1) depth found cs =
      match skipBlank cs with
      | '}' :: rest => .ok (found.reverse, rest)
      | cs =>
        match value fuel depth cs with
        | .error e => .error e
        | .ok (.str key, rest) => behindKey fuel depth found key rest
        | .ok (_, rest) => .error (.keyNoString, rest) := by
  rw [members]
  rfl

theorem items_succ (fuel depth : Nat) (close : Char) (found : List Value) (cs : List Char) :
    items (fuel + 1) depth close found cs =
      match skipBlank cs with
      | [] => .error (.noValue, [])
      | c :: rest =>
        if c = close then .ok (found.reverse, rest)
        else
          match value fuel depth (c :: rest) with
          | .error e => .error e
          | .ok (v, rest) => behindItem fuel depth close (v :: found) rest := by
  rw [items]
  rfl

/-- What the readers of values and containers find, with so many steps left, a walk does. -/
structure ReadsAlong (text : List Char) (fuel : Nat) : Prop where
  value : ∀ pos depth waiting, pos ≤ text.length → 2 * (text.length - pos) + 2 ≤ fuel →
    Arrives text ⟨pos, depth, .value, waiting⟩ depth waiting id (value fuel depth (text.drop pos))
  members : ∀ pos depth waiting found, pos ≤ text.length → 2 * (text.length - pos) + 3 ≤ fuel →
    Arrives text ⟨pos, depth + 1, .mapping found, waiting⟩ depth waiting Value.object
      (members fuel (depth + 1) found (text.drop pos))
  items : ∀ pos depth waiting close found, pos ≤ text.length →
    2 * (text.length - pos) + 3 ≤ fuel →
    Arrives text ⟨pos, depth + 1, .sequence close found, waiting⟩ depth waiting Value.arr
      (items fuel (depth + 1) close found (text.drop pos))

section Containers

variable {text : List Char} {depth pos fuel : Nat} {waiting : List Waiting} {close : Char}
  {kvs : List (String × Value)} {vs : List Value}

/-- A turn at the bracket that closes a mapping gives it back. -/
theorem step_mapping_close (hc : text[pos]? = some '}') :
    Point.step text ⟨pos, depth + 1, .mapping kvs, waiting⟩
      = .goOn ⟨pos + 1, depth, .back (.object kvs.reverse), waiting⟩ := by
  rw [step_of_not_blank (by rw [hc]; rfl)]
  exact if_pos hc

/-- A turn at the bracket that closes a list or tuple gives it back. -/
theorem step_sequence_close (hblank : text[pos]?.any Text.isBlank = false)
    (hc : text[pos]? = some close) :
    Point.step text ⟨pos, depth + 1, .sequence close vs, waiting⟩
      = .goOn ⟨pos + 1, depth, .back (.arr vs.reverse), waiting⟩ := by
  rw [step_of_not_blank hblank]
  exact if_pos hc

variable (ih : ReadsAlong text fuel) (hpos : pos ≤ text.length)
include ih hpos

theorem behindMember_arrives (hfuel : 2 * (text.length - pos) + 1 ≤ fuel) :
    Arrives text ⟨pos, depth + 1, .behindMember kvs, waiting⟩ depth waiting Value.object
      (behindMember fuel (depth + 1) kvs (text.drop pos)) := by
  refine Arrives.of_skipBlank rfl hpos fun place hmore hplace hdrop hblank => ?_
  have hact : Point.step text ⟨place, depth + 1, .behindMember kvs, waiting⟩
      = Point.endMember text ⟨place, depth + 1, .behindMember kvs, waiting⟩ kvs :=
    step_of_not_blank hblank
  rw [Point.endMember] at hact
  rw [behindMember, ← hdrop]
  split
  · rename_i rest hcs
    obtain ⟨hc, rfl⟩ := getElem?_of_drop hcs
    have hlt := lt_of_getElem? hc
    simp only [hc] at hact
    exact (ih.members (place + 1) depth waiting kvs hlt (by omega)).of_step hact
      (Nat.le_succ place)
  · rename_i rest hcs
    obtain ⟨hc, rfl⟩ := getElem?_of_drop hcs
    have hlt := lt_of_getElem? hc
    simp only [hc] at hact
    -- The bracket is left to one more turn, which takes it.
    exact ⟨place + 1, Nat.lt_succ_self place, hlt, rfl,
      .head hact (.single (step_mapping_close hc))⟩
  · rename_i hcomma hbrace
    refine arrives_fault (hact.trans ?_) hplace rfl
    split
    · rename_i hc
      exact absurd (drop_of_getElem? hc) (hcomma _)
    · rename_i hc
      exact absurd (drop_of_getElem? hc) (hbrace _)
    · rfl

theorem behindKey_arrives {key : String} (hfuel : 2 * (text.length - pos) ≤ fuel) :
    Arrives text ⟨pos, depth + 1, .colon kvs key, waiting⟩ depth waiting Value.object
      (behindKey fuel (depth + 1) kvs key (text.drop pos)) := by
  refine Arrives.of_skipBlank rfl hpos fun place hmore hplace hdrop hblank => ?_
  have hact : Point.step text ⟨place, depth + 1, .colon kvs key, waiting⟩
      = Point.readColon text ⟨place, depth + 1, .colon kvs key, waiting⟩ kvs key :=
    step_of_not_blank hblank
  rw [Point.readColon] at hact
  rw [behindKey, ← hdrop]
  split
  · rename_i rest hcs
    obtain ⟨hc, rfl⟩ := getElem?_of_drop hcs
    have hlt := lt_of_getElem? hc
    rw [if_pos hc] at hact
    have hvalue := (ih.value (place + 1) (depth + 1) (.member kvs key :: waiting) hlt
      (by omega)).of_step hact (Nat.le_succ place)
    refine hvalue.bind (fun e he => by rw [he]) fun v behind hbehind hend hread => ?_
    rw [hread]
    have hback : Point.step text ⟨behind, depth + 1, .back v, .member kvs key :: waiting⟩
        = .goOn ⟨behind, depth + 1, .behindMember ((key, v) :: kvs), waiting⟩ :=
      step_of_not_skips rfl
    simp only at hbehind
    exact (behindMember_arrives ih hend (by omega)).of_step hback (Nat.le_refl behind)
  · rename_i hcolon
    refine arrives_fault (hact.trans (if_neg fun hc => ?_)) hplace rfl
    exact hcolon _ (drop_of_getElem? hc)

theorem behindItem_arrives (hfuel : 2 * (text.length - pos) + 1 ≤ fuel) :
    Arrives text ⟨pos, depth + 1, .behindItem close vs, waiting⟩ depth waiting Value.arr
      (behindItem fuel (depth + 1) close vs (text.drop pos)) := by
  refine Arrives.of_skipBlank rfl hpos fun place hmore hplace hdrop hblank => ?_
  have hact : Point.step text ⟨place, depth + 1, .behindItem close vs, waiting⟩
      = Point.endItem text ⟨place, depth + 1, .behindItem close vs, waiting⟩ close vs :=
    step_of_not_blank hblank
  rw [Point.endItem] at hact
  rw [behindItem, ← hdrop]
  split
  · rename_i rest hcs
    obtain ⟨hc, rfl⟩ := getElem?_of_drop hcs
    have hlt := lt_of_getElem? hc
    rw [if_pos hc] at hact
    exact (ih.items (place + 1) depth waiting close vs hlt (by omega)).of_step hact
      (Nat.le_succ place)
  · rename_i c rest hcomma hcs
    obtain ⟨hc, rfl⟩ := getElem?_of_drop hcs
    have hlt := lt_of_getElem? hc
    have hno : text[place]? ≠ some ',' := by
      rw [hc]
      rintro ⟨⟩
      exact hcomma rfl
    rw [if_neg hno, hc] at hact
    split
    · rename_i hclose
      subst hclose
      rw [if_pos rfl] at hact
      exact ⟨place + 1, Nat.lt_succ_self place, hlt, rfl,
        .head hact (.single (step_sequence_close hblank hc))⟩
    · rename_i hclose
      refine arrives_fault (hact.trans (if_neg ?_)) hplace hcs.symm
      simpa using hclose
  · rename_i hcs
    rw [getElem?_of_drop_nil hcs] at hact
    exact arrives_fault hact hplace hcs.symm

theorem members_arrive (hfuel : 2 * (text.length - pos) + 3 ≤ fuel + 1) :
    Arrives text ⟨pos, depth + 1, .mapping kvs, waiting⟩ depth waiting Value.object
      (members (fuel + 1) (depth + 1) kvs (text.drop pos)) := by
  refine Arrives.of_skipBlank rfl hpos fun place hmore hplace hdrop hblank => ?_
  have hact : Point.step text ⟨place, depth + 1, .mapping kvs, waiting⟩
      = Point.turnMapping text ⟨place, depth + 1, .mapping kvs, waiting⟩ kvs :=
    step_of_not_blank hblank
  rw [Point.turnMapping] at hact
  rw [members_succ, ← hdrop]
  split
  · rename_i rest hcs
    obtain ⟨hc, rfl⟩ := getElem?_of_drop hcs
    exact arrives_back (step_mapping_close hc) (Nat.lt_succ_self place) (lt_of_getElem? hc) rfl
  · rename_i hbrace
    rw [if_neg fun hc => hbrace _ (drop_of_getElem? hc)] at hact
    have hkey := (ih.value place (depth + 1) (.key kvs :: waiting) hplace (by omega)).of_step hact
      (Nat.le_refl place)
    refine hkey.bind (fun e he => by rw [he]) fun v behind hbehind hend hread => ?_
    rw [hread]
    have hback : Point.step text ⟨behind, depth + 1, .back v, .key kvs :: waiting⟩
        = Point.giveBack ⟨behind, depth + 1, .back v, .key kvs :: waiting⟩ v :=
      step_of_not_skips rfl
    simp only at hbehind
    cases v with
    | str key =>
      exact (behindKey_arrives ih hend (by omega)).of_step hback (Nat.le_refl behind)
    | _ => exact arrives_fault hback hend rfl

theorem items_arrive (hfuel : 2 * (text.length - pos) + 3 ≤ fuel + 1) :
    Arrives text ⟨pos, depth + 1, .sequence close vs, waiting⟩ depth waiting Value.arr
      (items (fuel + 1) (depth + 1) close vs (text.drop pos)) := by
  refine Arrives.of_skipBlank rfl hpos fun place hmore hplace hdrop hblank => ?_
  have hact : Point.step text ⟨place, depth + 1, .sequence close vs, waiting⟩
      = Point.turnSequence text ⟨place, depth + 1, .sequence close vs, waiting⟩ close vs :=
    step_of_not_blank hblank
  rw [Point.turnSequence] at hact
  have hitem := ih.value place (depth + 1) (.item close vs :: waiting) hplace (by omega)
  rw [items_succ, ← hdrop]
  split
  · -- At the end of the text a value is missed.
    rename_i hcs
    rw [getElem?_of_drop_nil hcs, if_neg (by simp)] at hact
    have hbegin : Point.step text ⟨place, depth + 1, .value, .item close vs :: waiting⟩
        = Point.begin text ⟨place, depth + 1, .value, .item close vs :: waiting⟩ :=
      step_of_not_blank hblank
    rw [Point.begin, getElem?_of_drop_nil hcs] at hbegin
    exact ⟨place, hplace, hcs.symm, Leads.ends (.single hact) (ends_of_step hbegin)⟩
  · rename_i c rest hcs
    obtain ⟨hc, rfl⟩ := getElem?_of_drop hcs
    split
    · rename_i hclose
      subst hclose
      exact arrives_back (step_sequence_close hblank hc) (Nat.lt_succ_self place)
        (lt_of_getElem? hc) rfl
    · rename_i hclose
      rw [if_neg (by simpa [hc] using hclose)] at hact
      rw [← hcs]
      refine (hitem.of_step hact (Nat.le_refl place)).bind (fun e he => by rw [he])
        fun v behind hbehind hend hread => ?_
      rw [hread]
      have hback : Point.step text ⟨behind, depth + 1, .back v, .item close vs :: waiting⟩
          = .goOn ⟨behind, depth + 1, .behindItem close (v :: vs), waiting⟩ :=
        step_of_not_skips rfl
      simp only at hbehind
      exact (behindItem_arrives ih hend (by omega)).of_step hback (Nat.le_refl behind)

theorem value_arrives (hfuel : 2 * (text.length - pos) + 2 ≤ fuel + 1) :
    Arrives text ⟨pos, depth, .value, waiting⟩ depth waiting id
      (value (fuel + 1) depth (text.drop pos)) := by
  refine Arrives.of_skipBlank rfl hpos fun place hmore hplace hdrop hblank => ?_
  have hact : Point.step text ⟨place, depth, .value, waiting⟩
      = Point.begin text ⟨place, depth, .value, waiting⟩ := step_of_not_blank hblank
  rw [Point.begin] at hact
  rw [value, ← hdrop]
  split
  · rename_i hcs
    rw [getElem?_of_drop_nil hcs] at hact
    exact arrives_fault hact hplace hcs.symm
  rename_i c rest hcs
  obtain ⟨hc, rfl⟩ := getElem?_of_drop hcs
  have hlt := lt_of_getElem? hc
  rw [hc] at hact
  simp only at hact
  split
  · rename_i hopens
    rw [if_pos hopens] at hact
    split
    · rename_i hdeep
      rw [if_pos hdeep] at hact
      exact arrives_fault hact hplace hcs.symm
    rename_i hroom
    rw [if_neg hroom] at hact
    split
    · rename_i hbrace
      rw [if_pos hbrace] at hact
      refine ((ih.members (place + 1) depth waiting [] hlt (by omega)).of_step hact
        (Nat.le_succ place)).map (fun e he => by rw [he]) fun kvs rest hread => ?_
      exact ⟨.object kvs, by rw [hread], rfl⟩
    · rename_i hbrace
      rw [if_neg hbrace] at hact
      refine ((ih.items (place + 1) depth waiting _ [] hlt (by omega)).of_step hact
        (Nat.le_succ place)).map (fun e he => by rw [he]) fun vs rest hread => ?_
      exact ⟨.arr vs, by rw [hread], rfl⟩
  rename_i hopens
  rw [if_neg hopens] at hact
  split
  · rename_i hquote
    rw [if_pos hquote] at hact
    have hstring : Arrives text ⟨place + 1, depth, .string c [], waiting⟩ depth waiting Value.str
        (string c (text.drop (place + 1))) :=
      string_arrives hlt (by rw [List.length_drop]; omega)
    refine (hstring.of_step hact (Nat.le_succ place)).map (fun e he => by rw [he])
      fun s rest hread => ?_
    exact ⟨.str s, by rw [hread], rfl⟩
  rename_i hquote
  rw [if_neg hquote] at hact
  split
  · rename_i hkind
    rw [← hcs]
    refine number_arrives hc hkind ?_ rfl
    by_cases hsign : c = '-' ∨ c = '+'
    · rw [if_pos hsign] at hact
      exact .single hact
    · have hdigit : c.isDigit = true := (or_assoc.mpr hkind).resolve_left hsign
      rw [if_neg hsign, if_pos hdigit] at hact
      exact .head hact (.single (step_number_digit hc hdigit))
  rename_i hkind
  rw [if_neg fun hsign => hkind (hsign.elim .inl (.inr ∘ .inl)),
    if_neg fun hdigit => hkind (.inr (.inr hdigit))] at hact
  split
  · rename_i halpha
    rw [if_pos halpha] at hact
    rw [← hcs]
    exact name_arrives hc halpha (.single hact) rfl
  · rename_i halpha
    rw [if_neg halpha] at hact
    exact arrives_fault hact hplace hcs.symm

end Containers

theorem readsAlong (text : List Char) (fuel : Nat) : ReadsAlong text fuel := by
  -- The three readers call each other with one step less, so they go through together.
  induction fuel with
  | zero => constructor <;> intros <;> omega
  | succ fuel ih =>
    exact
      { value := fun _ _ _ hpos hfuel => value_arrives ih hpos hfuel
        members := fun _ _ _ _ hpos hfuel => members_arrive ih hpos hfuel
        items := fun _ _ _ _ _ hpos hfuel => items_arrive ih hpos hfuel }

/-- A walk over a text ends with what the reader says of it. -/
theorem ends_read (text : String) : Ends text.toList .start (read text) := by
  have harrives := (readsAlong text.toList (2 * text.toList.length + 2)).value 0 0 []
    (Nat.zero_le _) (by omega)
  have hplace : ∀ pos, pos ≤ text.toList.length →
      text.toList.length - (text.toList.drop pos).length = pos := by
    intro pos hpos
    rw [List.length_drop]
    omega
  rw [List.drop_zero] at harrives
  unfold read
  simp only
  split
  · rename_i f rest hread
    rw [hread] at harrives
    obtain ⟨pos, hpos, rfl, hends⟩ := harrives
    rw [hplace pos hpos]
    exact hends
  · rename_i v rest hread
    rw [hread] at harrives
    obtain ⟨pos, -, hpos, rfl, hback⟩ := harrives
    have hending : Point.step text.toList ⟨pos, 0, .back v, []⟩ = .goOn ⟨pos, 0, .ending v, []⟩ :=
      step_of_not_skips rfl
    have hskips : (Stage.ending v).skips = true := rfl
    obtain ⟨place, hmore, hend, hdrop, hblank, hskip⟩ := leads_skipBlank 0 [] hskips hpos
    have hfinish : Point.step text.toList ⟨place, 0, .ending v, []⟩
        = Point.finish text.toList ⟨place, 0, .ending v, []⟩ v := step_of_not_blank hblank
    rw [Point.finish] at hfinish
    refine Leads.ends hback (Leads.ends (.head hending hskip) ?_)
    rw [← hdrop]
    split
    · rename_i hnil
      have hall : place = text.toList.length :=
        Nat.le_antisymm hend (List.drop_eq_nil_iff.mp hnil)
      rw [if_pos hall] at hfinish
      exact ends_of_step hfinish
    · rename_i hmore
      rw [if_neg fun hall => hmore (List.drop_eq_nil_of_le (Nat.le_of_eq hall.symm))] at hfinish
      rw [hplace place hend]
      exact ends_of_step hfinish

/-! ## What holds of a whole walk -/

/-- A loop of the reader, with what stays the same while it runs. -/
inductive Loop where
  | mapping
  | sequence (close : Char)
  | string (quote : Char)
  | number (start : Nat)
  | name (start : Nat)

/-- The loop that a turn belongs to. -/
def Stage.loop? : Stage → Option Loop
  | .mapping _ => some .mapping
  | .sequence close _ => some (.sequence close)
  | .string quote _ => some (.string quote)
  | .number start => some (.number start)
  | .name start => some (.name start)
  | .value | .escape _ _ | .digits _ _ _ | .colon _ _ | .behindMember _ | .behindItem _ _
  | .back _ | .ending _ => none

/-- A member or an item was read, and its turn is about to end. -/
def Stage.endsTurn : Stage → Bool
  | .behindMember _ | .behindItem _ _ => true
  | .value | .name _ | .number _ | .string _ _ | .escape _ _ | .digits _ _ _ | .mapping _
  | .colon _ _ | .sequence _ _ | .back _ | .ending _ => false

/-- A walk over a text comes to a point. -/
def Visits (text : List Char) (p : Point) : Prop := Leads text .start p

/-- What holds of a whole walk over a text. -/
structure Orderly (text : List Char) (a : Except (Nat × Fault) Value) : Prop where
  /-- It ends, after a number of steps that the length bounds. -/
  ends : walk text (8 * text.length + 3) .start = .answer a
  /-- No step looks outside of the text or counts below zero. -/
  inside : ∀ p, Visits text p → p.step text ≠ .outside
  place : ∀ p, Visits text p → p.pos ≤ text.length
  faultPlace : ∀ pos f, a = .error (pos, f) → pos ≤ text.length
  depth : ∀ p, Visits text p → p.depth ≤ 128
  /-- A value is read as its reader reads it: behind it the place is further on, and as many
  containers are open as before. -/
  calls : ∀ p, Visits text p → p.stage = .value → ∀ fuel, 2 * (text.length - p.pos) + 2 ≤ fuel →
    Arrives text p p.depth p.waiting id (value fuel p.depth (text.drop p.pos))
  /-- Wherever a value is given back to what waited for it when it was begun, that is so. -/
  returns : ∀ p q v, Visits text p → Leads text p q → p.stage = .value → q.stage = .back v →
    q.waiting = p.waiting → p.pos < q.pos ∧ q.depth = p.depth
  /-- From one turn of a loop to a later one a character is taken. -/
  turns : ∀ p q l, Visits text p → Precedes text p q → p.stage.loop? = some l →
    q.stage.loop? = some l → p.pos < q.pos
  /-- Where the end of a turn takes none, the next turn gives the container back. -/
  closes : ∀ p q, Visits text p → p.stage.endsTurn = true → p.step text = .goOn q →
    p.pos < q.pos ∨ ∃ v r, q.step text = .goOn r ∧ r.stage = .back v ∧ r.waiting = p.waiting
  /-- A sign in a number has a character before it. -/
  lookBehind : ∀ p start c, Visits text p → p.stage = .number start → text[p.pos]? = some c →
    c = '+' ∨ c = '-' → 0 < p.pos
  /-- The digits of an escape are in the text, or are reported to be missing. -/
  digits : ∀ p quote found count, Visits text p → p.stage = .digits quote found count →
    p.pos + count ≤ text.length ∨ p.step text = p.fault .shortHex

section Orderly

variable {text : List Char} {p q : Point} {l : Loop}

theorem sound_start (text : List Char) : Sound text .start :=
  ⟨Nat.zero_le _, rfl, Nat.zero_le _, trivial⟩

theorem Visits.sound (h : Visits text p) : Sound text p := (Leads.sound h (sound_start text)).1

/-- A fault is placed in the text. -/
theorem Ends.place_le {pos : Nat} {f : Fault} (h : Ends text p (.error (pos, f)))
    (hp : Sound text p) : pos ≤ text.length := by
  obtain ⟨q, hleads, hend⟩ := h
  have hkeeps := step_keeps (Leads.sound hleads hp).1
  rw [hend] at hkeeps
  exact hkeeps pos f rfl

/-- Each turn of a loop leaves as much to be decided. -/
theorem Stage.rank_eq_of_loop {s t : Stage} (hs : s.loop? = some l) (ht : t.loop? = some l)
    (pos : Nat) : s.rank pos = t.rank pos := by
  cases s <;> simp only [loop?, reduceCtorEq, Option.some.injEq] at hs <;> subst hs <;>
    cases t <;> simp_all [loop?, rank]

/-- A point with no less to decide than one before it is further on. -/
theorem Precedes.pos_lt (h : Precedes text p q) (hp : Sound text p)
    (hrank : p.stage.rank p.pos ≤ q.stage.rank p.pos) : p.pos < q.pos := by
  have hmore := (Leads.sound h.to_reflTransGen hp).2
  have hahead := h.ahead_lt hp
  refine Nat.lt_of_le_of_ne hmore fun hsame => ?_
  unfold Point.ahead at hahead
  rw [← hsame] at hahead
  omega

theorem returns_after {v : Value} (hp : Sound text p) (h : Leads text p q)
    (hvalue : p.stage = .value) (hback : q.stage = .back v) (hwaiting : q.waiting = p.waiting) :
    p.pos < q.pos ∧ q.depth = p.depth := by
  constructor
  · have hprecedes : Precedes text p q := by
      refine (Relation.reflTransGen_iff_eq_or_transGen.mp h).resolve_left fun hsame => ?_
      rw [hsame, hvalue] at hback
      cases hback
    refine hprecedes.pos_lt hp ?_
    rw [hvalue, hback]
    exact Nat.le_of_ble_eq_true rfl
  · rw [(Leads.sound h hp).1.count, hp.count, hvalue, hback, hwaiting]
    rfl

theorem Stage.skips_of_endsTurn {s : Stage} (h : s.endsTurn = true) : s.skips = true := by
  cases s <;> first | rfl | cases h

/-- The bracket that ends a turn is left to the next one, which takes it. -/
theorem closes_next (hp : Sound text p) (hends : p.stage.endsTurn = true)
    (hstep : p.step text = .goOn q) :
    p.pos < q.pos ∨ ∃ v r, q.step text = .goOn r ∧ r.stage = .back v ∧ r.waiting = p.waiting := by
  obtain ⟨pos, depth, stage, waiting⟩ := p
  cases hblank : text[pos]?.any Text.isBlank with
  | true =>
    rw [Point.step, Stage.skips_of_endsTurn hends, hblank, Bool.and_self, if_pos rfl] at hstep
    cases hstep
    exact .inl (Nat.lt_succ_self _)
  | false =>
    rw [step_of_not_blank hblank] at hstep
    cases stage with
    | behindMember found =>
      obtain rfl : depth = waiting.length + 1 := hp.count
      simp only [Point.act, Point.endMember] at hstep
      split at hstep <;> cases hstep
      · exact .inl (Nat.lt_succ_self _)
      · rename_i hbrace
        exact .inr ⟨_, _, step_mapping_close hbrace, rfl, rfl⟩
    | behindItem close found =>
      obtain rfl : depth = waiting.length + 1 := hp.count
      simp only [Point.act, Point.endItem] at hstep
      split at hstep
      · cases hstep
        exact .inl (Nat.lt_succ_self _)
      split at hstep <;> cases hstep
      rename_i hclose
      exact .inr ⟨_, _, step_sequence_close hblank hclose, rfl, rfl⟩
    | _ => cases hends

theorem lt_of_sign {start : Nat} {c : Char} (hp : Sound text p) (hnumber : p.stage = .number start)
    (hc : text[p.pos]? = some c) (hsign : c = '+' ∨ c = '-') : 0 < p.pos := by
  have hbegun : p.stage.Begun text p.pos := hp.begun
  rw [hnumber] at hbegun
  obtain hmore | ⟨-, hdigit⟩ := hbegun
  · exact Nat.zero_lt_of_lt hmore
  · rw [hc] at hdigit
    rcases hsign with rfl | rfl <;> cases hdigit

end Orderly

/-- A walk over a text ends with what is read from it, and all along it is orderly. -/
theorem walk_orderly (text : String) : Orderly text.toList (read text) where
  ends := walk_of_ends (ends_read text) (sound_start _) (Nat.lt_succ_self _)
  inside p h houtside := by
    have hkeeps := step_keeps h.sound
    rw [houtside] at hkeeps
    exact hkeeps
  place p h := h.sound.place
  faultPlace pos f hfault := by
    have hends := ends_read text
    rw [hfault] at hends
    exact hends.place_le (sound_start _)
  depth p h := h.sound.depth
  calls p h hvalue fuel hfuel := by
    obtain ⟨pos, depth, stage, waiting⟩ := p
    cases hvalue
    exact (readsAlong text.toList fuel).value pos depth waiting h.sound.place hfuel
  returns p q v h := returns_after h.sound
  turns p q l h hprecedes hp hq :=
    hprecedes.pos_lt h.sound (Nat.le_of_eq (Stage.rank_eq_of_loop hp hq p.pos))
  closes p q h := closes_next h.sound
  lookBehind p start c h := lt_of_sign h.sound
  digits p quote found count h hdigits := by
    refine (Nat.lt_or_ge text.toList.length (p.pos + count)).symm.imp_right fun hshort => ?_
    rw [step_of_not_skips (by rw [hdigits]; rfl), Point.act, hdigits]
    exact if_pos hshort

end Enclave.Script.Literal
