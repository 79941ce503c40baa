import Enclave.Script.Literal
import Mathlib.Data.Nat.PSub
import Mathlib.Logic.Relation

/-!
# Reading by place

A literal read by walking over its text: what is kept is the place in the text, the number of open
containers, what is about to be done, and the containers that wait for a value. One step takes one
character, or decides what comes next without taking one. A step that would look outside of the
text, or count below zero, is `Move.outside`.

`Sound` is what every step keeps, and from a sound point no step goes outside. Each step also makes
`ahead` smaller (`step_keeps`): a character that is taken outweighs all that can be decided before
the next one is. So a walk ends, and whatever recurs in it does so further on in the text.
-/

namespace Enclave.Script.Literal

open Json (Value)

/-! ## Points -/

/-- What is about to be done. -/
inductive Stage where
  /-- A value begins behind the blanks. -/
  | value
  | name (start : Nat)
  | number (start : Nat)
  | string (quote : Char) (found : List Char)
  /-- An escape, behind its backslash. -/
  | escape (quote : Char) (found : List Char)
  /-- The digits of an escape. -/
  | digits (quote : Char) (found : List Char) (count : Nat)
  /-- A turn of a mapping: a member, or the end. -/
  | mapping (found : List (String × Value))
  | colon (found : List (String × Value)) (key : String)
  | behindMember (found : List (String × Value))
  /-- A turn of a list or tuple: an item, or the end. -/
  | sequence (close : Char) (found : List Value)
  | behindItem (close : Char) (found : List Value)
  /-- A value was read. -/
  | back (v : Value)
  /-- The whole value was read; nothing else may follow. -/
  | ending (v : Value)

/-- A container that waits for a value. -/
inductive Waiting where
  | key (found : List (String × Value))
  | member (found : List (String × Value)) (key : String)
  | item (close : Char) (found : List Value)

/-- Where a walk is. -/
structure Point where
  pos : Nat
  depth : Nat
  stage : Stage
  waiting : List Waiting

/-- What a step leads to. -/
inductive Move where
  | goOn (p : Point)
  | answer (a : Except (Nat × Fault) Value)
  /-- The text was left, or zero was passed. -/
  | outside

/-- Where a walk begins. -/
def Point.start : Point := ⟨0, 0, .value, []⟩

/-! ## Steps -/

/-- A part of a text; there is none that begins behind its end, or ends behind the text. -/
def part? (text : List Char) (start stop : Nat) : Option (List Char) :=
  if start ≤ stop ∧ stop ≤ text.length then some ((text.take stop).drop start) else none

/-- What a name stands for. -/
def named? : String → Option Value
  | "True" => some (.bool true)
  | "False" => some (.bool false)
  | "None" => some .null
  | "nan" => some .null
  | "inf" => some .null
  | _ => none

/-- How many digits an escape has; most have none. -/
def digitCount? : Char → Option Nat
  | 'x' => some 2
  | 'u' => some 4
  | 'U' => some 8
  | _ => none

/-- What an escape without digits stands for. -/
def plainEscape (c : Char) : List Char :=
  match escape [c] with
  | .ok (found, _) => found
  | .error _ => []

/-- Blanks may stand in front of what is about to be read. -/
def Stage.skips : Stage → Bool
  | .value | .mapping _ | .colon _ _ | .behindMember _ | .sequence _ _ | .behindItem _ _
  | .ending _ => true
  | .name _ | .number _ | .string _ _ | .escape _ _ | .digits _ _ _ | .back _ => false

namespace Point

variable (text : List Char) (p : Point)

def fault (f : Fault) : Move := .answer (.error (p.pos, f))

/-- What the character at the place begins. -/
def begin : Move :=
  match text[p.pos]? with
  | none => p.fault .noValue
  | some c =>
    if c = '{' ∨ c = '[' ∨ c = '(' then
      if maxDepth ≤ p.depth then p.fault .tooDeep
      else
        let stage := if c = '{' then .mapping [] else .sequence (if c = '[' then ']' else ')') []
        .goOn ⟨p.pos + 1, p.depth + 1, stage, p.waiting⟩
    else if c = '\'' ∨ c = '"' then .goOn { p with pos := p.pos + 1, stage := .string c [] }
    else if c = '-' ∨ c = '+' then .goOn { p with pos := p.pos + 1, stage := .number p.pos }
    else if c.isDigit then .goOn { p with stage := .number p.pos }
    else if c.isAlpha then .goOn { p with stage := .name p.pos }
    else p.fault .noValue

def turnName (start : Nat) : Move :=
  if text[p.pos]?.any isNamePart then .goOn { p with pos := p.pos + 1 }
  else
    match part? text start p.pos with
    | none => .outside
    | some name =>
      match named? (String.ofList name) with
      | some v => .goOn { p with stage := .back v }
      | none => p.fault (.unknownName (String.ofList name))

def endNumber (start : Nat) : Move :=
  match part? text start p.pos with
  | none => .outside
  | some part =>
    match numeralValue? (part.filter (· != '_')) with
    | some v => .goOn { p with stage := .back v }
    | none => p.fault (.badNumber (String.ofList (part.filter (· != '_'))))

/-- A sign belongs to a number only behind the letter of an exponent. -/
def turnNumber (start : Nat) : Move :=
  match text[p.pos]? with
  | none => p.endNumber text start
  | some c =>
    if c = '+' ∨ c = '-' then
      match Nat.ppred p.pos with
      | none => .outside
      | some before =>
        if text[before]? = some 'e' ∨ text[before]? = some 'E' then
          .goOn { p with pos := p.pos + 1 }
        else p.endNumber text start
    else if c.isAlphanum || c == '.' || c == '_' then .goOn { p with pos := p.pos + 1 }
    else p.endNumber text start

def turnString (quote : Char) (found : List Char) : Move :=
  match text[p.pos]? with
  | none => p.fault .openString
  | some c =>
    if c = quote then
      .goOn { p with pos := p.pos + 1, stage := .back (.str (String.ofList found.reverse)) }
    else if c = '\\' then .goOn { p with pos := p.pos + 1, stage := .escape quote found }
    else .goOn { p with pos := p.pos + 1, stage := .string quote (c :: found) }

def readEscape (quote : Char) (found : List Char) : Move :=
  match text[p.pos]? with
  | none => p.fault .openEscape
  | some c =>
    match digitCount? c with
    | some count => .goOn { p with pos := p.pos + 1, stage := .digits quote found count }
    | none =>
      .goOn { p with
        pos := p.pos + 1
        stage := .string quote ((plainEscape c).reverse ++ found) }

def readDigits (quote : Char) (found : List Char) (count : Nat) : Move :=
  if text.length < p.pos + count then p.fault .shortHex
  else
    match part? text p.pos (p.pos + count) with
    | none => .outside
    | some part =>
      match codePoint? part with
      | some c => .goOn { p with pos := p.pos + count, stage := .string quote (c :: found) }
      | none => fault { p with pos := p.pos + count } .badHex

/-- Behind a closed container. -/
def close (v : Value) : Move :=
  match Nat.ppred p.depth with
  | none => .outside
  | some depth => .goOn ⟨p.pos + 1, depth, .back v, p.waiting⟩

def turnMapping (found : List (String × Value)) : Move :=
  if text[p.pos]? = some '}' then p.close (.object found.reverse)
  else .goOn { p with stage := .value, waiting := .key found :: p.waiting }

def readColon (found : List (String × Value)) (key : String) : Move :=
  if text[p.pos]? = some ':' then
    .goOn { p with pos := p.pos + 1, stage := .value, waiting := .member found key :: p.waiting }
  else p.fault (.expected ':')

def endMember (found : List (String × Value)) : Move :=
  match text[p.pos]? with
  | some ',' => .goOn { p with pos := p.pos + 1, stage := .mapping found }
  | some '}' => .goOn { p with stage := .mapping found }
  | _ => p.fault .mappingEnd

def turnSequence (close : Char) (found : List Value) : Move :=
  if text[p.pos]? = some close then p.close (.arr found.reverse)
  else .goOn { p with stage := .value, waiting := .item close found :: p.waiting }

def endItem (close : Char) (found : List Value) : Move :=
  if text[p.pos]? = some ',' then .goOn { p with pos := p.pos + 1, stage := .sequence close found }
  else if text[p.pos]? = some close then .goOn { p with stage := .sequence close found }
  else p.fault .sequenceEnd

/-- A value goes to the container that waits for it. -/
def giveBack (v : Value) : Move :=
  match p.waiting with
  | [] => .goOn { p with stage := .ending v }
  | .key found :: rest =>
    match v with
    | .str key => .goOn { p with stage := .colon found key, waiting := rest }
    | _ => p.fault .keyNoString
  | .member found key :: rest =>
    .goOn { p with stage := .behindMember ((key, v) :: found), waiting := rest }
  | .item close found :: rest =>
    .goOn { p with stage := .behindItem close (v :: found), waiting := rest }

def finish (v : Value) : Move :=
  if p.pos = text.length then .answer (.ok v) else p.fault .trailing

/-- What is done at a place with no blanks in front. -/
def act : Move :=
  match p.stage with
  | .value => p.begin text
  | .name start => p.turnName text start
  | .number start => p.turnNumber text start
  | .string quote found => p.turnString text quote found
  | .escape quote found => p.readEscape text quote found
  | .digits quote found count => p.readDigits text quote found count
  | .mapping found => p.turnMapping text found
  | .colon found key => p.readColon text found key
  | .behindMember found => p.endMember text found
  | .sequence close found => p.turnSequence text close found
  | .behindItem close found => p.endItem text close found
  | .back v => p.giveBack v
  | .ending v => p.finish text v

/-- One step. -/
def step : Move :=
  if p.stage.skips && text[p.pos]?.any Text.isBlank then .goOn { p with pos := p.pos + 1 }
  else p.act text

end Point

/-! ## What steps keep -/

/-- Whether a container is open that does not wait for a value. -/
def Stage.held : Stage → Nat
  | .mapping _ | .colon _ _ | .behindMember _ | .sequence _ _ | .behindItem _ _ => 1
  | .value | .name _ | .number _ | .string _ _ | .escape _ _ | .digits _ _ _ | .back _
  | .ending _ => 0

/-- What was seen where a name, a number or the digits of an escape began. -/
def Stage.Begun (text : List Char) (pos : Nat) : Stage → Prop
  | .name start => start < pos ∨ start = pos ∧ text[pos]?.any Char.isAlpha = true
  | .number start => start < pos ∨ start = pos ∧ text[pos]?.any Char.isDigit = true
  | .digits _ _ count => 0 < count
  | _ => True

/-- What is so at every point of a walk. -/
structure Sound (text : List Char) (p : Point) : Prop where
  place : p.pos ≤ text.length
  count : p.depth = p.waiting.length + p.stage.held
  depth : p.depth ≤ maxDepth
  begun : p.stage.Begun text p.pos

/-- How much can be decided before the next character has to be taken. -/
def Stage.rank (pos : Nat) : Stage → Nat
  | .string _ _ | .escape _ _ | .digits _ _ _ => 0
  | .name start | .number start => if start < pos then 6 else 1
  | .value => 2
  | .mapping _ | .sequence _ _ => 3
  | .colon _ _ | .behindMember _ | .behindItem _ _ | .ending _ => 4
  | .back _ => 5

/-- What a walk still has before it. -/
def Point.ahead (text : List Char) (p : Point) : Nat :=
  8 * (text.length - p.pos) + p.stage.rank p.pos

/-- A move that leads from a point to a sound one with less before it, or to an answer that places
its fault in the text. -/
def Move.Keeps (text : List Char) (p : Point) : Move → Prop
  | .goOn q => Sound text q ∧ p.pos ≤ q.pos ∧ q.ahead text < p.ahead text
  | .answer a => ∀ place f, a = .error (place, f) → place ≤ text.length
  | .outside => False

section Keeps

variable {text : List Char} {p q : Point}

theorem Stage.rank_lt (pos : Nat) (stage : Stage) : stage.rank pos < 8 := by
  cases stage <;> simp only [rank] <;> try omega
  all_goals split <;> omega

/-- A step that takes a character leads to less if it leads to a sound point. -/
theorem Move.keeps_of_taken (hmore : p.pos < q.pos) (h : Sound text q) :
    (Move.goOn q).Keeps text p := by
  refine ⟨h, Nat.le_of_lt hmore, ?_⟩
  have hplace := h.place
  have hrank := q.stage.rank_lt q.pos
  unfold Point.ahead
  omega

/-- A step that takes none does so if less is left to decide. -/
theorem Move.keeps_of_decided (hsame : q.pos = p.pos) (h : Sound text q)
    (hrank : q.stage.rank p.pos < p.stage.rank p.pos) : (Move.goOn q).Keeps text p := by
  refine ⟨h, Nat.le_of_eq hsame.symm, ?_⟩
  unfold Point.ahead
  rw [hsame]
  omega

theorem Sound.fault (h : Sound text p) (f : Fault) : (p.fault f).Keeps text p := by
  rintro place f ⟨⟩
  exact h.place

theorem lt_of_getElem? {pos : Nat} {c : Char} (h : text[pos]? = some c) : pos < text.length := by
  obtain ⟨hlt, -⟩ := List.getElem?_eq_some_iff.mp h
  exact hlt

theorem lt_of_any {pos : Nat} {test : Char → Bool} (h : text[pos]?.any test = true) :
    pos < text.length := by
  obtain ⟨c, hc, -⟩ := (Option.any_eq_true _ _).mp h
  exact lt_of_getElem? hc

theorem part?_eq_some {start stop : Nat} (hstart : start ≤ stop) (hstop : stop ≤ text.length) :
    part? text start stop = some ((text.take stop).drop start) :=
  if_pos ⟨hstart, hstop⟩

theorem le_of_begun {pos start : Nat} {seen : Prop} (h : start < pos ∨ start = pos ∧ seen) :
    start ≤ pos := by
  omega

/-! One lemma for each stage. -/

variable {pos depth start count : Nat} {waiting : List Waiting} {quote close : Char}
  {found : List Char} {members : List (String × Value)} {items : List Value} {v : Value}

theorem begin_keeps (h : Sound text ⟨pos, depth, .value, waiting⟩) :
    (Point.begin text ⟨pos, depth, .value, waiting⟩).Keeps text ⟨pos, depth, .value, waiting⟩ := by
  have hcount : depth = waiting.length := h.count
  unfold Point.begin
  split
  · exact h.fault _
  rename_i c hc
  have hlt := lt_of_getElem? hc
  split
  · split
    · exact h.fault _
    · rename_i hroom
      refine Move.keeps_of_taken (Nat.lt_succ_self _) ⟨hlt, ?_, Nat.lt_of_not_le hroom, ?_⟩
      · simp only
        split <;> rw [hcount] <;> rfl
      · simp only
        split <;> trivial
  split
  · exact Move.keeps_of_taken (Nat.lt_succ_self _) ⟨hlt, hcount, h.depth, trivial⟩
  split
  · exact Move.keeps_of_taken (Nat.lt_succ_self _)
      ⟨hlt, hcount, h.depth, .inl (Nat.lt_succ_self _)⟩
  split
  · rename_i hdigit
    refine Move.keeps_of_decided rfl ⟨h.place, hcount, h.depth, .inr ⟨rfl, ?_⟩⟩ ?_
    · simpa [hc] using hdigit
    · simp [Stage.rank]
  split
  · rename_i halpha
    refine Move.keeps_of_decided rfl ⟨h.place, hcount, h.depth, .inr ⟨rfl, ?_⟩⟩ ?_
    · simpa [hc] using halpha
    · simp [Stage.rank]
  · exact h.fault _

theorem turnName_keeps (h : Sound text ⟨pos, depth, .name start, waiting⟩) :
    (Point.turnName text ⟨pos, depth, .name start, waiting⟩ start).Keeps text
      ⟨pos, depth, .name start, waiting⟩ := by
  have hbegun : start < pos ∨ start = pos ∧ text[pos]?.any Char.isAlpha = true := h.begun
  unfold Point.turnName
  split
  · rename_i hpart
    exact Move.keeps_of_taken (Nat.lt_succ_self _) ⟨lt_of_any hpart, h.count, h.depth,
      .inl (Nat.lt_succ_of_le (le_of_begun hbegun))⟩
  · rename_i hpart
    rw [part?_eq_some (le_of_begun hbegun) h.place]
    have hmore : start < pos := by
      refine hbegun.resolve_right fun ⟨_, halpha⟩ => hpart ?_
      obtain ⟨c, hc, halpha⟩ := (Option.any_eq_true _ _).mp halpha
      exact (Option.any_eq_true _ _).mpr ⟨c, hc, by simp [isNamePart, Char.isAlphanum, halpha]⟩
    simp only
    split
    · exact Move.keeps_of_decided rfl ⟨h.place, h.count, h.depth, trivial⟩
        (by simp [Stage.rank, hmore])
    · exact h.fault _

theorem endNumber_keeps (h : Sound text ⟨pos, depth, .number start, waiting⟩)
    (hmore : start < pos) :
    (Point.endNumber text ⟨pos, depth, .number start, waiting⟩ start).Keeps text
      ⟨pos, depth, .number start, waiting⟩ := by
  unfold Point.endNumber
  rw [part?_eq_some (Nat.le_of_lt hmore) h.place]
  simp only
  split
  · exact Move.keeps_of_decided rfl ⟨h.place, h.count, h.depth, trivial⟩
      (by simp [Stage.rank, hmore])
  · exact h.fault _

theorem turnNumber_keeps (h : Sound text ⟨pos, depth, .number start, waiting⟩) :
    (Point.turnNumber text ⟨pos, depth, .number start, waiting⟩ start).Keeps text
      ⟨pos, depth, .number start, waiting⟩ := by
  have hbegun : start < pos ∨ start = pos ∧ text[pos]?.any Char.isDigit = true := h.begun
  have htaken : ∀ c, text[pos]? = some c →
      (Move.goOn ⟨pos + 1, depth, .number start, waiting⟩).Keeps text
        ⟨pos, depth, .number start, waiting⟩ := fun c hc =>
    Move.keeps_of_taken (Nat.lt_succ_self _) ⟨lt_of_getElem? hc, h.count, h.depth,
      .inl (Nat.lt_succ_of_le (le_of_begun hbegun))⟩
  unfold Point.turnNumber
  split
  · rename_i hend
    exact endNumber_keeps h (hbegun.resolve_right fun ⟨_, hdigit⟩ => by simp [hend] at hdigit)
  rename_i c hc
  simp only at hc
  rw [hc, Option.any_some] at hbegun
  split
  · -- The number did not begin with this sign, so there is something to look back at.
    rename_i hsign
    have hmore : start < pos := by
      refine hbegun.resolve_right fun ⟨_, hdigit⟩ => ?_
      rcases hsign with rfl | rfl <;> exact absurd hdigit (by decide)
    obtain ⟨before, rfl⟩ := Nat.exists_eq_add_one_of_ne_zero (Nat.ne_zero_of_lt hmore)
    simp only [Nat.ppred]
    split
    · exact htaken c hc
    · exact endNumber_keeps h hmore
  split
  · exact htaken c hc
  · rename_i hno
    refine endNumber_keeps h (hbegun.resolve_right fun ⟨_, hdigit⟩ => hno ?_)
    simp [Char.isAlphanum, hdigit]

theorem turnString_keeps (h : Sound text ⟨pos, depth, .string quote found, waiting⟩) :
    (Point.turnString text ⟨pos, depth, .string quote found, waiting⟩ quote found).Keeps text
      ⟨pos, depth, .string quote found, waiting⟩ := by
  unfold Point.turnString
  split
  · exact h.fault _
  rename_i c hc
  have hlt := lt_of_getElem? hc
  split
  · exact Move.keeps_of_taken (Nat.lt_succ_self _) ⟨hlt, h.count, h.depth, trivial⟩
  split <;> exact Move.keeps_of_taken (Nat.lt_succ_self _) ⟨hlt, h.count, h.depth, trivial⟩

theorem readEscape_keeps (h : Sound text ⟨pos, depth, .escape quote found, waiting⟩) :
    (Point.readEscape text ⟨pos, depth, .escape quote found, waiting⟩ quote found).Keeps text
      ⟨pos, depth, .escape quote found, waiting⟩ := by
  unfold Point.readEscape
  split
  · exact h.fault _
  rename_i c hc
  have hlt := lt_of_getElem? hc
  split
  · rename_i count hdigits
    refine Move.keeps_of_taken (Nat.lt_succ_self _) ⟨hlt, h.count, h.depth, ?_⟩
    change 0 < count
    unfold digitCount? at hdigits
    split at hdigits <;> cases hdigits <;> decide
  · exact Move.keeps_of_taken (Nat.lt_succ_self _) ⟨hlt, h.count, h.depth, trivial⟩

theorem readDigits_keeps (h : Sound text ⟨pos, depth, .digits quote found count, waiting⟩) :
    (Point.readDigits text ⟨pos, depth, .digits quote found count, waiting⟩ quote found count).Keeps
      text ⟨pos, depth, .digits quote found count, waiting⟩ := by
  have hcount : 0 < count := h.begun
  unfold Point.readDigits
  split
  · exact h.fault _
  rename_i hroom
  rw [part?_eq_some (Nat.le_add_right _ _) (Nat.le_of_not_lt hroom)]
  simp only
  split
  · exact Move.keeps_of_taken (Nat.lt_add_of_pos_right hcount)
      ⟨Nat.le_of_not_lt hroom, h.count, h.depth, trivial⟩
  · rintro place f ⟨⟩
    exact Nat.le_of_not_lt hroom

/-- A container that is closed was counted. -/
theorem close_keeps {stage : Stage} (h : Sound text ⟨pos, depth, stage, waiting⟩)
    (hheld : stage.held = 1) {c : Char} (hc : text[pos]? = some c) (v : Value) :
    (Point.close ⟨pos, depth, stage, waiting⟩ v).Keeps text ⟨pos, depth, stage, waiting⟩ := by
  have hcount : depth = waiting.length + 1 := hheld ▸ h.count
  subst hcount
  exact Move.keeps_of_taken (Nat.lt_succ_self _)
    ⟨lt_of_getElem? hc, rfl, Nat.le_of_succ_le h.depth, trivial⟩

theorem turnMapping_keeps (h : Sound text ⟨pos, depth, .mapping members, waiting⟩) :
    (Point.turnMapping text ⟨pos, depth, .mapping members, waiting⟩ members).Keeps text
      ⟨pos, depth, .mapping members, waiting⟩ := by
  unfold Point.turnMapping
  split
  · rename_i hclose
    exact close_keeps h rfl hclose _
  · exact Move.keeps_of_decided rfl ⟨h.place, h.count, h.depth, trivial⟩ (by simp [Stage.rank])

theorem readColon_keeps {key : String} (h : Sound text ⟨pos, depth, .colon members key, waiting⟩) :
    (Point.readColon text ⟨pos, depth, .colon members key, waiting⟩ members key).Keeps text
      ⟨pos, depth, .colon members key, waiting⟩ := by
  unfold Point.readColon
  split
  · rename_i hcolon
    exact Move.keeps_of_taken (Nat.lt_succ_self _)
      ⟨lt_of_getElem? hcolon, h.count, h.depth, trivial⟩
  · exact h.fault _

theorem endMember_keeps (h : Sound text ⟨pos, depth, .behindMember members, waiting⟩) :
    (Point.endMember text ⟨pos, depth, .behindMember members, waiting⟩ members).Keeps text
      ⟨pos, depth, .behindMember members, waiting⟩ := by
  unfold Point.endMember
  split
  · rename_i hcomma
    exact Move.keeps_of_taken (Nat.lt_succ_self _)
      ⟨lt_of_getElem? hcomma, h.count, h.depth, trivial⟩
  · exact Move.keeps_of_decided rfl ⟨h.place, h.count, h.depth, trivial⟩ (by simp [Stage.rank])
  · exact h.fault _

theorem turnSequence_keeps (h : Sound text ⟨pos, depth, .sequence close items, waiting⟩) :
    (Point.turnSequence text ⟨pos, depth, .sequence close items, waiting⟩ close items).Keeps text
      ⟨pos, depth, .sequence close items, waiting⟩ := by
  unfold Point.turnSequence
  split
  · rename_i hclose
    exact close_keeps h rfl hclose _
  · exact Move.keeps_of_decided rfl ⟨h.place, h.count, h.depth, trivial⟩ (by simp [Stage.rank])

theorem endItem_keeps (h : Sound text ⟨pos, depth, .behindItem close items, waiting⟩) :
    (Point.endItem text ⟨pos, depth, .behindItem close items, waiting⟩ close items).Keeps text
      ⟨pos, depth, .behindItem close items, waiting⟩ := by
  unfold Point.endItem
  split
  · rename_i hcomma
    exact Move.keeps_of_taken (Nat.lt_succ_self _)
      ⟨lt_of_getElem? hcomma, h.count, h.depth, trivial⟩
  split
  · exact Move.keeps_of_decided rfl ⟨h.place, h.count, h.depth, trivial⟩ (by simp [Stage.rank])
  · exact h.fault _

theorem giveBack_keeps (h : Sound text ⟨pos, depth, .back v, waiting⟩) :
    (Point.giveBack ⟨pos, depth, .back v, waiting⟩ v).Keeps text
      ⟨pos, depth, .back v, waiting⟩ := by
  have hdecided : ∀ stage rest, depth = rest.length + stage.held → stage.rank pos = 4 →
      stage.Begun text pos →
      (Move.goOn ⟨pos, depth, stage, rest⟩).Keeps text ⟨pos, depth, .back v, waiting⟩ :=
    fun stage rest hcount hrank hbegun =>
      Move.keeps_of_decided rfl ⟨h.place, hcount, h.depth, hbegun⟩
        (Nat.lt_of_le_of_lt (Nat.le_of_eq hrank) (Nat.lt_succ_self 4))
  have hcount : depth = waiting.length := h.count
  unfold Point.giveBack
  simp only
  split
  · exact hdecided _ _ hcount rfl trivial
  · split
    · exact hdecided _ _ hcount rfl trivial
    · exact h.fault _
  · exact hdecided _ _ hcount rfl trivial
  · exact hdecided _ _ hcount rfl trivial

theorem finish_keeps (h : Sound text ⟨pos, depth, .ending v, waiting⟩) :
    (Point.finish text ⟨pos, depth, .ending v, waiting⟩ v).Keeps text
      ⟨pos, depth, .ending v, waiting⟩ := by
  unfold Point.finish
  split
  · exact nofun
  · exact h.fault _

theorem act_keeps (h : Sound text p) : (p.act text).Keeps text p := by
  obtain ⟨pos, depth, stage, waiting⟩ := p
  cases stage with
  | value => exact begin_keeps h
  | name start => exact turnName_keeps h
  | number start => exact turnNumber_keeps h
  | string quote found => exact turnString_keeps h
  | escape quote found => exact readEscape_keeps h
  | digits quote found count => exact readDigits_keeps h
  | mapping found => exact turnMapping_keeps h
  | colon found key => exact readColon_keeps h
  | behindMember found => exact endMember_keeps h
  | sequence close found => exact turnSequence_keeps h
  | behindItem close found => exact endItem_keeps h
  | back v => exact giveBack_keeps h
  | ending v => exact finish_keeps h

/-- From a sound point a step leads to a sound point with less before it, or to an answer. -/
theorem step_keeps (h : Sound text p) : (p.step text).Keeps text p := by
  unfold Point.step
  split
  · rename_i hblank
    obtain ⟨hskips, hblank⟩ := Bool.and_eq_true_iff.mp hblank
    refine Move.keeps_of_taken (Nat.lt_succ_self _) ⟨lt_of_any hblank, h.count, h.depth, ?_⟩
    cases hstage : p.stage <;> rw [hstage] at hskips <;> trivial
  · exact act_keeps h

end Keeps

end Enclave.Script.Literal
