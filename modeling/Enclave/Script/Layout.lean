import Enclave.Script.Token

/-!
# The layout of a script

Indentation groups the lines of a script. A line further to the right than the one before opens a
block, a line further to the left closes blocks until it stands under an earlier line. Blanks and
tabulators are counted twice, a tabulator once as a step to the next multiple of eight and once as
a single blank; both counts have to say the same. Lines without statements do not count, and
between brackets neither line ends nor indentation do. A backslash at the end of a line joins it
with the next.
-/

namespace Enclave.Script

/-- A place in a line: its column, and its column where a tabulator is as wide as a blank. -/
structure Column where
  wide : Nat
  narrow : Nat
  deriving Repr, DecidableEq

/-- Where the reader of a script is. -/
structure Layout where
  /-- The open indentations, the innermost first. -/
  columns : List Column
  /-- The open brackets, the innermost first. -/
  brackets : List Char
  /-- The tokens that were read, the last one first. -/
  tokens : List Token

namespace Layout

/-- The beginning of a script. -/
def start : Layout := ⟨[], [], []⟩

/-- The most indentations that may be open. -/
def maxColumns : Nat := 99

/-- The most brackets that may be open. -/
def maxBrackets : Nat := 200

/-- The column of the lines that are being read. -/
def column (l : Layout) : Column := l.columns.head?.getD ⟨0, 0⟩

/-- With one more token. -/
def push (l : Layout) (t : Token) : Layout := { l with tokens := t :: l.tokens }

/-- The indentation of a line and the text behind it. `first` is the column of the first
backslash that joined the line with the next: where there is one, it counts. -/
def indentation (c : Column) (first : Nat) : List Char → Option (Column × List Char)
  | [] => some (if first = 0 then c else ⟨first, first⟩, [])
  | ' ' :: cs => indentation ⟨c.wide + 1, c.narrow + 1⟩ first cs
  | '\t' :: cs => indentation ⟨(c.wide / 8 + 1) * 8, c.narrow + 1⟩ first cs
  | '\x0c' :: cs => indentation ⟨0, 0⟩ first cs
  | '\\' :: cs =>
    match cs with
    | '\n' :: d :: rest => indentation c (if first = 0 then c.wide else first) (d :: rest)
    | _ => none
  | d :: cs => some (if first = 0 then c else ⟨first, first⟩, d :: cs)

/-- Closes blocks until a column is reached. -/
def closeTo (c : Column) : List Column → List Token → Option (List Column × List Token)
  | [], ts => if c = ⟨0, 0⟩ then some ([], ts) else none
  | d :: outer, ts =>
    if c.wide < d.wide then closeTo c outer (.dedent :: ts)
    else if c = d then some (d :: outer, ts)
    else none

/-- In front of a line that begins at a column. -/
def moveTo (l : Layout) (c : Column) : Option Layout :=
  let here := l.column
  if c.wide = here.wide then if c.narrow = here.narrow then some l else none
  else if here.wide < c.wide then
    if l.columns.length < maxColumns && here.narrow < c.narrow then
      some { l with columns := c :: l.columns, tokens := .indent :: l.tokens }
    else none
  else (closeTo c l.columns l.tokens).map fun r => { l with columns := r.1, tokens := r.2 }

/-- With a token in which brackets may open or close. -/
def accept (l : Layout) (t : Token) : Option Layout :=
  match t with
  | .symbol s =>
    match s.toList with
    | [c] =>
      if Quotation.isOpening c then
        if l.brackets.length < maxBrackets then
          some { l.push t with brackets := c :: l.brackets }
        else none
      else if Quotation.isClosing c then
        match l.brackets with
        | o :: outer => if Quotation.pairs o c then some { l.push t with brackets := outer } else none
        | [] => none
      else some (l.push t)
    | _ => some (l.push t)
  | _ => some (l.push t)

/-- The tokens of a script whose text ends, with all of its blocks closed. -/
def finish (l : Layout) : Option (List Token) :=
  if l.brackets.isEmpty then some (l.columns.foldl (fun ts _ => .dedent :: ts) l.tokens).reverse
  else none

/-- The text behind a comment. -/
def behindComment (cs : List Char) : List Char := cs.dropWhile (· != '\n')

/-- Reads on from the beginning or the inside of a line. The first argument bounds the number of
steps. -/
def scan : Nat → Bool → Layout → List Char → Option (List Token)
  | 0, _, _, _ => none
  | fuel + 1, true, l, cs =>
    match indentation ⟨0, 0⟩ 0 cs with
    | none => none
    | some (_, []) => l.finish
    | some (c, d :: rest) =>
      if d = '\n' then scan fuel true l rest
      else if d = '#' then scan fuel true l ((behindComment rest).drop 1)
      else if l.brackets.isEmpty then
        match l.moveTo c with
        | some l => scan fuel false l (d :: rest)
        | none => none
      else scan fuel false l (d :: rest)
  | _ + 1, false, _, [] => none
  | fuel + 1, false, l, c :: cs =>
    if c = ' ' || c = '\t' || c = '\x0c' then scan fuel false l cs
    else if c = '#' then scan fuel false l (behindComment cs)
    else if c = '\n' then
      scan fuel true (if l.brackets.isEmpty then l.push .newline else l) cs
    else if c = '\\' then
      match cs with
      | '\n' :: d :: rest => scan fuel false l (d :: rest)
      | _ => none
    else
      match Token.read (c :: cs) with
      | none => none
      | some (t, rest) =>
        match l.accept t with
        | some l => scan fuel false l rest
        | none => none

end Layout

/-- A text in which every line ends with a line feed, behind what was read already, the last
character of this first. -/
def normalLinesBehind (found : List Char) : List Char → List Char
  | [] => found.reverse
  | c :: cs =>
    if c = '\r' then
      match cs with
      | [] => ('\n' :: found).reverse
      | d :: rest =>
        if d = '\n' then normalLinesBehind ('\n' :: found) rest
        else normalLinesBehind ('\n' :: found) (d :: rest)
    else normalLinesBehind (c :: found) cs

/-- A text in which every line ends with a line feed. -/
def normalLines (cs : List Char) : List Char := normalLinesBehind [] cs

/-- The tokens of a text, unless it cannot be cut into tokens. -/
def tokens? (cs : List Char) : Option (List Token) :=
  if cs.contains '\x00' then none
  else
    let cs := if cs.getLast? == some '\n' then cs else cs ++ ['\n']
    Layout.scan (2 * cs.length + 2) true .start cs

end Enclave.Script
