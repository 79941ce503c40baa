/-!
# Cutting captured output

A text that is too long is cut to a number of bytes. The cut never divides a character, and a
marker at the end tells of it where there is room for the marker.
-/

namespace Enclave.Text

/-- What a cut text ends with. -/
def cutMarker : String := "…[truncated]"

/-- How many characters at the beginning of a text fit into a number of bytes. -/
def fitting (room count : Nat) : List Char → Nat
  | [] => count
  | c :: cs => if c.utf8Size ≤ room then fitting (room - c.utf8Size) (count + 1) cs else count

/-- The longest beginning of a text that fits into a number of bytes. -/
def fittingPart (room : Nat) (cs : List Char) : List Char := cs.take (fitting room 0 cs)

/-- A text cut to at most `limit` bytes, and whether anything was cut. -/
def cut (text : String) (limit : Nat) : String × Bool :=
  if text.utf8ByteSize ≤ limit then (text, false)
  else
    let part := String.ofList (fittingPart (limit - cutMarker.utf8ByteSize) text.toList)
    (if cutMarker.utf8ByteSize ≤ limit then part ++ cutMarker else part, true)

end Enclave.Text
