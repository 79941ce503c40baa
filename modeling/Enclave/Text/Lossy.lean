/-!
# Bytes as text

Output of programs comes as bytes. Those that are UTF-8 are read as such; each part that cannot
belong to a character, taken as long as it could still have become one, is shown by one
replacement character.
-/

namespace Enclave.Text

/-- What is shown for bytes that are no text. -/
def replacement : Char := '\uFFFD'

/-- How far a reading of bytes has come: the characters found, the last one first, the bits of a
character that has begun, and the ranges in which its remaining bytes have to lie. -/
structure ByteReading where
  found : List Char
  bits : Nat
  due : List (Nat × Nat)
  deriving Repr, DecidableEq

namespace ByteReading

/-- The range of a byte that continues a character. -/
def tail : Nat × Nat := (0x80, 0xBF)

/-- The bits that the first byte of a longer character carries, and the ranges of the bytes that
have to follow it: none may spell a character longer than needed, a surrogate, or a code point
beyond the last. -/
def lead? (b : Nat) : Option (Nat × List (Nat × Nat)) :=
  if 0xC2 ≤ b && b ≤ 0xDF then some (b - 0xC0, [tail])
  else if b == 0xE0 then some (0, [(0xA0, 0xBF), tail])
  else if b == 0xED then some (0xD, [(0x80, 0x9F), tail])
  else if 0xE1 ≤ b && b ≤ 0xEF then some (b - 0xE0, [tail, tail])
  else if b == 0xF0 then some (0, [(0x90, 0xBF), tail, tail])
  else if 0xF1 ≤ b && b ≤ 0xF3 then some (b - 0xF0, [tail, tail, tail])
  else if b == 0xF4 then some (4, [(0x80, 0x8F), tail, tail])
  else none

/-- Reads a byte between characters. -/
def begin (found : List Char) (b : Nat) : ByteReading :=
  if b < 0x80 then ⟨Char.ofNat b :: found, 0, []⟩
  else
    match lead? b with
    | some (bits, due) => ⟨found, bits, due⟩
    | none => ⟨replacement :: found, 0, []⟩

/-- Reads one more byte. -/
def step (r : ByteReading) (byte : UInt8) : ByteReading :=
  let b := byte.toNat
  match r.due with
  | [] => begin r.found b
  | (low, high) :: due =>
    if low ≤ b && b ≤ high then
      let bits := r.bits * 64 + b % 64
      if due.isEmpty then ⟨Char.ofNat bits :: r.found, 0, []⟩ else ⟨r.found, bits, due⟩
    else begin (replacement :: r.found) b

/-- The characters of a reading that is over. -/
def finish (r : ByteReading) : List Char :=
  (if r.due.isEmpty then r.found else replacement :: r.found).reverse

end ByteReading

/-- The text of some bytes. -/
def ofBytes (bs : List UInt8) : String :=
  String.ofList (bs.foldl ByteReading.step ⟨[], 0, []⟩).finish

end Enclave.Text
