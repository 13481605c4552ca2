/-!
# Text in any bytes

Bytes are shown as text whether they are UTF-8 or not. A replacement character stands for each run
of bytes that begins a character and breaks off, and for each byte that no character begins with.
-/

namespace TableCalc.Text

/-- The character that stands for bytes that are no text. -/
def replacement : Char := '\uFFFD'

/-- A character of which some bytes have come. -/
structure Partial where
  /-- How many bytes are to come after the next one. -/
  more : Nat
  /-- The bits that have come. -/
  bits : Nat
  /-- The least byte that may come next. -/
  low : Nat := 0x80
  /-- The greatest byte that may come next. -/
  high : Nat := 0xBF

/-- What is read so far, and the character that is not complete. -/
abbrev Progress := List Char × Option Partial

/-- Reads a byte that a character can begin with. A second byte that would make the character too
long for its value, a surrogate or too large is shut out. -/
def firstByte (b : Nat) : Progress :=
  if b < 0x80 then ([Char.ofNat b], none)
  else if 0xC2 ≤ b ∧ b ≤ 0xDF then ([], some { more := 0, bits := b - 0xC0 })
  else if b = 0xE0 then ([], some { more := 1, bits := 0, low := 0xA0 })
  else if b = 0xED then ([], some { more := 1, bits := b - 0xE0, high := 0x9F })
  else if 0xE1 ≤ b ∧ b ≤ 0xEF then ([], some { more := 1, bits := b - 0xE0 })
  else if b = 0xF0 then ([], some { more := 2, bits := 0, low := 0x90 })
  else if b = 0xF4 then ([], some { more := 2, bits := b - 0xF0, high := 0x8F })
  else if 0xF1 ≤ b ∧ b ≤ 0xF3 then ([], some { more := 2, bits := b - 0xF0 })
  else ([replacement], none)

/-- Reads the next byte of a character. If it cannot come next, the character breaks off before it.
-/
def Partial.nextByte (p : Partial) (b : Nat) : Progress :=
  if p.low ≤ b ∧ b ≤ p.high then
    let bits := 64 * p.bits + (b - 0x80)
    match p.more with
    | 0 => ([Char.ofNat bits], none)
    | more + 1 => ([], some { more, bits })
  else
    let (cs, next) := firstByte b
    (replacement :: cs, next)

/-- Reads bytes after the beginning of a character, if there is one. -/
def decodeFrom : Option Partial → List UInt8 → List Char
  | none, [] => []
  | some _, [] => [replacement]
  | none, b :: bytes =>
    let (cs, next) := firstByte b.toNat
    cs ++ decodeFrom next bytes
  | some p, b :: bytes =>
    let (cs, next) := p.nextByte b.toNat
    cs ++ decodeFrom next bytes

/-- The text of bytes, with replacement characters for what is no text. -/
def decodeLossy (bytes : List UInt8) : String := String.ofList (decodeFrom none bytes)

end TableCalc.Text
