/-
# UTF-8, written strictly and read leniently

`encode` writes each character in one to four bytes.  `decode` reads any byte string: what is not
well-formed is replaced, one U+FFFD for each longest beginning of a well-formed sequence that breaks
off, and for each byte that begins none.

The reader is a machine of one byte at a time.  Between characters it is in the state `start`; after a
leading byte it is `within` a sequence and knows the value so far, how many bytes are missing and in
which range the next one has to lie.  A byte out of range closes the broken sequence and is read again
from `start`, so an ASCII byte always leads back to `start` and reading splits there.
-/
import GroundStation.Text.Basic

namespace GroundStation

/-- Bytes, as links and files carry them. -/
abbrev Bytes := List UInt8

namespace Utf8

/-- The replacement character U+FFFD. -/
def replacement : Char := Char.ofNat 0xFFFD

/-- The bytes of one character. -/
def encodeChar (c : Char) : Bytes :=
  let n := c.toNat
  if n < 0x80 then [n.toUInt8]
  else if n < 0x800 then [(0xC0 + n / 64).toUInt8, (0x80 + n % 64).toUInt8]
  else if n < 0x10000 then
    [(0xE0 + n / 4096).toUInt8, (0x80 + n / 64 % 64).toUInt8, (0x80 + n % 64).toUInt8]
  else
    [(0xF0 + n / 262144).toUInt8, (0x80 + n / 4096 % 64).toUInt8, (0x80 + n / 64 % 64).toUInt8,
      (0x80 + n % 64).toUInt8]

/-- The bytes of a text. -/
def encode (t : Text) : Bytes := t.flatMap encodeChar

/-- Where the reader stands: between characters, or within a sequence with the value read so far, the
number of bytes still missing and the range of the next one. -/
inductive State where
  | start
  | within (value missing low high : Nat)
  deriving DecidableEq, Repr

/-- A byte read between characters. -/
def leading (b : UInt8) : Text × State :=
  let n := b.toNat
  if n < 0x80 then ([Char.ofNat n], .start)
  else if n < 0xC2 then ([replacement], .start)
  else if n < 0xE0 then ([], .within (n - 0xC0) 1 0x80 0xBF)
  else if n = 0xE0 then ([], .within 0 2 0xA0 0xBF)
  else if n = 0xED then ([], .within 0xD 2 0x80 0x9F)
  else if n < 0xF0 then ([], .within (n - 0xE0) 2 0x80 0xBF)
  else if n = 0xF0 then ([], .within 0 3 0x90 0xBF)
  else if n < 0xF4 then ([], .within (n - 0xF0) 3 0x80 0xBF)
  else if n = 0xF4 then ([], .within 4 3 0x80 0x8F)
  else ([replacement], .start)

/-- One byte: the characters it completes and the state behind it. -/
def step : State → UInt8 → Text × State
  | .start, b => leading b
  | .within value missing low high, b =>
    if low ≤ b.toNat ∧ b.toNat ≤ high then
      let value := value * 64 + (b.toNat - 0x80)
      if missing ≤ 1 then ([Char.ofNat value], .start)
      else ([], .within value (missing - 1) 0x80 0xBF)
    else
      let (t, s) := leading b
      (replacement :: t, s)

/-- Reads on from a state; a sequence that the input leaves open is replaced. -/
def decodeFrom : State → Bytes → Text
  | .start, [] => []
  | .within .., [] => [replacement]
  | s, b :: bs =>
    let (t, s') := step s b
    t ++ decodeFrom s' bs

/-- The lenient reading of a byte string. -/
def decode (bs : Bytes) : Text := decodeFrom .start bs

/-- The reading of a byte string that is UTF-8 throughout. -/
def strict? (bs : Bytes) : Option Text :=
  let t := decode bs
  if encode t = bs then some t else none

/-! ## Small lemmas -/

@[simp] theorem encode_nil : encode [] = [] := rfl

@[simp] theorem encode_append (s t : Text) : encode (s ++ t) = encode s ++ encode t := by
  simp [encode]

@[simp] theorem decode_nil : decode [] = [] := rfl

end Utf8

end GroundStation
