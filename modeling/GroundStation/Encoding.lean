/-
# Text encodings of device links

A command is encoded before it is sent and a reply decoded when it arrives.  Encoding refuses what it
cannot represent; decoding never fails, since the lenient reading of UTF-8 also serves ASCII, and in
Latin-1 every byte is a character.
-/
import GroundStation.Error
import GroundStation.Text.Utf8

namespace GroundStation

/-- The encodings of device links. -/
inductive Encoding where
  | ascii
  | utf8
  | latin1
  deriving DecidableEq, Repr

namespace Encoding

/-- The byte of a character of Latin-1. -/
def latinByte? (c : Char) : Option UInt8 :=
  if c.toNat < 256 then some c.toNat.toUInt8 else none

/-- The bytes of a text in Latin-1. -/
def encodeLatin : Text → Except LinkError Bytes
  | [] => .ok []
  | c :: t =>
    match latinByte? c with
    | none => .error (.encoding ("'" ++ [c] ++ "' is not Latin-1"))
    | some b =>
      match encodeLatin t with
      | .ok bs => .ok (b :: bs)
      | .error error => .error error

/-- The bytes of a text. -/
def encode : Encoding → Text → Except LinkError Bytes
  | utf8, t => .ok (Utf8.encode t)
  | ascii, t =>
    if t.all fun c => c.toNat < 128 then .ok (Utf8.encode t)
    else .error (.encoding ("'" ++ t ++ "' is not ASCII"))
  | latin1, t => encodeLatin t

/-- The text of bytes. -/
def decode : Encoding → Bytes → Text
  | latin1, bs => bs.map fun b => Char.ofNat b.toNat
  | _, bs => Utf8.decode bs

end Encoding

end GroundStation
