/-
# The checksum of RMAP packets

The checksum is the 8-bit cyclic redundancy check of the polynomial `x^8 + x^2 + x + 1`, with the bits of
each byte and of the result in reversed order, from zero.  Reversed, the polynomial is `0xE0`: a byte is
added to the register, which is then shifted eight times, the polynomial being added whenever a one is
shifted out.
-/
import GroundStation.Text.Utf8

namespace GroundStation

namespace Rmap

/-- One shift of the register. -/
def crcShift (r : UInt8) : UInt8 :=
  if r &&& 1 = 1 then (r >>> 1) ^^^ 0xE0 else r >>> 1

/-- One byte: it is added to the register, which is shifted eight times. -/
def crcStep (r b : UInt8) : UInt8 :=
  let r := r ^^^ b
  crcShift (crcShift (crcShift (crcShift (crcShift (crcShift (crcShift (crcShift r)))))))

/-- The checksum of a byte string. -/
def crc8 (bytes : Bytes) : UInt8 := bytes.foldl crcStep 0

/-! ## Small lemmas -/

@[simp] theorem crc8_nil : crc8 [] = 0 := rfl

theorem crc8_append_singleton (bytes : Bytes) (b : UInt8) :
    crc8 (bytes ++ [b]) = crcStep (crc8 bytes) b := by
  simp [crc8]

end Rmap

end GroundStation
