/-
# Hexadecimal digits and byte strings

A byte is written as two digits, high half first, always in small letters; both letter cases are read.
-/
import GroundStation.Text.Utf8

namespace GroundStation

namespace Hex

/-- The small hexadecimal digit of a number below sixteen. -/
def digit (n : Nat) : Char := if n < 10 then Char.ofNat (48 + n) else Char.ofNat (87 + n)

/-- The value of a hexadecimal digit of either letter case. -/
def value? (c : Char) : Option Nat :=
  let n := c.toNat
  if 48 ≤ n ∧ n ≤ 57 then some (n - 48)
  else if 97 ≤ n ∧ n ≤ 102 then some (n - 87)
  else if 65 ≤ n ∧ n ≤ 70 then some (n - 55)
  else none

/-- Whether every character is a hexadecimal digit. -/
def allDigits (t : Text) : Bool := t.all fun c => (value? c).isSome

/-- Two small digits for each byte. -/
def encode (bs : Bytes) : Text :=
  bs.flatMap fun b => [digit (b.toNat / 16), digit (b.toNat % 16)]

/-- Reads pairs of digits; an odd number of them, or any other character, is refused. -/
def decode? : Text → Option Bytes
  | [] => some []
  | [_] => none
  | a :: b :: t =>
    match value? a, value? b, decode? t with
    | some hi, some lo, some bs => some ((hi * 16 + lo).toUInt8 :: bs)
    | _, _, _ => none

/-! ## Small lemmas -/

@[simp] theorem encode_nil : encode [] = [] := rfl

@[simp] theorem encode_cons (b : UInt8) (bs : Bytes) :
    encode (b :: bs) = digit (b.toNat / 16) :: digit (b.toNat % 16) :: encode bs := rfl

theorem value?_digit {n : Nat} (h : n < 16) : value? (digit n) = some n := by
  have : ∀ m : Fin 16, value? (digit m) = some m.val := by decide
  exact this ⟨n, h⟩

/-- Reading gives back the bytes that were written. -/
theorem decode?_encode (bs : Bytes) : decode? (encode bs) = some bs := by
  induction bs with
  | nil => rfl
  | cons b bs ih =>
    have hb := b.toNat_lt
    have hi : b.toNat / 16 < 16 := by omega
    have lo : b.toNat % 16 < 16 := by omega
    simp only [encode_cons, decode?, value?_digit hi, value?_digit lo, ih]
    have : b.toNat / 16 * 16 + b.toNat % 16 = b.toNat := by omega
    simp [this]

end Hex

end GroundStation
