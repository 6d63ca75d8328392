/-
# What the checksum tells apart

Every shift of the register can be undone: the bit that was shifted out is the top bit of the result, since
the polynomial has that bit and a shifted register has not.  So a step loses nothing, neither of the
register nor of the byte, and two byte strings that differ in one byte have different checksums, however
long they are (`crc8_set_ne`).

A byte string with its checksum behind it has the checksum zero (`crc8_beq`).
Whether a header or data agrees with its checksum is thus a property of one stretch of bytes, and a change
in that stretch, be it of the checksum or of what it covers, is a change of one byte of it.
-/
import GroundStation.Rmap.Crc

namespace GroundStation

namespace Rmap

/-! ## Shifts and steps -/

/-- The register before a shift. -/
def crcUnshift (r : UInt8) : UInt8 := if r &&& 0x80 = 0 then r <<< 1 else ((r ^^^ 0xE0) <<< 1) ||| 1

theorem crcUnshift_crcShift (r : UInt8) : crcUnshift (crcShift r) = r := by
  have hall : ∀ n : Fin 256, crcUnshift (crcShift (UInt8.ofNat n)) = UInt8.ofNat n := by
    decide +kernel
  have hr := hall ⟨r.toNat, r.toNat_lt⟩
  rwa [UInt8.ofNat_toNat] at hr

theorem crcShift_inj {r r' : UInt8} : crcShift r = crcShift r' ↔ r = r' := by
  constructor
  · intro h
    rw [← crcUnshift_crcShift r, h, crcUnshift_crcShift]
  · rintro rfl
    rfl

theorem crcStep_inj {r r' b b' : UInt8} : crcStep r b = crcStep r' b' ↔ r ^^^ b = r' ^^^ b' := by
  simp only [crcStep, crcShift_inj]

theorem crcStep_left_inj {r r' b : UInt8} : crcStep r b = crcStep r' b ↔ r = r' := by
  rw [crcStep_inj, UInt8.xor_left_inj]

theorem crcStep_right_inj {r b b' : UInt8} : crcStep r b = crcStep r b' ↔ b = b' := by
  rw [crcStep_inj, UInt8.xor_right_inj]

/-- A register that meets itself is cleared, and nothing else clears it. -/
theorem crcStep_eq_zero_iff {r b : UInt8} : crcStep r b = 0 ↔ r = b := by
  have hzero : crcStep 0 0 = 0 := by decide
  rw [← hzero, crcStep_inj, UInt8.xor_self, UInt8.xor_eq_zero_iff]

/-! ## Byte strings -/

theorem foldl_crcStep_inj (bytes : Bytes) :
    ∀ {r r' : UInt8}, bytes.foldl crcStep r = bytes.foldl crcStep r' ↔ r = r' := by
  induction bytes with
  | nil => exact Iff.rfl
  | cons b rest ih =>
    intro r r'
    rw [List.foldl_cons, List.foldl_cons, ih, crcStep_left_inj]

theorem foldl_crcStep_set_ne {v : UInt8} :
    ∀ {bytes : Bytes} {i : Nat} (r : UInt8) (h : i < bytes.length), v ≠ bytes[i] →
      (bytes.set i v).foldl crcStep r ≠ bytes.foldl crcStep r := by
  intro bytes
  induction bytes with
  | nil => exact fun _ h => absurd h (Nat.not_lt_zero _)
  | cons b rest ih =>
    intro i r h ne
    cases i with
    | zero =>
      -- behind the byte that differs the registers differ, and stay different
      rw [List.set_cons_zero, List.foldl_cons, List.foldl_cons, Ne, foldl_crcStep_inj,
        crcStep_right_inj]
      exact ne
    | succ i =>
      rw [List.set_cons_succ, List.foldl_cons, List.foldl_cons]
      exact ih (crcStep r b) (Nat.lt_of_succ_lt_succ h) ne

/-- Byte strings that differ in one byte have different checksums. -/
theorem crc8_set_ne {bytes : Bytes} {i : Nat} {v : UInt8} (h : i < bytes.length) (ne : v ≠ bytes[i]) :
    crc8 (bytes.set i v) ≠ crc8 bytes :=
  foldl_crcStep_set_ne 0 h ne

/-- Bytes with a checksum behind them have the checksum zero where it is their own. -/
theorem crc8_beq (bytes : Bytes) (crc : UInt8) : (crc8 bytes == crc) = (crc8 (bytes ++ [crc]) == 0) := by
  rw [Bool.eq_iff_iff, beq_iff_eq, beq_iff_eq, crc8_append_singleton, crcStep_eq_zero_iff]

theorem crc8_append_self (bytes : Bytes) : crc8 (bytes ++ [crc8 bytes]) = 0 := by
  rw [← beq_iff_eq, ← crc8_beq, beq_self_eq_true]

end Rmap

end GroundStation
