/-
# One notion of hexadecimal text

Hexadecimal text is read in two places.  A parameter of the type `hex` takes it from an operator or a device
and keeps it as text, its letters made small; the codec takes it for the data of a command and turns it into
bytes.  Both read an even number of digits of either letter case, and both allow `0x` in front.

What the type keeps is the writing of the bytes that the codec reads, so a command has the same packet
whether it is given the text or the value that was made of it.  The two part at one place: `0X` in front is
allowed by the codec, as by every other reader of numbers here, and not by the type (`hexDigits?_eq_some_iff`).
So they agree on a text if and only if it is no hexadecimal text behind `0X` (`parse?_hex_agrees`).
-/
import GroundStation.Parameter.ValueType
import GroundStation.Proofs.Rmap.HexData

namespace GroundStation

namespace Rmap

/-- A command has the packet that its data has, however the data is written. -/
theorem encode_congr {codec : Codec} {command : Command} {t : Text} (same : readHex command.data = readHex t) :
    codec.encode command = codec.encode { command with data := t } := by
  simp only [Codec.encode, same]
  rfl

end Rmap

/-! ## What the type keeps -/

namespace ValueType

/-- The digits that the type keeps are the writing of bytes. -/
theorem hexDigits?_eq_some_iff_decode? {t s : Text} :
    hexDigits? t = some s ↔
      ∃ bytes, Hex.decode? ((Text.after? "0x" t).getD t) = some bytes ∧ s = Hex.encode bytes := by
  unfold hexDigits?
  dsimp only
  constructor
  · intro h
    split at h
    · next digits =>
      obtain ⟨bytes, hbytes⟩ := Hex.exists_decode?_iff.mpr digits
      cases h
      exact ⟨bytes, hbytes, (Hex.encode_of_decode? hbytes).symm⟩
    · cases h
  · rintro ⟨bytes, hbytes, rfl⟩
    rw [if_pos (Hex.exists_decode?_iff.mp ⟨bytes, hbytes⟩), Hex.encode_of_decode? hbytes]

/-- The type reads what the codec reads, but for what stands behind `0X`. -/
theorem hexDigits?_eq_some_iff {t s : Text} :
    hexDigits? t = some s ↔
      Text.after? "0X" t = none ∧ ∃ bytes, Rmap.readHex t = .ok bytes ∧ s = Hex.encode bytes := by
  simp only [hexDigits?_eq_some_iff_decode?, Rmap.readHex_eq_ok_iff, Rmap.hexBody]
  cases hsmall : Text.after? "0x" t with
  | some r =>
    have hcapital : Text.after? "0X" t = none := by
      rw [Text.after?_eq_some_iff.mp hsmall]
      rfl
    exact (and_iff_right hcapital).symm
  | none =>
    cases hcapital : Text.after? "0X" t with
    | none => exact (and_iff_right rfl).symm
    | some r =>
      -- the whole text is taken for digits then, and `X` is none
      have hnone : ∀ bytes, Hex.decode? t ≠ some bytes := by
        intro bytes hbytes
        refine Hex.not_allDigits_of_mem (.inr rfl) ?_ (Hex.exists_decode?_iff.mp ⟨bytes, hbytes⟩).2
        rw [Text.after?_eq_some_iff.mp hcapital]
        exact List.mem_cons_of_mem _ List.mem_cons_self
      refine iff_of_false ?_ fun h => Option.some_ne_none r h.1
      rintro ⟨bytes, hbytes, -⟩
      exact hnone bytes hbytes

theorem parse?_hex_eq_some_iff {t : Text} (bare : Text.trim t = t) {v : Json} :
    hex.parse? t = some v ↔
      Text.after? "0X" t = none ∧ ∃ bytes, Rmap.readHex t = .ok bytes ∧ v = .str (Hex.encode bytes) := by
  rw [parse?, bare]
  simp only [Option.map_eq_some_iff, hexDigits?_eq_some_iff]
  constructor
  · rintro ⟨_, ⟨hcapital, bytes, hbytes, rfl⟩, rfl⟩
    exact ⟨hcapital, bytes, hbytes, rfl⟩
  · rintro ⟨hcapital, bytes, hbytes, rfl⟩
    exact ⟨_, ⟨hcapital, bytes, hbytes, rfl⟩, rfl⟩

end ValueType

namespace Rmap

/-- Of every text without blanks at its ends: the type `hex` gives it a value exactly if the codec reads it,
unless digits of an even number stand in it behind `0X`, and then never.  The value is the writing of the bytes
that the codec reads, and every command with the text for its data has the packet that it has with the
value. -/
theorem parse?_hex_agrees {t : Text} (bare : Text.trim t = t) :
    (((∃ v, ValueType.hex.parse? t = some v) ↔ ∃ bytes, readHex t = .ok bytes) ↔
      ¬∃ digits : Text, t = "0X" ++ digits ∧ digits.length % 2 = 0 ∧ Hex.allDigits digits = true) ∧
    ∀ v, ValueType.hex.parse? t = some v → ∃ bytes, readHex t = .ok bytes ∧ v = .str (Hex.encode bytes) ∧
      ∀ (codec : Codec) (command : Command), command.data = t →
        codec.encode command = codec.encode { command with data := Hex.encode bytes } := by
  have hparse := fun v => ValueType.parse?_hex_eq_some_iff bare (v := v)
  refine ⟨?_, fun v hv => ?_⟩
  · cases hcapital : Text.after? "0X" t with
    | none =>
      refine iff_of_true ?_ ?_
      · constructor
        · rintro ⟨v, hv⟩
          obtain ⟨-, bytes, hbytes, -⟩ := (hparse v).mp hv
          exact ⟨bytes, hbytes⟩
        · rintro ⟨bytes, hbytes⟩
          exact ⟨_, (hparse _).mpr ⟨hcapital, bytes, hbytes, rfl⟩⟩
      · rintro ⟨digits, rfl, -⟩
        cases hcapital
    | some r =>
      have ht := Text.after?_eq_some_iff.mp hcapital
      have hnone : ¬∃ v, ValueType.hex.parse? t = some v := by
        rintro ⟨v, hv⟩
        rw [hparse, hcapital] at hv
        cases hv.1
      have hread : (∃ bytes, readHex t = .ok bytes) ↔ r.length % 2 = 0 ∧ Hex.allDigits r = true := by
        have hbody : hexBody t = r := by
          rw [ht]
          rfl
        rw [exists_readHex_iff, HexData, hbody]
      rw [iff_false_left hnone, hread]
      refine not_congr ⟨fun h => ⟨r, ht, h⟩, ?_⟩
      rintro ⟨digits, hdigits, h⟩
      rw [List.append_cancel_left (ht.symm.trans hdigits)]
      exact h
  · obtain ⟨-, bytes, hbytes, rfl⟩ := (hparse v).mp hv
    refine ⟨bytes, hbytes, rfl, fun codec command hdata => encode_congr ?_⟩
    rw [hdata, hbytes, readHex_encode]

/-- Digits of both letter cases behind `0x` are three bytes for the codec, and the type keeps their writing. -/
theorem parse?_hex_agrees_mixed :
    Text.trim "0xC0ffEE" = ("0xC0ffEE" : Text) ∧ ValueType.hex.parse? "0xC0ffEE" = some (.str "c0ffee") ∧
      ∃ bytes, readHex "0xC0ffEE" = .ok bytes ∧ Json.str "c0ffee" = .str (Hex.encode bytes) ∧
        ∀ (codec : Codec) (command : Command), command.data = ("0xC0ffEE" : Text) →
          codec.encode command = codec.encode { command with data := Hex.encode bytes } := by
  have bare : Text.trim "0xC0ffEE" = ("0xC0ffEE" : Text) := by decide
  have hparse : ValueType.hex.parse? "0xC0ffEE" = some (.str "c0ffee") := by decide
  exact ⟨bare, hparse, (parse?_hex_agrees bare).2 _ hparse⟩

/-- Behind `0X` the codec reads a byte, and the type gives no value. -/
theorem parse?_hex_capitalMark :
    Text.trim "0XAB" = ("0XAB" : Text) ∧ ValueType.hex.parse? "0XAB" = none ∧ readHex "0XAB" = .ok [0xAB] :=
  ⟨by decide, by decide, rfl⟩

end Rmap

end GroundStation
