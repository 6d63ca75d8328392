/-
# Data in hexadecimal

The data of a command is text: digits of either letter case, two for a byte, and perhaps `0x` or `0X` in front.
No letter of such a mark is a digit, so a mark is taken off exactly where there is one, and a text with two of
them is refused like any other that holds more than digits.

The bytes that are read are written with the same digits in small letters (`encode_of_decode?`).  So reading undoes
writing, and writing undoes reading but for the mark and the letter case (`readHex_marked`).
-/
import GroundStation.Proofs.Number.Numeral
import GroundStation.Proofs.Rmap.RoundTrip

namespace GroundStation

/-! ## Digits and bytes -/

namespace Hex

/-- The bytes of digits are written with the same digits in small letters. -/
theorem encode_of_decode? : ∀ {t : Text} {bytes : Bytes}, decode? t = some bytes → encode bytes = Text.lower t
  | [], _, h => by
      cases h
      rfl
  | [_], _, h => by cases h
  | a :: b :: t, _, h => by
      rw [decode?] at h
      split at h
      · next hi lo rest ha hb hrest =>
        cases h
        obtain ⟨hhi, ha⟩ := value?_eq_some_iff.mp ha
        obtain ⟨hlo, hb⟩ := value?_eq_some_iff.mp hb
        have hsize : hi * 16 + lo < 256 := by omega
        have hbyte : ((hi * 16 + lo).toUInt8).toNat = hi * 16 + lo := UInt8.toNat_ofNat_of_lt hsize
        have hhigh : (hi * 16 + lo) / 16 = hi := by omega
        have hlow : (hi * 16 + lo) % 16 = lo := by omega
        rw [encode_cons, encode_of_decode? hrest, hbyte, hhigh, hlow, ← ha, ← hb]
        rfl
      · cases h

/-- The letter of a mark is no digit. -/
theorem not_allDigits_of_mem {t : Text} {x : Char} (marked : x = 'x' ∨ x = 'X') (h : x ∈ t) :
    ¬allDigits t = true := by
  intro digits
  have hx : (value? x).isSome = true := List.all_eq_true.mp digits x h
  rcases marked with rfl | rfl
  · cases hx
  · cases hx

/-- A mark with such a letter is not found where there are only digits. -/
theorem after?_of_allDigits {mark t : Text} {x : Char} (digits : allDigits t = true) (marked : x = 'x' ∨ x = 'X')
    (h : x ∈ mark) : Text.after? mark t = none := by
  cases found : Text.after? mark t with
  | none => rfl
  | some rest =>
    rw [Text.after?_eq_some_iff.mp found] at digits
    exact absurd digits (not_allDigits_of_mem marked (List.mem_append_left rest h))

/-- A digit, of either letter case. -/
def IsDigit (c : Char) : Prop := '0' ≤ c ∧ c ≤ '9' ∨ 'a' ≤ c ∧ c ≤ 'f' ∨ 'A' ≤ c ∧ c ≤ 'F'

theorem isSome_value?_iff {c : Char} : (value? c).isSome = true ↔ IsDigit c := by
  have hle : ∀ a b : Char, a ≤ b ↔ a.toNat ≤ b.toNat := fun _ _ => UInt32.le_iff_toNat_le
  simp only [IsDigit, hle, value?]
  grind

/-- Digits, two and two. -/
structure Paired (digits : Text) : Prop where
  even : digits.length % 2 = 0
  all : ∀ c ∈ digits, IsDigit c

theorem paired_iff {t : Text} : Paired t ↔ t.length % 2 = 0 ∧ allDigits t = true := by
  have hall : allDigits t = true ↔ ∀ c ∈ t, IsDigit c := by
    simp only [allDigits, List.all_eq_true, isSome_value?_iff]
  constructor
  · intro h
    exact ⟨h.even, hall.mpr h.all⟩
  · rintro ⟨even, digits⟩
    exact ⟨even, hall.mp digits⟩

instance (t : Text) : Decidable (Paired t) := decidable_of_iff _ paired_iff.symm

theorem exists_decode?_iff_paired {t : Text} : (∃ bytes, decode? t = some bytes) ↔ Paired t := by
  rw [exists_decode?_iff, paired_iff]

theorem paired_encode (bytes : Bytes) : Paired (encode bytes) :=
  exists_decode?_iff_paired.mp ⟨bytes, decode?_encode bytes⟩

end Hex

namespace Rmap

/-! ## The mark in front -/

/-- A text with at most one mark in front. -/
inductive Marked (digits : Text) : Text → Prop
  | bare : Marked digits digits
  | behind {x : Char} : x = 'x' ∨ x = 'X' → Marked digits ('0' :: x :: digits)

/-- The digits that stand behind `0x` or `0X`. -/
theorem orElse_after?_eq_some_iff {word digits : Text} :
    ((Text.after? "0x" word).orElse fun _ => Text.after? "0X" word) = some digits ↔
      ∃ x, (x = 'x' ∨ x = 'X') ∧ word = '0' :: x :: digits := by
  constructor
  · intro h
    cases hsmall : Text.after? "0x" word with
    | some r =>
      rw [hsmall] at h
      cases h
      exact ⟨'x', .inl rfl, Text.after?_eq_some_iff.mp hsmall⟩
    | none =>
      rw [hsmall] at h
      exact ⟨'X', .inr rfl, Text.after?_eq_some_iff.mp h⟩
  · rintro ⟨x, rfl | rfl, rfl⟩
    · rfl
    · rfl

theorem hexBody_behind {x : Char} (hx : x = 'x' ∨ x = 'X') (digits : Text) : hexBody ('0' :: x :: digits) = digits := by
  rw [hexBody, orElse_after?_eq_some_iff.mpr ⟨x, hx, rfl⟩]
  rfl

/-- Where there are only digits, none of them is taken for a mark. -/
theorem hexBody_of_allDigits {t : Text} (digits : Hex.allDigits t = true) : hexBody t = t := by
  have small : Text.after? "0x" t = none := Hex.after?_of_allDigits digits (.inl rfl) (by decide)
  have capital : Text.after? "0X" t = none := Hex.after?_of_allDigits digits (.inr rfl) (by decide)
  rw [hexBody, small, capital]
  rfl

/-- No more than a mark is taken off. -/
theorem marked_hexBody (t : Text) : Marked (hexBody t) t := by
  cases hmark : (Text.after? "0x" t).orElse fun _ => Text.after? "0X" t with
  | some digits =>
    obtain ⟨x, hx, rfl⟩ := orElse_after?_eq_some_iff.mp hmark
    rw [hexBody_behind hx]
    exact .behind hx
  | none =>
    rw [hexBody, hmark]
    exact .bare

theorem Marked.hexBody_eq {digits t : Text} (h : Marked digits t) (paired : Hex.Paired digits) :
    hexBody t = digits := by
  cases h with
  | bare => exact hexBody_of_allDigits (Hex.paired_iff.mp paired).2
  | behind hx => exact hexBody_behind hx digits

/-! ## Reading -/

theorem readHex_eq_ok_iff {t : Text} {bytes : Bytes} :
    readHex t = .ok bytes ↔ Hex.decode? (hexBody t) = some bytes := by
  rw [readHex]
  cases Hex.decode? (hexBody t) <;> simp

/-- What bytes are written as is read as these bytes, with a mark in front and without. -/
theorem Marked.readHex_eq {bytes : Bytes} {t : Text} (h : Marked (Hex.encode bytes) t) : readHex t = .ok bytes := by
  rw [readHex_eq_ok_iff, h.hexBody_eq (Hex.paired_encode bytes), Hex.decode?_encode]

theorem readHex_encode (bytes : Bytes) : readHex (Hex.encode bytes) = .ok bytes := Marked.bare.readHex_eq

/-- What is read is digits, two and two, with at most one mark in front. -/
theorem exists_readHex_iff_marked {t : Text} :
    (∃ bytes, readHex t = .ok bytes) ↔ ∃ digits, Marked digits t ∧ Hex.Paired digits := by
  simp only [readHex_eq_ok_iff, Hex.exists_decode?_iff_paired]
  constructor
  · exact fun paired => ⟨hexBody t, marked_hexBody t, paired⟩
  · rintro ⟨digits, marked, paired⟩
    rwa [marked.hexBody_eq paired]

/-- A second mark is not taken off. -/
example : readHex "0x0x0a" = .error (.invalidHex "0x0x0a") := rfl

theorem encode_of_readHex {digits t : Text} {bytes : Bytes} (marked : Marked digits t) (paired : Hex.Paired digits)
    (h : readHex t = .ok bytes) : Hex.encode bytes = Text.lower digits := by
  rw [readHex_eq_ok_iff, marked.hexBody_eq paired] at h
  exact Hex.encode_of_decode? h

/-- Bytes are read back from what they are written as, with a mark in front and without.  A text is read if and
only if it is digits of an even number with at most one mark in front, and the bytes that are read from it are
written as these digits in small letters. -/
theorem readHex_marked :
    (∀ (bytes : Bytes) (t : Text), Marked (Hex.encode bytes) t → readHex t = .ok bytes) ∧
    (∀ t : Text, (∃ bytes, readHex t = .ok bytes) ↔ ∃ digits, Marked digits t ∧ Hex.Paired digits) ∧
    ∀ (digits t : Text) (bytes : Bytes), Marked digits t → Hex.Paired digits → readHex t = .ok bytes →
      Hex.encode bytes = Text.lower digits := by
  refine ⟨?_, ?_, ?_⟩
  · intro bytes t marked
    exact marked.readHex_eq
  · intro t
    exact exists_readHex_iff_marked
  · intro digits t bytes marked paired h
    exact encode_of_readHex marked paired h

/-- Digits of both letter cases behind `0X`, and the same bytes as they are written. -/
theorem readHex_marked_capital :
    let bytes : Bytes := [0xDE, 0xAD, 0x01]
    Marked (Hex.encode bytes) "0Xdead01" ∧ readHex "0Xdead01" = .ok bytes ∧
      Marked "dEaD01" "0XdEaD01" ∧ Hex.Paired "dEaD01" ∧ readHex "0XdEaD01" = .ok bytes ∧
      Hex.encode bytes = Text.lower "dEaD01" := by
  intro bytes
  obtain ⟨hback, -, hdigits⟩ := readHex_marked
  have written : Marked (Hex.encode bytes) "0Xdead01" := .behind (.inr rfl)
  have marked : Marked "dEaD01" "0XdEaD01" := .behind (.inr rfl)
  have paired : Hex.Paired "dEaD01" := by decide
  have hread : readHex "0XdEaD01" = .ok bytes := rfl
  exact ⟨written, hback bytes _ written, marked, paired, hread, hdigits _ _ bytes marked paired hread⟩

end Rmap

end GroundStation
