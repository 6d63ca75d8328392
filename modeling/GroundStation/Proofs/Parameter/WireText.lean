/-
# Values that survive the wire

A value is published as text, and a client that sends the text back means the value.  The text is not the one
from which the value was read: blanks around it are gone, letters have become small, a sign or zeros in front of a
number are gone, and so is `0x`.  What is left has nothing more to be taken away, so it is read as the value
again (`parse?_valueText`).

This is said of integers, truth values, texts and hexadecimal texts.  A value in binary floating point is published
with the fewest digits that read back, and that these do read back is another matter.
-/
import GroundStation.Proofs.Parameter.Characters
import GroundStation.Proofs.Parameter.Values
import GroundStation.Wire.Reply

namespace GroundStation

namespace Text

/-- The numeral of an integer has digits, and perhaps a sign. -/
theorem isPlain_of_mem_ofInt {n : Int} {c : Char} (h : c ∈ ofInt n) : isPlain c = true := by
  cases n with
  | ofNat n => exact isPlain_of_isDigit (isDigit_of_mem_ofNat h)
  | negSucc n =>
    rcases List.mem_cons.mp h with rfl | hdigit
    · rfl
    · exact isPlain_of_isDigit (isDigit_of_mem_ofNat hdigit)

end Text

namespace Hex

variable {t : Text}

/-- A small digit is small. -/
theorem toLower_digit {n : Nat} (h : n < 16) : (digit n).toLower = digit n :=
  (value?_eq_some_iff.mp (value?_digit h)).2

theorem allDigits_of_small (small : ∀ c ∈ t, ∃ n < 16, c = digit n) : allDigits t = true := by
  refine List.all_eq_true.mpr ?_
  intro c hc
  obtain ⟨n, hn, rfl⟩ := small c hc
  rw [value?_digit hn]
  rfl

theorem lower_of_small (small : ∀ c ∈ t, ∃ n < 16, c = digit n) : Text.lower t = t := by
  induction t with
  | nil => rfl
  | cons c t ih =>
    obtain ⟨⟨n, hn, rfl⟩, hrest⟩ := List.forall_mem_cons.mp small
    show (digit n).toLower :: Text.lower t = digit n :: t
    rw [toLower_digit hn, ih hrest]

theorem solid_of_allDigits (digits : allDigits t = true) : ∀ c ∈ t, Text.isBlank c = false := by
  intro c hc
  exact Text.not_isBlank_of_isPlain (isPlain_of_value (List.all_eq_true.mp digits c hc))

end Hex

namespace ValueType

/-- Of small digits in even number all are kept, and as they are. -/
theorem hexDigits?_of_small {t : Text} (even : t.length % 2 = 0) (small : ∀ c ∈ t, ∃ n < 16, c = Hex.digit n) :
    hexDigits? t = some t := by
  have digits := Hex.allDigits_of_small small
  have unmarked : Text.after? "0x" t = none := Hex.after?_of_allDigits digits (.inl rfl) (by decide)
  unfold hexDigits?
  rw [unmarked]
  show (if t.length % 2 = 0 ∧ Hex.allDigits t = true then some (Text.lower t) else none) = some t
  rw [if_pos ⟨even, digits⟩, Hex.lower_of_small small]

/-- A value of a type is read from its text on the wire. -/
theorem parse?_valueText_of_admits {type : ValueType} (ne : type ≠ .float) {v : Json} (admits : type.Admits v) :
    type.parse? (Wire.valueText (some v)) = some v := by
  cases admits with
  | @int n low high =>
    have solid : ∀ c ∈ Text.ofInt n, Text.isBlank c = false := by
      intro c hc
      exact Text.not_isBlank_of_isPlain (Text.isPlain_of_mem_ofInt hc)
    have read : Integer.int64? (Text.ofInt n) = some n := Integer.signed?_ofInt (by omega) (by omega)
    show (Integer.int64? (Text.trim (Text.ofInt n))).map Json.int = some (.int n)
    rw [Text.trim_of_solid solid, read]
    rfl
  | float x => exact absurd rfl ne
  | bool b => cases b <;> rfl
  | @str t trimmed =>
    show some (Json.str (Text.trim t)) = some (.str t)
    rw [trimmed]
  | @hex t even small =>
    have solid := Hex.solid_of_allDigits (Hex.allDigits_of_small small)
    show (hexDigits? (Text.trim t)).map Json.str = some (.str t)
    rw [Text.trim_of_solid solid, hexDigits?_of_small even small]
    rfl

/-- Of the types `int`, `bool`, `str` and `hex`: whatever text is read, the value is read again from its text on the
wire.  And the values that are read from their own texts are those of the type, all of them. -/
theorem parse?_valueText {type : ValueType} (ne : type ≠ .float) :
    (∀ t v, type.parse? t = some v → type.parse? (Wire.valueText (some v)) = some v) ∧
      ∀ v, type.parse? (Wire.valueText (some v)) = some v ↔ type.Admits v := by
  constructor
  · intro t v read
    exact parse?_valueText_of_admits ne (admits_of_parse? read)
  · intro v
    constructor
    · intro read
      exact admits_of_parse? read
    · intro admits
      exact parse?_valueText_of_admits ne admits

/-- The least integer, with zeros in front of it and blanks around it. -/
theorem parse?_valueText_least :
    ValueType.int ≠ .float ∧
      ValueType.int.parse? "\t-009223372036854775808 " = some (.int (-9223372036854775808)) ∧
      Wire.valueText (some (.int (-9223372036854775808))) = ("-9223372036854775808" : Text) ∧
      ValueType.int.parse? "-9223372036854775808" = some (.int (-9223372036854775808)) := by
  have ne : ValueType.int ≠ .float := by decide
  have read : ValueType.int.parse? "\t-009223372036854775808 " = some (.int (-9223372036854775808)) := by decide +kernel
  have written : Wire.valueText (some (.int (-9223372036854775808))) = ("-9223372036854775808" : Text) := by
    decide +kernel
  have again := (parse?_valueText ne).1 _ _ read
  rw [written] at again
  exact ⟨ne, read, written, again⟩

end ValueType

end GroundStation
