/-
# Which characters an argument of a type may hold

A text of any type but `str` is a word of a few characters: letters, digits, a sign or a point.  The type is
checked on the trimmed text, so this is said of the trimmed text too (`isPlain_of_parse`); around it there
may be any blanks.
-/
import GroundStation.Parameter.ValueType
import GroundStation.Proofs.Number.Numeral

namespace GroundStation

namespace Text

/-- The characters of numbers and of words: letters and digits of ASCII, signs and the point. -/
def isPlain (c : Char) : Bool :=
  let n := c.toNat
  (48 ≤ n && n ≤ 57) || (65 ≤ n && n ≤ 90) || (97 ≤ n && n ≤ 122) || n == 43 || n == 45 || n == 46

theorem isPlain_of_isDigit {c : Char} (h : c.isDigit = true) : isPlain c = true := by
  obtain ⟨low, high⟩ := Char.isDigit_iff_toNat.mp h
  have hlow : 48 ≤ c.toNat := low
  have hhigh : c.toNat ≤ 57 := high
  simp [isPlain, hlow, hhigh]

theorem not_isBlank_of_isPlain {c : Char} (h : isPlain c = true) : isBlank c = false := by
  rw [Bool.eq_false_iff]
  intro hblank
  simp only [isPlain, Bool.or_eq_true, Bool.and_eq_true, decide_eq_true_eq, beq_iff_eq] at h
  simp only [isBlank, Bool.or_eq_true, Bool.and_eq_true, decide_eq_true_eq, beq_iff_eq] at hblank
  omega

/-- A capital letter is as plain as the small one. -/
theorem isPlain_of_toLower {c : Char} (h : isPlain c.toLower = true) : isPlain c = true := by
  unfold Char.toLower at h
  split at h
  · next capital =>
    have hlow : 65 ≤ c.toNat := UInt32.le_iff_toNat_le.mp capital.1
    have hhigh : c.toNat ≤ 90 := UInt32.le_iff_toNat_le.mp capital.2
    simp [isPlain, hlow, hhigh]
  · exact h

/-- What is in some letter case a plain word is plain. -/
theorem isPlain_of_lower {t word : Text} (h : lower t = word) (plain : word.all isPlain = true) :
    ∀ c ∈ t, isPlain c = true := by
  intro c hc
  exact isPlain_of_toLower (List.all_eq_true.mp plain _ (h ▸ List.mem_map_of_mem hc))

end Text

open Text

theorem Hex.isPlain_of_value {c : Char} (h : (value? c).isSome = true) : isPlain c = true := by
  unfold value? at h
  simp only [isPlain, Bool.or_eq_true, Bool.and_eq_true, decide_eq_true_eq, beq_iff_eq]
  dsimp only at h
  split at h
  · omega
  · split at h
    · omega
    · split at h
      · omega
      · cases h

namespace Integer

theorem isPlain_of_digitsFrom {radix : Nat} {t : Text} :
    ∀ {value : Nat}, digitsFrom? radix value t ≠ none → ∀ c ∈ t, isPlain c = true := by
  induction t with
  | nil => exact fun _ => List.forall_mem_nil _
  | cons c t ih =>
    intro value h
    rw [digitsFrom?] at h
    split at h
    · next d hd =>
      split at h
      · exact List.forall_mem_cons.mpr ⟨Hex.isPlain_of_value (hd ▸ rfl), ih h⟩
      · exact absurd rfl h
    · exact absurd rfl h

theorem isPlain_of_digits {radix : Nat} {t : Text} (h : digits? radix t ≠ none) : ∀ c ∈ t, isPlain c = true := by
  unfold digits? at h
  split at h
  · exact absurd rfl h
  · exact isPlain_of_digitsFrom h

theorem isPlain_of_int64 {t : Text} (h : int64? t ≠ none) : ∀ c ∈ t, isPlain c = true := by
  unfold int64? signed? at h
  split at h
  · exact List.forall_mem_cons.mpr ⟨by decide, isPlain_of_digits fun none => h (by rw [none]; rfl)⟩
  · exact List.forall_mem_cons.mpr ⟨by decide, isPlain_of_digits fun none => h (by rw [none]; rfl)⟩
  · exact isPlain_of_digits fun none => h (by rw [none]; rfl)

end Integer

namespace Decimal

theorem isPlain_of_digitRun {t : Text} (rest : ∀ c ∈ (digitRun t).2, isPlain c = true) :
    ∀ c ∈ t, isPlain c = true := by
  have split : (digitRun t).1 ++ (digitRun t).2 = t := List.takeWhile_append_dropWhile
  rw [← split]
  refine List.forall_mem_append.mpr ⟨fun c hc => ?_, rest⟩
  exact isPlain_of_isDigit (List.all_eq_true.mp List.all_takeWhile c hc)

/-- Whether a minus sign leads a text, and what stands behind a sign. -/
def signed (t : Text) : Bool × Text :=
  match t with
  | '-' :: r => (true, r)
  | '+' :: r => (false, r)
  | r => (false, r)

theorem isPlain_of_signed {t : Text} (rest : ∀ c ∈ (signed t).2, isPlain c = true) :
    ∀ c ∈ t, isPlain c = true := by
  unfold signed at rest
  split at rest
  · exact List.forall_mem_cons.mpr ⟨by decide, rest⟩
  · exact List.forall_mem_cons.mpr ⟨by decide, rest⟩
  · exact rest

theorem exponentPart_cons (c : Char) (t : Text) :
    exponentPart? (c :: t) =
      if c = 'e' ∨ c = 'E' then
        if (digitRun (signed t).2).1.isEmpty ∨ !(digitRun (signed t).2).2.isEmpty then none
        else some (if (signed t).1 then -(valueOf (digitRun (signed t).2).1 : Int)
          else (valueOf (digitRun (signed t).2).1 : Int))
      else none := by
  rw [exponentPart?.eq_def]
  rfl

theorem isPlain_of_exponentPart {t : Text} (h : exponentPart? t ≠ none) : ∀ c ∈ t, isPlain c = true := by
  cases t with
  | nil => exact List.forall_mem_nil _
  | cons c t =>
    rw [exponentPart_cons] at h
    split at h
    · next e =>
      split at h
      · exact absurd rfl h
      · next whole =>
        have he : isPlain c = true := by rcases e with rfl | rfl <;> decide
        have empty : (digitRun (signed t).2).2 = [] := by simpa using (not_or.mp whole).2
        refine List.forall_mem_cons.mpr ⟨he, isPlain_of_signed (isPlain_of_digitRun ?_)⟩
        rw [empty]
        exact List.forall_mem_nil _
    · exact absurd rfl h

theorem isPlain_of_unsigned {negative : Bool} {t : Text} (h : unsigned? negative t ≠ none) :
    ∀ c ∈ t, isPlain c = true := by
  refine isPlain_of_digitRun ?_
  unfold unsigned? at h
  dsimp only at h
  split at h
  · next r heq =>
    rw [heq]
    refine List.forall_mem_cons.mpr ⟨by decide, isPlain_of_digitRun ?_⟩
    split at h
    · exact absurd rfl h
    · exact isPlain_of_exponentPart fun none => h (by rw [none]; rfl)
  · split at h
    · exact absurd rfl h
    · exact isPlain_of_exponentPart fun none => h (by rw [none]; rfl)

theorem isPlain_of_read {t : Text} (h : read? t ≠ none) : ∀ c ∈ t, isPlain c = true := by
  have read : read? t =
      if lower (signed t).2 = "inf" ∨ lower (signed t).2 = "infinity" then some (.infinite (signed t).1)
      else if lower (signed t).2 = "nan" then some .nan
      else unsigned? (signed t).1 (signed t).2 := rfl
  refine isPlain_of_signed ?_
  rw [read] at h
  split at h
  · next name => rcases name with name | name <;> exact isPlain_of_lower name (by decide)
  · split at h
    · next name => exact isPlain_of_lower name (by decide)
    · exact isPlain_of_unsigned h

end Decimal

namespace ValueType

theorem isPlain_of_truth {t : Text} (h : truth? t ≠ none) : ∀ c ∈ t, isPlain c = true := by
  unfold truth? at h
  dsimp only at h
  split at h
  · next word => rcases word with word | word | word <;> exact isPlain_of_lower word (by decide)
  · split at h
    · next word => rcases word with word | word | word <;> exact isPlain_of_lower word (by decide)
    · exact absurd rfl h

theorem isPlain_of_hexDigits {t : Text} (h : hexDigits? t ≠ none) : ∀ c ∈ t, isPlain c = true := by
  unfold hexDigits? at h
  dsimp only at h
  split at h
  · next digits =>
    have all : ∀ c ∈ (Text.after? "0x" t).getD t, isPlain c = true := fun c hc =>
      Hex.isPlain_of_value (List.all_eq_true.mp digits.2 c hc)
    cases hafter : Text.after? "0x" t with
    | none =>
      rw [hafter] at all
      exact all
    | some r =>
      rw [hafter] at all
      rw [Text.after?_eq_some_iff.mp hafter]
      exact List.forall_mem_append.mpr ⟨List.all_eq_true.mp (by decide), all⟩
  · exact absurd rfl h

/-- What has a type other than `str` is plain. -/
theorem isPlain_of_parse {type : ValueType} (ne : type ≠ .str) {t : Text} (h : type.parse? t ≠ none) :
    ∀ c ∈ Text.trim t, isPlain c = true := by
  cases type with
  | str => exact absurd rfl ne
  | int => exact Integer.isPlain_of_int64 fun none => h (by simp only [parse?, none, Option.map_none])
  | float => exact Decimal.isPlain_of_read fun none => h (by simp only [parse?, none])
  | bool => exact isPlain_of_truth fun none => h (by simp only [parse?, none, Option.map_none])
  | hex => exact isPlain_of_hexDigits fun none => h (by simp only [parse?, none, Option.map_none])

end ValueType

end GroundStation
