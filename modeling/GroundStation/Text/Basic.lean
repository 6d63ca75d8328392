/-
# `Text` — character strings as lists of scalar values

Every rule of the station that reads or writes text walks over characters, so text is kept as
`List Char` throughout: a reader is a recursion on the list, and concatenation is `++`.  A string
literal stands for its list of characters wherever a text is expected.

This module holds the type, the order by code point, ASCII case folding and decimal numerals.
-/

-- The powers of natural numbers are those of the core library, also where there are others.
attribute [instance (high + 1), default_instance (high + 1)] instPowNat

namespace GroundStation

/-- A text: its Unicode scalar values in order. -/
abbrev Text := List Char

instance : Coe String Text := ⟨String.toList⟩

namespace Text

/-- ASCII capital letters become small; every other character stays. -/
def lower (t : Text) : Text := t.map Char.toLower

/-- The order of texts: by code point, a proper beginning first. -/
def before : Text → Text → Bool
  | [], [] => false
  | [], _ :: _ => true
  | _ :: _, [] => false
  | a :: s, b :: t => if a = b then before s t else a.toNat < b.toNat

/-- The plain decimal numeral of a natural number. -/
def ofNat (n : Nat) : Text := Nat.toDigits 10 n

/-- The plain decimal numeral of an integer, with a minus sign where it is negative. -/
def ofInt : Int → Text
  | .ofNat n => ofNat n
  | .negSucc n => '-' :: ofNat (n + 1)

/-- The rest of `t` after `lead`, where `t` begins so. -/
def after? (lead : Text) (t : Text) : Option Text :=
  match lead, t with
  | [], t => some t
  | _ :: _, [] => none
  | a :: lead, b :: t => if a = b then after? lead t else none

/-- The texts of a list with `sep` between neighbours. -/
def join (sep : Text) : List Text → Text
  | [] => []
  | [t] => t
  | t :: ts => t ++ sep ++ join sep ts

end Text

/-! ## Small lemmas -/

namespace Text

@[simp] theorem lower_nil : lower [] = [] := rfl

@[simp] theorem lower_append (s t : Text) : lower (s ++ t) = lower s ++ lower t := by
  simp [lower]

@[simp] theorem length_lower (t : Text) : (lower t).length = t.length := by
  simp [lower]

theorem after?_eq_some_iff {lead t r : Text} : after? lead t = some r ↔ t = lead ++ r := by
  induction lead generalizing t with
  | nil => simp [after?]
  | cons a lead ih =>
    cases t with
    | nil => simp [after?]
    | cons b t =>
      by_cases h : a = b
      · simp [after?, h, ih]
      · simp [after?, h, Ne.symm h]

@[simp] theorem after?_append (lead r : Text) : after? lead (lead ++ r) = some r :=
  after?_eq_some_iff.mpr rfl

end Text

end GroundStation
