/-
# Binary floating point, exactly

A finite number is kept as sign, significand and exponent, its value being
`± significand · 2 ^ exponent`.  The numbers of the format have significands below `2 ^ 53` and
exponents from `-1074` to `971`, and each value is kept with the least exponent it can have, so equal
triples are equal numbers (the two zeros apart, which differ in sign).

`nearest` is the one rounding: a quotient of natural numbers goes to the nearest number of the format,
half-way cases to the even significand, and what lies beyond the largest goes to infinity.
-/
import GroundStation.Number.Integer

namespace GroundStation

/-- A finite number of the 64-bit binary format. -/
structure Finite64 where
  negative : Bool
  significand : Nat
  exponent : Int
  deriving DecidableEq, Repr

/-- A datum of the 64-bit binary format. -/
inductive Binary64 where
  | finite (x : Finite64)
  | infinite (negative : Bool)
  | nan
  deriving DecidableEq, Repr

/-- The quotient rounded to the nearest natural number, half-way cases to the even one. -/
def roundDiv (num den : Nat) : Nat :=
  let q := num / den
  let r := num % den
  if 2 * r < den then q else if den < 2 * r then q + 1 else if q % 2 = 0 then q else q + 1

namespace Finite64

/-- Zero of either sign. -/
def zero (negative : Bool) : Finite64 := ⟨negative, 0, -1074⟩

/-- Numerator and denominator of the magnitude. -/
def ratio (x : Finite64) : Nat × Nat :=
  match x.exponent with
  | .ofNat e => (x.significand * 2 ^ e, 1)
  | .negSucc e => (x.significand, 2 ^ (e + 1))

end Finite64

namespace Binary64

/-- `num / den` in units of `2 ^ exponent`, rounded. -/
def roundAt (num den : Nat) (exponent : Int) : Nat :=
  match exponent with
  | .ofNat e => roundDiv num (den * 2 ^ e)
  | .negSucc e => roundDiv (num * 2 ^ (e + 1)) den

/-- The exponent at which a positive quotient has a significand of 53 bits, or the least one. -/
def exponentOf (num den : Nat) : Int :=
  let k : Int := (Nat.log2 num : Int) - (Nat.log2 den : Int)
  let full : Bool := match k with
    | .ofNat e => den * 2 ^ e ≤ num
    | .negSucc e => den ≤ num * 2 ^ (e + 1)
  max (-1074) (if full then k - 52 else k - 53)

/-- The number of the format nearest to `± num / den`. -/
def nearest (negative : Bool) (num den : Nat) : Binary64 :=
  if num = 0 then .finite (.zero negative)
  else
    let e := exponentOf num den
    let m := roundAt num den e
    let (m, e) := if m = 2 ^ 53 then (2 ^ 52, e + 1) else (m, e)
    if 971 < e then .infinite negative
    else if m = 0 then .finite (.zero negative)
    else .finite ⟨negative, m, e⟩

end Binary64

end GroundStation
