/-
# Numbers in JSON text

A number without fraction and exponent that fits in 64 bits, signed or unsigned, is an integer, and exact.
Every other number is computed in binary floating point.  Its digits make an integer as far as this fits in
64 bits; each digit behind counts as a zero.  The integer is then multiplied by a power of ten, or divided
by one.  Integer, power and result are rounded each, so the number that has many digits, or lies far from
one, need not be the nearest there is.  A number beyond the range of the format is refused.
-/
import GroundStation.Json.Basic
import GroundStation.Number.Decimal

namespace GroundStation

namespace Json

/-- Takes digits behind `word` as far as they fit in 64 bits, and counts those that do not. -/
def wordFrom (word : Nat) : Text → Nat × Nat
  | [] => (word, 0)
  | c :: t =>
    let next := word * 10 + (c.toNat - 48)
    if next < 2 ^ 64 then wordFrom next t else (word, t.length + 1)

/-- A quotient in the range of the format, rounded, as a quotient again. -/
def rounded (num den : Nat) : Nat × Nat :=
  match Binary64.nearest false num den with
  | .finite x => x.ratio
  | _ => (num, den)

/-- The greatest exponent of a power of ten in the format. -/
def lastPower : Nat := 308

/-- A quotient times `10 ^ exponent`, the power and the product being rounded. -/
def timesPower (negative : Bool) (x : Nat × Nat) (exponent : Nat) : Binary64 :=
  let power := rounded (10 ^ exponent) 1
  .nearest negative (x.1 * power.1) (x.2 * power.2)

/-- A quotient over `10 ^ exponent`, the power and the result being rounded. -/
def overPower (negative : Bool) (x : Nat × Nat) (exponent : Nat) : Binary64 :=
  let power := rounded (10 ^ exponent) 1
  .nearest negative (x.1 * power.2) (x.2 * power.1)

/-- The number that is computed for `± word · 10 ^ exponent`.  Powers beyond the last one are divided by in
two steps; even the greatest word vanishes behind two of them. -/
def scaled (negative : Bool) (word : Nat) (exponent : Int) : Binary64 :=
  let x := rounded word 1
  if word = 0 then .finite (.zero negative)
  else
    match exponent with
    | .ofNat e => if lastPower < e then .infinite negative else timesPower negative x e
    | .negSucc e =>
      if e < lastPower then overPower negative x (e + 1)
      else if e < 2 * lastPower then
        let small := match overPower false x lastPower with
          | .finite y => y.ratio
          | _ => x
        overPower negative small (e + 1 - lastPower)
      else .finite (.zero negative)

/-- The number of a text in digits, with an optional sign, fraction and exponent. -/
def scaled? (t : Text) : Option Binary64 :=
  let (negative, t) := match t with
    | '-' :: r => (true, r)
    | r => (false, r)
  let (whole, t) := Decimal.digitRun t
  let (places, t) := match t with
    | '.' :: r => Decimal.digitRun r
    | r => ([], r)
  if whole.isEmpty then none
  else
    (Decimal.exponentPart? t).map fun e =>
      let (word, more) := wordFrom 0 whole
      let (word, unused) := wordFrom word places
      scaled negative word (more + unused - places.length + e)

/-- A number: its characters are taken as far as they can belong to one. -/
def number? (t : Text) : Option (Json × Text) :=
  let own (c : Char) : Bool := c.isDigit || c = '-' || c = '+' || c = '.' || c = 'e' || c = 'E'
  let body := t.takeWhile own
  let rest := t.dropWhile own
  let plain := body.all fun c => c.isDigit || c = '-'
  let integer : Option Int :=
    if plain then
      (Integer.int64? body).orElse fun _ => (Integer.word64? body).map fun n => (n : Int)
    else none
  match integer with
  | some n => some (int n, rest)
  | none =>
    match scaled? body with
    | some (.finite x) => some (float x, rest)
    | _ => none

end Json

end GroundStation
