/-
# Decimal texts of binary floating point

Reading: a decimal text denotes an exact value `± digits · 10 ^ exponent`, which is rounded once.
Writing: `shortest` finds the fewest decimal digits that read back as the number and, of those, the
nearest to it; `fixed` rounds the exact value to a number of places.

The reals that read back as a number form an interval around it.  Its ends lie half-way to the
neighbours and belong to it when the significand is even, since half-way cases go there.
-/
import GroundStation.Number.Binary64

namespace GroundStation

namespace Decimal

/-! ## Reading -/

/-- A run of decimal digits at the start of a text, and the rest. -/
def digitRun (t : Text) : Text × Text := (t.takeWhile Char.isDigit, t.dropWhile Char.isDigit)

/-- The value of a run of decimal digits. -/
def valueOf (t : Text) : Nat := t.foldl (fun n c => n * 10 + (c.toNat - 48)) 0

/-- An exponent part: `e`, an optional sign and at least one digit up to the end of the text. -/
def exponentPart? : Text → Option Int
  | [] => some 0
  | c :: t =>
    if c = 'e' ∨ c = 'E' then
      let (negative, t) := match t with
        | '-' :: r => (true, r)
        | '+' :: r => (false, r)
        | r => (false, r)
      let (ds, rest) := digitRun t
      if ds.isEmpty ∨ !rest.isEmpty then none
      else some (if negative then -(valueOf ds : Int) else (valueOf ds : Int))
    else none

/-- The number nearest to `± digits · 10 ^ exponent`.  Exponents that put the value beyond the format
are settled by the number of digits, before any power is taken. -/
def round (negative : Bool) (digits : Text) (exponent : Int) : Binary64 :=
  let digits := digits.dropWhile (· = '0')
  let top : Int := (digits.length : Int) + exponent
  if digits.isEmpty then .finite (.zero negative)
  else if 400 < top then .infinite negative
  else if top < -400 then .finite (.zero negative)
  else
    match exponent with
    | .ofNat e => .nearest negative (valueOf digits * 10 ^ e) 1
    | .negSucc e => .nearest negative (valueOf digits) (10 ^ (e + 1))

/-- Digits with an optional point among or beside them, and an optional exponent. -/
def unsigned? (negative : Bool) (t : Text) : Option Binary64 :=
  let (whole, t) := digitRun t
  let (places, t) := match t with
    | '.' :: r => digitRun r
    | r => ([], r)
  if whole.isEmpty ∧ places.isEmpty then none
  else
    (exponentPart? t).map fun e => round negative (whole ++ places) (e - places.length)

/-- Reads a decimal text, an infinity or a NaN; letter case does not matter and a sign may lead. -/
def read? (t : Text) : Option Binary64 :=
  let (negative, body) := match t with
    | '-' :: r => (true, r)
    | '+' :: r => (false, r)
    | r => (false, r)
  let name := Text.lower body
  if name = "inf" ∨ name = "infinity" then some (.infinite negative)
  else if name = "nan" then some .nan
  else unsigned? negative body

/-! ## The fewest digits that read back -/

/-- `a / b < c / d`, denominators being positive. -/
def ratioLt (a b c d : Nat) : Bool := a * d < c * b

/-- Four times the significand with the ends of the interval that rounds to it: `(low, mid, high)`, in
quarters of a unit of the last place.  Below a power of two the lower neighbour is twice as near. -/
def interval (x : Finite64) : Nat × Nat × Nat :=
  let m := 4 * x.significand
  if x.significand = 2 ^ 52 ∧ -1074 < x.exponent then (m - 1, m, m + 2) else (m - 2, m, m + 2)

/-- Numerator and denominator of a number of quarter units. -/
def quarters (x : Finite64) (n : Nat) : Nat × Nat :=
  match x.exponent with
  | .ofNat e => (n * 2 ^ e, 4)
  | .negSucc e => (n, 4 * 2 ^ (e + 1))

/-- Whether `digits · 10 ^ exponent` reads back as `x`, the ends counting when `x` is even. -/
def readsBack (x : Finite64) (digits : Nat) (exponent : Int) : Bool :=
  let (low, _, high) := interval x
  let (ln, ld) := quarters x low
  let (hn, hd) := quarters x high
  let (n, d) := match exponent with
    | .ofNat e => (digits * 10 ^ e, 1)
    | .negSucc e => (digits, 10 ^ (e + 1))
  if x.significand % 2 = 0 then !ratioLt n d ln ld && !ratioLt hn hd n d
  else ratioLt ln ld n d && ratioLt n d hn hd

/-- The decimal exponent of the first digit: the largest `k` with `10 ^ k ≤ num / den`, searched
downwards from `k`. -/
def leadingFrom (num den : Nat) : Nat → Int → Int
  | 0, k => k
  | fuel + 1, k =>
    let reached : Bool := match k with
      | .ofNat e => den * 10 ^ e ≤ num
      | .negSucc e => den ≤ num * 10 ^ (e + 1)
    if reached then k else leadingFrom num den fuel (k - 1)

/-- The decimal exponent of the first digit of a positive quotient.  The search starts a little above
it, at the difference of the binary lengths in decimal digits, and takes few steps. -/
def leading (num den : Nat) : Int :=
  let bits : Int := (Nat.log2 num : Int) - (Nat.log2 den : Int)
  leadingFrom num den 64 (Int.fdiv (bits * 30103) 100000 + 2)

/-- The neighbours of `num / den` on the grid of `10 ^ exponent`, and whether the lower is nearer, the
upper is, or neither. -/
def neighbours (num den : Nat) (exponent : Int) : Nat × Ordering :=
  let (n, d) := match exponent with
    | .ofNat e => (num, den * 10 ^ e)
    | .negSucc e => (num * 10 ^ (e + 1), den)
  (n / d, compare (2 * (n % d)) d)

/-- The first grid, coarsest first, on which a neighbour of `x` reads back, and the nearer such
neighbour; of two equally near ones the even. -/
def shortestFrom (x : Finite64) (num den : Nat) (top : Int) : Nat → Nat → Nat × Int
  | 0, places =>
    let e := top - places
    ((neighbours num den e).1, e)
  | fuel + 1, places =>
    let e := top - places
    let (below, side) := neighbours num den e
    let low := readsBack x below e
    let high := readsBack x (below + 1) e
    if low && high then
      match side with
      | .lt => (below, e)
      | .gt => (below + 1, e)
      | .eq => (if below % 2 = 0 then below else below + 1, e)
    else if low then (below, e)
    else if high then (below + 1, e)
    else shortestFrom x num den top fuel (places + 1)

/-- Takes the zeros off the end of a significand. -/
def normalize : Nat → Nat → Int → Nat × Int
  | 0, digits, e => (digits, e)
  | fuel + 1, digits, e =>
    if digits ≠ 0 ∧ digits % 10 = 0 then normalize fuel (digits / 10) (e + 1) else (digits, e)

/-- The fewest digits `(digits, exponent)` that read back as a number other than zero. -/
def shortest (x : Finite64) : Nat × Int :=
  let (num, den) := x.ratio
  let (digits, e) := shortestFrom x num den (leading num den) 17 0
  normalize 20 digits e

/-! ## Texts -/

/-- `t` with zeros in front up to `width`. -/
def padZeros (width : Nat) (t : Text) : Text := List.replicate (width - t.length) '0' ++ t

/-- Digits with the first at `10 ^ lead` in positional notation, always with a fraction. -/
def positional (digits : Text) (lead : Int) : Text :=
  match lead with
  | .ofNat n =>
    let whole := digits.take (n + 1)
    let whole := whole ++ List.replicate (n + 1 - whole.length) '0'
    let places := digits.drop (n + 1)
    whole ++ '.' :: (if places.isEmpty then ['0'] else places)
  | .negSucc n => "0." ++ List.replicate n '0' ++ digits

/-- Digits with the first at `10 ^ lead` in scientific notation; the exponent has a sign. -/
def scientific (digits : Text) (lead : Int) : Text :=
  let mantissa := match digits with
    | [] => []
    | [d] => [d]
    | d :: ds => d :: '.' :: ds
  mantissa ++ 'e' :: (if lead < 0 then [] else ['+']) ++ Text.ofInt lead

/-- The fewest digits, positional where the first digit stands from `10 ^ -5` to `10 ^ 15`. -/
def text (x : Finite64) : Text :=
  let body :=
    if x.significand = 0 then "0.0".toList
    else
      let (n, e) := shortest x
      let digits := Text.ofNat n
      let lead : Int := e + (digits.length : Int) - 1
      if -5 ≤ lead ∧ lead ≤ 15 then positional digits lead else scientific digits lead
  if x.negative then '-' :: body else body

/-- The exact value rounded to `places` decimal places, half-way cases to the even digit. -/
def fixed (places : Nat) (x : Finite64) : Text :=
  let (num, den) := x.ratio
  let n := roundDiv (num * 10 ^ places) den
  let body :=
    if places = 0 then Text.ofNat n
    else
      Text.ofNat (n / 10 ^ places) ++ '.' :: padZeros places (Text.ofNat (n % 10 ^ places))
  if x.negative then '-' :: body else body

end Decimal

/-- A datum with three decimal places; infinities and NaN have names. -/
def Binary64.thousandths : Binary64 → Text
  | .finite x => Decimal.fixed 3 x
  | .infinite negative => if negative then "-inf" else "inf"
  | .nan => "NaN"

end GroundStation
