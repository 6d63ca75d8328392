/-
# Reading integers

An integer is one or more digits of its radix, of either letter case, behind an optional sign: `+`
always, `-` only where negative values exist.  Nothing else may stand in the text, and a value out of
range is refused.
-/
import GroundStation.Text.Hex

namespace GroundStation

namespace Integer

/-- The value of a run of digits read so far as `value`. -/
def digitsFrom? (radix value : Nat) : Text → Option Nat
  | [] => some value
  | c :: t =>
    match Hex.value? c with
    | some d => if d < radix then digitsFrom? radix (value * radix + d) t else none
    | none => none

/-- The value of one or more digits of `radix`, which is at most sixteen. -/
def digits? (radix : Nat) : Text → Option Nat
  | [] => none
  | t => digitsFrom? radix 0 t

/-- An unsigned number below `bound`; a plus sign may lead. -/
def unsigned? (bound radix : Nat) (t : Text) : Option Nat :=
  let body := match t with
    | '+' :: r => r
    | r => r
  (digits? radix body).filter (· < bound)

/-- A signed number from `-bound` to `bound - 1`; a sign may lead. -/
def signed? (bound radix : Nat) (t : Text) : Option Int :=
  match t with
  | '-' :: r => ((digits? radix r).filter (· ≤ bound)).map fun n => -(n : Int)
  | '+' :: r => ((digits? radix r).filter (· < bound)).map fun n => (n : Int)
  | r => ((digits? radix r).filter (· < bound)).map fun n => (n : Int)

/-- A signed number of 64 bits in decimal. -/
def int64? (t : Text) : Option Int := signed? (2 ^ 63) 10 t

/-- An unsigned number of 64 bits in decimal. -/
def word64? (t : Text) : Option Nat := unsigned? (2 ^ 64) 10 t

end Integer

end GroundStation
