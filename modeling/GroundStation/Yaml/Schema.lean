/-
# Values of plain scalars

A scalar without quotes may stand for more than its text: for nothing, for a truth value or for a number.
Integers have an optional sign and an optional radix in front, `0x`, `0o` or `0b`.  A zero in front of more
digits makes a text, and so does a decimal beyond the range of floating point.  An integer that fits into
128 bits but not into 64 is neither text nor number.
-/
import GroundStation.Json.Basic
import GroundStation.Yaml.Node

namespace GroundStation

namespace Yaml

/-- What a plain scalar stands for. -/
inductive Meaning where
  | nothing
  | truth (b : Bool)
  | integer (n : Int)
  /-- An integer of more than 64 bits. -/
  | oversized
  | float (x : Binary64)
  | text
  deriving DecidableEq

namespace Plain

/-! ## Words -/

/-- The scalars that stand for nothing. -/
def isNothing (t : Text) : Bool :=
  ["", "~", "null", "Null", "NULL"].any fun w => decide (t = w.toList)

/-- The scalars that are truth values. -/
def truth? (t : Text) : Option Bool :=
  if ["true", "True", "TRUE"].any fun w => decide (t = w.toList) then some true
  else if ["false", "False", "FALSE"].any fun w => decide (t = w.toList) then some false
  else none

/-! ## Integers -/

/-- Whether a text is a zero with more digits behind it. -/
def isPadded : Text → Bool
  | '0' :: d :: t => (d :: t).all Char.isDigit
  | _ => false

/-- The magnitude of an integer, whose radix stands in front unless it is ten. -/
def magnitude? (t : Text) : Option Nat :=
  match t with
  | '0' :: 'x' :: ds => Integer.digits? 16 ds
  | '0' :: 'o' :: ds => Integer.digits? 8 ds
  | '0' :: 'b' :: ds => Integer.digits? 2 ds
  | ds => if isPadded ds then none else Integer.digits? 10 ds

/-- A text without the plus sign in front of it. -/
def withoutPlus : Text → Text
  | '+' :: t => t
  | t => t

/-- A natural number below a bound. -/
def natural? (bound : Nat) (t : Text) : Option Nat := (magnitude? (withoutPlus t)).filter (· < bound)

/-- A number with a minus sign, of at most a magnitude. -/
def negative? (bound : Nat) : Text → Option Int
  | '-' :: t => ((magnitude? t).filter (· ≤ bound)).map fun n => -(n : Int)
  | _ => none

/-- An integer of so many bits, with or without a sign bit. -/
def integer? (bits : Nat) (t : Text) : Option Int :=
  ((natural? (2 ^ bits) t).map fun n => (n : Int)).or (negative? (2 ^ (bits - 1)) t)

/-! ## Floating point -/

/-- The infinities and the value that is no number. -/
def special? (t : Text) : Option Binary64 :=
  if [".inf", ".Inf", ".INF"].any fun w => decide (withoutPlus t = w.toList) then some (.infinite false)
  else if ["-.inf", "-.Inf", "-.INF"].any fun w => decide (t = w.toList) then some (.infinite true)
  else if [".nan", ".NaN", ".NAN"].any fun w => decide (t = w.toList) then some .nan
  else none

/-- A decimal in the range of the format. -/
def decimal? (t : Text) : Option Binary64 :=
  let read := match t with
    | '-' :: u => if isPadded u then none else Decimal.unsigned? true u
    | t => if isPadded (withoutPlus t) then none else Decimal.unsigned? false (withoutPlus t)
  read.filter fun
    | .finite _ => true
    | _ => false

/-! ## Meaning -/

/-- What a plain scalar stands for. -/
def meaning (t : Text) : Meaning :=
  if isNothing t then .nothing
  else
    match truth? t with
    | some b => .truth b
    | none =>
      match integer? 64 t with
      | some n => .integer n
      | none =>
        if (integer? 128 t).isSome then .oversized
        else
          match (special? t).or (decimal? t) with
          | some x => .float x
          | none => .text

end Plain

/-! ## Nodes as values -/

namespace Node

/-- The text of a scalar. -/
def text? : Node → Option Text
  | scalar t _ => some t
  | _ => none

/-- The text of a plain scalar. -/
def plain? : Node → Option Text
  | scalar t true => some t
  | _ => none

/-- Whether a node is missing. -/
def isEmpty : Node → Bool
  | scalar [] true => true
  | _ => false

/-- The value of a scalar; floating point that is not finite has none but `null`. -/
def scalarJson? (t : Text) (plain : Bool) : Option Json :=
  if plain then
    match Plain.meaning t with
    | .nothing => some .null
    | .truth b => some (.bool b)
    | .integer n => some (.int n)
    | .oversized => none
    | .float (.finite x) => some (.float x)
    | .float _ => some .null
    | .text => some (.str t)
  else some (.str t)

mutual

/-- The value of a node.  The keys of a mapping are texts, the last entry under a key counting. -/
def json? : Node → Option Json
  | scalar t plain => scalarJson? t plain
  | sequence xs => (jsonItems? xs).map .arr
  | mapping es => (jsonMembers? es).map .ofMembers

/-- The values of nodes. -/
def jsonItems? : List Node → Option (List Json)
  | [] => some []
  | x :: xs => (json? x).bind fun v => (jsonItems? xs).map fun vs => v :: vs

/-- The values of entries, under the texts of their keys. -/
def jsonMembers? : List (Node × Node) → Option (List (Text × Json))
  | [] => some []
  | (k, v) :: es =>
    k.text?.bind fun key => (json? v).bind fun value => (jsonMembers? es).map fun ms => (key, value) :: ms

end

end Node

end Yaml

end GroundStation
