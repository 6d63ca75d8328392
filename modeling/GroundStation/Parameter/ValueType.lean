/-
# Value types

A parameter may declare the type of its value.  The type decides which texts of an operator or a device
denote a value, and which value: blanks around a text never matter.
-/
import GroundStation.Json.Basic
import GroundStation.Text.Blank

namespace GroundStation

/-- The types of parameter values. -/
inductive ValueType where
  | int
  | float
  | bool
  | str
  /-- Bytes, as a text of small hexadecimal digits. -/
  | hex
  deriving DecidableEq, Repr

namespace ValueType

/-- The type of a name, in any letter case. -/
def named? (name : Text) : Option ValueType :=
  let name := Text.lower name
  if name = "int" ∨ name = "integer" then some int
  else if name = "float" ∨ name = "double" ∨ name = "real" then some float
  else if name = "bool" ∨ name = "boolean" then some bool
  else if name = "str" ∨ name = "string" then some str
  else if name = "hex" ∨ name = "bytes" then some hex
  else none

/-- The name under which a type is advertised. -/
def name : ValueType → Text
  | int => "int"
  | float => "float"
  | bool => "bool"
  | str => "str"
  | hex => "hex"

/-- A truth value: a digit, or a word in any letter case. -/
def truth? (t : Text) : Option Bool :=
  let t := Text.lower t
  if t = "1" ∨ t = "on" ∨ t = "true" then some true
  else if t = "0" ∨ t = "off" ∨ t = "false" then some false
  else none

/-- The digits of a byte string: an even number of hexadecimal digits, `0x` in front being dropped. -/
def hexDigits? (t : Text) : Option Text :=
  let digits := (Text.after? "0x" t).getD t
  if digits.length % 2 = 0 ∧ Hex.allDigits digits then some (Text.lower digits) else none

/-- The value of this type that a text denotes. -/
def parse? (type : ValueType) (t : Text) : Option Json :=
  let t := Text.trim t
  match type with
  | int => (Integer.int64? t).map .int
  | float =>
    match Decimal.read? t with
    | some (.finite x) => some (.float x)
    | _ => none
  | bool => (truth? t).map .bool
  | str => some (.str t)
  | hex => (hexDigits? t).map .str

/-! ## Small lemmas -/

/-- Every type is found under the name it is advertised by. -/
@[simp] theorem named?_name (type : ValueType) : named? type.name = some type := by
  cases type <;> decide

end ValueType

end GroundStation
