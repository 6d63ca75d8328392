/-
# Compact JSON text

A value is written without blanks, members in the order of the object, integers in decimal and floats
with the fewest digits that read back.  In strings only the quote, the backslash and the controls below
the space are escaped, five of them by a letter and the rest by four hexadecimal digits.
-/
import GroundStation.Json.Basic

namespace GroundStation

namespace Json

/-- One character of a string. -/
def writeChar (c : Char) : Text :=
  if c = '"' then ['\\', '"']
  else if c = '\\' then ['\\', '\\']
  else if c = '\n' then ['\\', 'n']
  else if c = '\r' then ['\\', 'r']
  else if c = '\t' then ['\\', 't']
  else if c.toNat = 8 then ['\\', 'b']
  else if c.toNat = 12 then ['\\', 'f']
  else if c.toNat < 32 then
    ['\\', 'u', '0', '0', Hex.digit (c.toNat / 16), Hex.digit (c.toNat % 16)]
  else [c]

/-- A quoted string. -/
def writeString (t : Text) : Text := '"' :: t.flatMap writeChar ++ ['"']

mutual

/-- The compact text of a value. -/
def write : Json → Text
  | null => "null"
  | bool b => if b then "true" else "false"
  | int n => Text.ofInt n
  | float x => Decimal.text x
  | str t => writeString t
  | arr items => '[' :: writeItems items ++ [']']
  | obj members => '{' :: writeMembers members ++ ['}']

/-- The items of an array, with commas between. -/
def writeItems : List Json → Text
  | [] => []
  | [v] => write v
  | v :: vs => write v ++ ',' :: writeItems vs

/-- The members of an object, with commas between. -/
def writeMembers : List (Text × Json) → Text
  | [] => []
  | [(k, v)] => writeString k ++ ':' :: write v
  | (k, v) :: ms => writeString k ++ ':' :: write v ++ ',' :: writeMembers ms

end

end Json

end GroundStation
