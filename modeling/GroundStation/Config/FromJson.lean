/-
# Configurations in JSON

In JSON the kinds of values are strict: a text is a string, a natural number an integer that is not
negative, and `null` stands for nothing but an optional member.  A record is an object, or the array of
its fields in order.  A choice is its name, or an object with nothing under that name.
-/
import GroundStation.Config.Decode

namespace GroundStation

namespace Config

/-- How JSON values are taken. -/
def jsonSource : Source Json where
  text? := Json.text?
  variant?
    | .str t => some t
    | .obj [(t, .null)] => some t
    | _ => none
  natural?
    | .int n => if 0 ≤ n then some n.toNat else none
    | _ => none
  truth?
    | .bool b => some b
    | _ => none
  items? := Json.items?
  fields? names
    | .obj members => some members
    | .arr items => if items.length ≤ names.length then some (names.zip items) else none
    | _ => none
  members?
    | .obj members => some members
    | _ => none
  absent v := decide (v = .null)
  json? := some

end Config

end GroundStation
