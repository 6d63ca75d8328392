/-
# Fields of a record

A record holds fields `key=value` with semicolons between.  Blanks around a key or a value do not count;
a field without an equals sign, or without a key, is skipped.
-/
import GroundStation.Text.Blank
import GroundStation.Text.Split

namespace GroundStation

namespace Record

/-- The key and value of one field. -/
def field? (t : Text) : Option (Text × Text) :=
  match Split.cutOnce? '=' t with
  | none => none
  | some (key, value) =>
    if (Text.trim key).isEmpty then none else some (Text.trim key, Text.trim value)

/-- The fields of a record, in order. -/
def fields (record : Text) : List (Text × Text) := (Split.splitOn ';' record).filterMap field?

/-! ## Small lemmas -/

/-- Joining two records with a semicolon joins their fields. -/
theorem fields_append (a b : Text) : fields (a ++ ';' :: b) = fields a ++ fields b := by
  simp [fields, Split.splitOn_append_sep]

end Record

end GroundStation
