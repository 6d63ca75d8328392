/-
# Placeholders of a command template

When a parameter is compiled its templates are scanned for the positions they refer to.  A placeholder
`{n}` or `{n:…}` names position `n`; doubled braces stand for themselves.  A brace that is neither, or a
placeholder that does not name a position, is a fault.
-/
import GroundStation.Error
import GroundStation.Number.Integer

namespace GroundStation

namespace Template

/-- The position that the text of a placeholder names: its part before the first colon. -/
def position? (key : Text) : Option Nat := Integer.word64? (key.takeWhile (· ≠ ':'))

/-- The positions in the rest of a template.  `key` is the placeholder being read, latest character
first, and `whole` the template that a fault quotes. -/
def positionsFrom (whole : Text) : Option Text → Text → Except StepFault (List Nat)
  | none, [] => .ok []
  | some _, [] => .error (.unclosed whole)
  | none, '{' :: '{' :: t => positionsFrom whole none t
  | none, '}' :: '}' :: t => positionsFrom whole none t
  | none, c :: t =>
    if c = '{' then positionsFrom whole (some []) t
    else if c = '}' then .error (.unmatched whole)
    else positionsFrom whole none t
  | some key, c :: t =>
    if c = '}' then
      match position? key.reverse with
      | none => .error (.notPositional key.reverse)
      | some index =>
        match positionsFrom whole none t with
        | .ok rest => .ok (index :: rest)
        | .error fault => .error fault
    else positionsFrom whole (some (c :: key)) t

/-- The positions that a template refers to, in order. -/
def positions (template : Text) : Except StepFault (List Nat) :=
  positionsFrom template none template

end Template

end GroundStation
