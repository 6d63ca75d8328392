/-
# The two ways to reach a parameter

A parameter may be read (`get`), written (`set`), or both; each way is an entry of its own in the
catalog.
-/
import GroundStation.Text.Basic

namespace GroundStation

/-- Reading or writing a parameter. -/
inductive Accessor where
  | get
  | set
  deriving DecidableEq, Repr

namespace Accessor

/-- The word for an accessor. -/
def name : Accessor → Text
  | get => "get"
  | set => "set"

end Accessor

end GroundStation
