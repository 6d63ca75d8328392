/-
# Parameters as they are declared

The configuration of an instrument declares its parameters.  Nothing here is checked yet: a step may
hold both a write and a query or neither, a signature may have any shape, a type any name.
-/
import GroundStation.Json.Basic

namespace GroundStation

/-- One entry of an `instrument_command`. -/
structure StepDeclaration where
  write : Option Text
  query : Option Text
  deriving DecidableEq

/-- How a parameter is read or written. -/
structure AccessorDeclaration where
  signature : Option Json
  steps : List StepDeclaration
  deriving DecidableEq

/-- A parameter as declared. -/
structure ParameterDeclaration where
  description : Text
  valueType : Option Text
  default : Option Json
  /-- The memory key, where it is not the name of the parameter. -/
  memory : Option Text
  get : Option AccessorDeclaration
  set : Option AccessorDeclaration
  deriving DecidableEq

end GroundStation
