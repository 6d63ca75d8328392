/-
# Signatures

A signature is written `[[argument, …], return type]`, the return type being a type name or `null`.
Arguments are kept as they are written; only their number and, for some, a type name matter.
-/
import GroundStation.Error
import GroundStation.Json.Basic

namespace GroundStation

/-- A signature of the right shape. -/
structure Signature where
  arguments : List Json
  returns : Option Text
  deriving DecidableEq

namespace Signature

/-- The signature without arguments and without a return type. -/
def empty : Signature := ⟨[], none⟩

/-- Reads a signature from its JSON value. -/
def read : Json → Except SignatureFault Signature
  | .arr [arguments, returns] =>
    match arguments with
    | .arr arguments =>
      match returns with
      | .null => .ok ⟨arguments, none⟩
      | .str name => .ok ⟨arguments, some name⟩
      | _ => .error .returnNotATypeName
    | _ => .error .argumentsNotAnArray
  | .arr _ => .error .notTwoElements
  | _ => .error .notAnArray

/-- Reads the signature of a parameter; a fault names the parameter. -/
def parse (id : Text) (raw : Json) : Except ConfigError Signature :=
  match read raw with
  | .ok signature => .ok signature
  | .error fault => .error (.malformedSignature id fault)

/-- The JSON value of a signature. -/
def toJson (s : Signature) : Json :=
  .arr [.arr s.arguments, match s.returns with | none => .null | some name => .str name]

/-- How many arguments the signature asks for. -/
def arity (s : Signature) : Nat := s.arguments.length

/-! ## Small lemmas -/

/-- A signature reads back from its JSON value. -/
@[simp] theorem read_toJson (s : Signature) : read s.toJson = .ok s := by
  obtain ⟨arguments, returns⟩ := s
  cases returns <;> rfl

@[simp] theorem parse_toJson (id : Text) (s : Signature) : parse id s.toJson = .ok s := by
  simp [parse]

end Signature

end GroundStation
