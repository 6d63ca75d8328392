/-
# Compiling a parameter

Compilation turns a declaration into what the engine runs, and refuses every declaration that could not
be run.  A reader needs a query and a declared type; a writer needs a step, unless it opens or closes the
link, and a declared type if it queries; no step may refer to an argument that the signature lacks.
-/
import GroundStation.Parameter.Declaration
import GroundStation.Parameter.ValueType
import GroundStation.Signature
import GroundStation.Template.Placeholder

namespace GroundStation

/-- A step of a command: a text sent, with or without waiting for a reply. -/
inductive Step where
  | write (template : Text)
  | query (template : Text)
  deriving DecidableEq, Repr

/-- The template of a step. -/
def Step.template : Step → Text
  | .write t => t
  | .query t => t

/-- Whether a step waits for a reply. -/
def Step.isQuery : Step → Bool
  | .write _ => false
  | .query _ => true

/-- How a parameter is written. -/
structure Setter where
  signature : Signature
  /-- The type of each argument that names one. -/
  argTypes : List (Option ValueType)
  steps : List Step
  deriving DecidableEq

/-- A parameter that can be run. -/
structure Parameter where
  name : Text
  description : Text
  valueType : Option ValueType
  memoryKey : Text
  default : Option Json
  getter : Option (List Step)
  setter : Option Setter
  deriving DecidableEq

/-- The name of the parameter that opens the link. -/
def connectName : Text := "connect"

/-- The name of the parameter that closes the link. -/
def disconnectName : Text := "disconnect"

/-- Whether a name is that of opening or closing the link. -/
def isLifecycle (name : Text) : Bool := name = connectName ∨ name = disconnectName

namespace StepDeclaration

/-- A step that is one write or one query. -/
def step? (s : StepDeclaration) : Option Step :=
  match s.write, s.query with
  | some t, none => some (.write t)
  | none, some t => some (.query t)
  | _, _ => none

end StepDeclaration

namespace Parameter

/-- The first thing wrong with the templates of steps that take `arity` arguments. -/
def stepFault? (arity : Nat) : List Step → Option StepFault
  | [] => none
  | step :: rest =>
    match Template.positions step.template with
    | .error fault => some fault
    | .ok indices =>
      match indices.find? (arity ≤ ·) with
      | some index => some (.beyond index arity)
      | none => stepFault? arity rest

/-- The steps of an accessor that takes `arity` arguments. -/
def compileSteps (id : Text) (accessor : AccessorDeclaration) (arity : Nat) :
    Except ConfigError (List Step) :=
  match accessor.steps.mapM StepDeclaration.step? with
  | none => .error (.invalidStep id .notOneOf)
  | some steps =>
    match stepFault? arity steps with
    | some fault => .error (.invalidStep id fault)
    | none => .ok steps

/-- The name of the type that an argument specification gives, if it gives one. -/
def argTypeName? : Json → Option Text
  | .str name => some name
  | .obj members => (Keyed.get? "type" members).bind Json.text?
  | _ => none

/-- The type of one argument. -/
def argType (id : Text) (spec : Json) : Except ConfigError (Option ValueType) :=
  match argTypeName? spec with
  | none => .ok none
  | some name =>
    match ValueType.named? name with
    | some type => .ok (some type)
    | none => .error (.unknownValueType id name)

/-- The types of all arguments. -/
def argTypes (id : Text) : List Json → Except ConfigError (List (Option ValueType))
  | [] => .ok []
  | spec :: rest => do
    let type ← argType id spec
    let types ← argTypes id rest
    return type :: types

/-- The declared type of the value. -/
def compileType (id : Text) : Option Text → Except ConfigError (Option ValueType)
  | none => .ok none
  | some name =>
    match ValueType.named? name with
    | some type => .ok (some type)
    | none => .error (.unknownValueType id name)

/-- How a parameter is read. -/
def compileGetter (id : Text) (valueType : Option ValueType) (get : AccessorDeclaration) :
    Except ConfigError (List Step) := do
  match get.signature with
  | none => pure ()
  | some raw =>
    let signature ← Signature.parse id raw
    if 0 < signature.arity then throw (.getSignatureNotEmpty id)
  let steps ← compileSteps id get 0
  if !steps.any Step.isQuery then throw (.getWithoutQuery id)
  if valueType.isNone then throw (.missingType id)
  return steps

/-- How a parameter is written. -/
def compileSetter (id : Text) (valueType : Option ValueType) (set : AccessorDeclaration) :
    Except ConfigError Setter := do
  let signature ← match set.signature with
    | none => pure Signature.empty
    | some raw => Signature.parse id raw
  let types ← argTypes id signature.arguments
  let steps ← compileSteps id set signature.arity
  if steps.isEmpty && !isLifecycle id then throw (.emptyTemplate id)
  if steps.any Step.isQuery && valueType.isNone then throw (.missingType id)
  return ⟨signature, types, steps⟩

/-- Compiles one accessor where it is declared. -/
def compileOptional {α β : Type} (f : α → Except ConfigError β) :
    Option α → Except ConfigError (Option β)
  | none => .ok none
  | some a =>
    match f a with
    | .ok b => .ok (some b)
    | .error error => .error error

/-- Compiles the declaration of the parameter `name`. -/
def compile (name : Text) (d : ParameterDeclaration) : Except ConfigError Parameter := do
  if d.get.isNone && d.set.isNone then throw (.noAccessor name)
  let valueType ← compileType name d.valueType
  let getter ← compileOptional (compileGetter name valueType) d.get
  let setter ← compileOptional (compileSetter name valueType) d.set
  return ⟨name, d.description, valueType, d.memory.getD name, d.default, getter, setter⟩

/-- The signature under which reading is advertised. -/
def getSignature (p : Parameter) : Signature := ⟨[], p.valueType.map ValueType.name⟩

/-- The typed values of arguments, counted from `index`. -/
def typedFrom (id : Text) : Nat → List Text → List (Option ValueType) →
    Except CommandError (List (Option Json))
  | _, [], _ => .ok []
  | _, _ :: _, [] => .ok []
  | index, arg :: args, type :: types => do
    let value ← match type with
      | none => pure none
      | some type =>
        match type.parse? arg with
        | some value => pure (some value)
        | none => throw (CommandError.invalidArgument id index arg type.name)
    let values ← typedFrom id (index + 1) args types
    return value :: values

/-- Checks the arguments of a write: their number, and the type of each that declares one. -/
def checkArgs (p : Parameter) (setter : Setter) (args : List Text) :
    Except CommandError (List (Option Json)) :=
  if args.length ≠ setter.signature.arity then
    .error (.wrongArgumentCount p.name setter.signature.arity args.length)
  else typedFrom p.name 0 args setter.argTypes

/-- The value that a reply of the device denotes; nothing where no type is declared. -/
def parseReply (p : Parameter) (reply : Text) : Except CommandError (Option Json) :=
  match p.valueType with
  | none => .ok none
  | some type =>
    match type.parse? reply with
    | some value => .ok (some value)
    | none => .error (.unparsableReply p.name reply)

end Parameter

end GroundStation
