/-
# Instruments

An instrument is put together from its configuration: its transport is resolved, every declared parameter
compiled, and its memory filled with the declared defaults.  It then has a link, at first not connected.

The entries that it announces are those of its parameters, in the order of their names, reading before
writing; an instrument that does not declare how its link is opened or closed still announces that it can
be.
-/
import GroundStation.Instrument.Memory
import GroundStation.Link.Registry
import GroundStation.Message
import GroundStation.Parameter.Compile
import GroundStation.Record.Accumulator

namespace GroundStation

/-- Where the link of an instrument stands. -/
inductive ConnectionState where
  | disconnected
  | connecting
  | connected
  /-- The last attempt to connect has failed. -/
  | unreachable
  deriving DecidableEq, Repr

/-- The word for a state. -/
def ConnectionState.name : ConnectionState → Text
  | disconnected => "disconnected"
  | connecting => "connecting"
  | connected => "connected"
  | unreachable => "unreachable"

/-- An instrument: what it was configured to be, and where it stands. -/
structure Instrument (δ : Type) where
  config : InstrumentConfig
  parameters : Keyed Parameter
  transport : Transport δ
  memory : Memory
  state : ConnectionState
  /-- Whether an open link is held. -/
  held : Bool
  /-- The cyclic acquisition at work, with the unfinished record it holds. -/
  worker : Option Record.Accumulator

namespace Instrument

variable {δ : Type}

/-- The name under which an instrument provides its parameters. -/
def provider (i : Instrument δ) : Text := i.config.provider

/-- The parameter of a name. -/
def parameter? (i : Instrument δ) (name : Text) : Option Parameter := Keyed.get? name i.parameters

/-! ## Compilation -/

/-- What is wrong with a compiled parameter: the names that open and close the link are for writing only. -/
def lifecycleFault? (provider : Text) (p : Parameter) : Option ConfigError :=
  if isLifecycle p.name && (p.getter.isSome || p.setter.isNone) then
    some (.invalid ("'" ++ p.name ++ "' of instrument '" ++ provider ++
      "' may only declare a set accessor"))
  else none

/-- Compiles declared parameters. -/
def compileParameters (provider : Text) :
    Keyed ParameterDeclaration → Except ConfigError (Keyed Parameter)
  | [] => .ok []
  | (name, declaration) :: rest =>
    match Parameter.compile name declaration with
    | .error e => .error e
    | .ok p =>
      match lifecycleFault? provider p with
      | some e => .error e
      | none =>
        match compileParameters provider rest with
        | .error e => .error e
        | .ok ps => .ok ((name, p) :: ps)

/-- Whether cyclic acquisition can yield what a name stands for: polling reads the parameter of that
name, and a record may name a parameter or a memory key. -/
def canAcquire (parameters : Keyed Parameter) (mode : CyclicMode) (name : Text) : Bool :=
  match mode with
  | .poll => (Keyed.get? name parameters).any fun p => p.getter.isSome
  | .stream => parameters.any fun (_, p) => p.name = name ∨ p.memoryKey = name

/-- The first name of a cyclic acquisition that yields nothing. -/
def cyclicFault? (c : InstrumentConfig) (parameters : Keyed Parameter) : Option ConfigError :=
  match c.cyclic with
  | none => none
  | some cyclic =>
    (cyclic.parameters.find? fun name => !canAcquire parameters cyclic.mode name).map
      (.unknownCyclicParameter c.provider)

/-- The declared defaults, by memory key. -/
def defaults (parameters : Keyed Parameter) : List (Text × Json) :=
  parameters.filterMap fun (_, p) => p.default.map fun v => (p.memoryKey, v)

/-- Puts an instrument together. -/
def assemble (registry : Registry δ) (c : InstrumentConfig) : Except ConfigError (Instrument δ) := do
  let transport ← registry.resolve c
  let parameters ← compileParameters c.provider c.parameters
  match cyclicFault? c parameters with
  | some e => throw e
  | none =>
    return {
      config := c
      parameters := parameters
      transport := transport
      memory := .seeded (defaults parameters)
      state := .disconnected
      held := false
      worker := none }

/-! ## What an instrument announces -/

/-- The entries of a parameter. -/
def parameterEntries (provider : Text) (p : Parameter) : List CatalogEntry :=
  (match p.getter with
    | some _ => [⟨provider, p.name, .get, p.getSignature.toJson, p.description⟩]
    | none => []) ++
  (match p.setter with
    | some w => [⟨provider, p.name, .set, w.signature.toJson, p.description⟩]
    | none => [])

/-- The entry for opening or closing the link, where it is not declared. -/
def lifecycleEntry (i : Instrument δ) (name description : Text) : List CatalogEntry :=
  match i.parameter? name with
  | some _ => []
  | none => [⟨i.provider, name, .set, Signature.empty.toJson, description⟩]

/-- The entries that an instrument announces. -/
def entries (i : Instrument δ) : List CatalogEntry :=
  i.parameters.flatMap (fun (_, p) => parameterEntries i.provider p) ++
    i.lifecycleEntry connectName "Open the instrument link" ++
    i.lifecycleEntry disconnectName "Close the instrument link"

end Instrument

end GroundStation
