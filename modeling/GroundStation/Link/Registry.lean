/-
# The registry of transports

A configuration names its transport.  The registry knows the transports by name, each name once, and for
each the settings that it requires.
-/
import GroundStation.Link.Transport

namespace GroundStation

/-- A transport and the settings that it requires, in the order in which they are checked. -/
structure RegistryEntry (δ : Type) where
  required : List Text
  transport : Transport δ

/-- The transports known, by name. -/
structure Registry (δ : Type) where
  entries : Keyed (RegistryEntry δ)

namespace Registry

variable {δ : Type}

/-- The registry without transports. -/
def empty : Registry δ := ⟨[]⟩

/-- The entry of a name. -/
def get? (r : Registry δ) (name : Text) : Option (RegistryEntry δ) := Keyed.get? name r.entries

/-- Whether a name is known. -/
def contains (r : Registry δ) (name : Text) : Bool := (r.get? name).isSome

/-- The names known, in order. -/
def names (r : Registry δ) : List Text := r.entries.map Prod.fst

/-- The registry with an entry under a name. -/
def insert (r : Registry δ) (name : Text) (entry : RegistryEntry δ) : Registry δ :=
  ⟨Keyed.insert name entry r.entries⟩

/-- Adds a transport under a name that is not in use. -/
def register (r : Registry δ) (name : Text) (entry : RegistryEntry δ) :
    Except ConfigError (Registry δ) :=
  if r.contains name then .error (.duplicateTransport name) else .ok (r.insert name entry)

/-- The transport of an instrument, provided that it is known and that the settings it requires are
given. -/
def resolve (r : Registry δ) (c : InstrumentConfig) : Except ConfigError (Transport δ) :=
  match r.get? c.transport with
  | none => .error (.unknownTransport c.transport)
  | some entry =>
    match entry.required.find? fun field => !c.hasField field with
    | some field => .error (.missingField c.provider field)
    | none => .ok entry.transport

/-- Opens a link to the device of an instrument. -/
def connect (r : Registry δ) (c : InstrumentConfig) (d : δ) : Except LinkError Unit × δ :=
  match r.get? c.transport with
  | none => (.error (.invalidCommand ("unknown transport '" ++ c.transport ++ "'")), d)
  | some entry => entry.transport.connect c d

end Registry

end GroundStation
