/-
# Configuration

A station is configured by the address it listens on and by its instruments.  An instrument names its
provider, the transport to its device with what that transport needs, how texts are encoded and ended on
the link, what is acquired cyclically, and its parameters.
-/
import GroundStation.Encoding
import GroundStation.Parameter.Declaration
import GroundStation.Text.Keyed

namespace GroundStation

/-- Settings of the RMAP transport. -/
structure RmapSettings where
  target : UInt8
  initiator : UInt8
  key : UInt8
  /-- Whether the target verifies data before it writes. -/
  verify : Bool
  deriving DecidableEq

/-- The settings that hold unless others are given. -/
def RmapSettings.standard : RmapSettings := ⟨0x32, 0x20, 0x20, false⟩

/-- How values are acquired that nobody asked for. -/
inductive CyclicMode where
  /-- The listed parameters are read in turn. -/
  | poll
  /-- The device sends records on its own. -/
  | stream
  deriving DecidableEq, Repr

/-- Cyclic acquisition. -/
structure CyclicConfig where
  mode : CyclicMode
  intervalMs : Nat
  parameters : List Text
  deriving DecidableEq

/-- The optional settings of an instrument that a transport may need. -/
inductive Field where
  | address
  | port
  | simulation
  | script
  | cyclic
  deriving DecidableEq, Repr

/-- The configuration of an instrument. -/
structure InstrumentConfig where
  provider : Text
  transport : Text
  address : Option Text
  port : Option Nat
  encoding : Encoding
  writeTermination : Text
  readTermination : Text
  timeoutMs : Nat
  simulation : Option Text
  script : Option Text
  rmap : RmapSettings
  cyclic : Option CyclicConfig
  parameters : Keyed ParameterDeclaration
  deriving DecidableEq

namespace Field

/-- The name of a setting. -/
def name : Field → Text
  | address => "address"
  | port => "port"
  | simulation => "simulation"
  | script => "script"
  | cyclic => "cyclic"

/-- The setting of a name. -/
def named? (name : Text) : Option Field :=
  [address, port, simulation, script, cyclic].find? fun f => decide (f.name = name)

/-- Whether a setting is given. -/
def given (c : InstrumentConfig) : Field → Bool
  | address => c.address.isSome
  | port => c.port.isSome
  | simulation => c.simulation.isSome
  | script => c.script.isSome
  | cyclic => c.cyclic.isSome

end Field

namespace InstrumentConfig

/-- Whether the setting of a name is given; a name that is no setting is not. -/
def hasField (c : InstrumentConfig) (name : Text) : Bool :=
  match Field.named? name with
  | some field => field.given c
  | none => false

/-- The address of the device on a network, where it is complete. -/
def socketAddress? (c : InstrumentConfig) : Option Text :=
  match c.address, c.port with
  | some address, some port => some (address ++ ':' :: Text.ofNat port)
  | _, _ => none

end InstrumentConfig

/-- Where the station listens. -/
structure ListenConfig where
  host : Text
  port : Nat
  deriving DecidableEq

namespace ListenConfig

/-- The address that is listened on unless another is given. -/
def standard : ListenConfig := ⟨"127.0.0.1", 12345⟩

/-- The address in one text. -/
def address (c : ListenConfig) : Text := c.host ++ ':' :: Text.ofNat c.port

end ListenConfig

/-- The configuration of a station. -/
structure StationConfig where
  server : ListenConfig
  instruments : List InstrumentConfig
  deriving DecidableEq

namespace StationConfig

/-- The first thing wrong with the providers of instruments: each must have a name of its own. -/
def providerFault? (seen : List Text) : List InstrumentConfig → Option ConfigError
  | [] => none
  | c :: rest =>
    if c.provider.isEmpty then some (.invalid "instrument with an empty provider")
    else if seen.contains c.provider then
      some (.invalid ("provider '" ++ c.provider ++ "' is declared twice"))
    else providerFault? (c.provider :: seen) rest

end StationConfig

end GroundStation
