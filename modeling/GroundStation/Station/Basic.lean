/-
# The state of a station

A station is a bus and what is attached to it: a controller, which knows the catalog and the one answer
it may be waiting for, a gateway between lines and messages, the instruments in service, and the
clients of its server.  Beside them there may be observers, who record what they hear, and refusers, who
fail every publish they hear of.

All of it is one state, since the components act on each other only through the bus.
-/
import GroundStation.Bus.Basic
import GroundStation.Catalog
import GroundStation.Instrument.Request
import GroundStation.Wire.Reply

namespace GroundStation

/-- Who may listen on the bus of a station. -/
inductive Listener where
  /-- Records what it hears. -/
  | observer
  /-- Fails whatever it hears. -/
  | refuser (reason : Text)
  /-- The gateway, reading operators' bytes. -/
  | lineReader
  /-- The gateway, writing lines for operators. -/
  | lineWriter
  /-- The controller, taking what instruments announce. -/
  | catalogKeeper
  /-- The controller, taking requests. -/
  | dispatcher
  /-- The controller, waiting for one answer. -/
  | oneShot
  /-- An instrument, taking requests. -/
  | instrument (index : Nat)
  /-- An instrument, waiting for the end of service. -/
  | instrumentQuit (index : Nat)
  /-- A client of the server. -/
  | client (index : Nat)
  /-- The server, waiting for the end of service. -/
  | serverQuit
  deriving DecidableEq, Repr

/-- The controller: the catalog, and the subscription that waits for an answer. -/
structure Controller where
  catalog : Catalog
  pending : Option Handle
  subscriptions : List Handle

/-- An instrument in service and its subscriptions. -/
structure Service (δ : Type) where
  instrument : Instrument δ
  subscriptions : List Handle

/-- A client of the server, with the lines sent to it. -/
structure Client where
  name : Text
  telemetry : Handle
  connected : Bool
  /-- Latest line first. -/
  sent : List Text

/-- The server: its clients, in the order in which they came. -/
structure Server where
  clients : List Client
  running : Bool
  quit : Option Handle

/-- The state of a station, and of the devices behind it. -/
structure Station (δ : Type) where
  bus : Bus Listener
  registry : Registry δ
  controller : Controller
  gateway : List Handle
  services : List (Service δ)
  server : Server
  /-- What observers have heard, latest first. -/
  heard : List (Topic × Message)
  devices : δ
  /-- The time that answers bear. -/
  now : Binary64

namespace Station

variable {δ : Type}

/-- A bus that nothing is attached to. -/
def bare (registry : Registry δ) (devices : δ) (now : Binary64) : Station δ where
  bus := .empty
  registry := registry
  controller := ⟨.empty, none, []⟩
  gateway := []
  services := []
  server := ⟨[], false, none⟩
  heard := []
  devices := devices
  now := now

/-! ## Parts of the state -/

/-- Subscribes a listener. -/
def subscribe (s : Station δ) (topic : Topic) (listener : Listener) : Handle × Station δ :=
  let (handle, bus) := s.bus.subscribe topic listener
  (handle, { s with bus })

/-- Subscribes a listener for good. -/
def addListener (s : Station δ) (topic : Topic) (listener : Listener) : Station δ :=
  (s.subscribe topic listener).2

/-- Cancels subscriptions. -/
def cancelAll (s : Station δ) (handles : List Handle) : Station δ :=
  { s with bus := s.bus.cancelAll handles }

/-- The catalog. -/
def catalog (s : Station δ) : Catalog := s.controller.catalog

/-- The station with another catalog. -/
def withCatalog (s : Station δ) (catalog : Catalog) : Station δ :=
  { s with controller := { s.controller with catalog } }

/-- The station with another subscription that waits for an answer. -/
def withPending (s : Station δ) (pending : Option Handle) : Station δ :=
  { s with controller := { s.controller with pending } }

/-- The station with another state of the instrument at an index, and of the devices. -/
def withInstrument (s : Station δ) (index : Nat) (instrument : Instrument δ) (devices : δ) : Station δ :=
  { s with
    services := s.services.modify index fun v => { v with instrument }
    devices }

/-- The first instrument of a provider, with its index. -/
def find? (s : Station δ) (provider : Text) : Option (Nat × Instrument δ) :=
  (s.services.zipIdx.find? fun (v, _) => v.instrument.provider = provider).map fun (v, k) =>
    (k, v.instrument)

/-! ## Listening -/

/-- Calls the listeners of a topic. -/
def tell (s : Station δ) (topic : Topic)
    (call : Listener → Station δ → Except StationError Unit × Station δ) :
    Except StationError Nat × Station δ :=
  deliver (fun id s => s.bus.holds ⟨topic, id⟩) call (s.bus.channel topic).subscribers s

/-- What a listener does who takes no part in a topic: an observer records, a refuser fails, and nobody
else minds. -/
def overhear (topic : Topic) (m : Message) (listener : Listener) (s : Station δ) :
    Except StationError Unit × Station δ :=
  match listener with
  | .observer => (.ok (), { s with heard := (topic, m) :: s.heard })
  | .refuser reason => (.error (.config (.invalid reason)), s)
  | _ => (.ok (), s)

/-- A publish whose count of calls is not asked for. -/
def ignoreCount : Except StationError Nat × Station δ → Except StationError Unit × Station δ
  | (.ok _, s) => (.ok (), s)
  | (.error e, s) => (.error e, s)

end Station

end GroundStation
