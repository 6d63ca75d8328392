/-
# Service

Components are attached to the bus and detached from it.  An instrument enters service by subscribing and
then announcing its entries; if they are refused, it is as if it had never come.  The end of service is
announced to all before anything is detached.
-/
import GroundStation.Instrument.Acquisition
import GroundStation.Station.Publish

namespace GroundStation

namespace Station

variable {δ : Type}

/-! ## The controller and the gateway -/

/-- Attaches the controller. -/
def attachController (s : Station δ) : Station δ :=
  let (signatures, s) := s.subscribe .ioSignature .catalogKeeper
  let (requests, s) := s.subscribe .tc .dispatcher
  { s with controller := { s.controller with subscriptions := [signatures, requests] } }

/-- Detaches the controller, which then waits for no answer. -/
def detachController (s : Station δ) : Station δ :=
  (s.cancelAll (s.controller.subscriptions ++ s.controller.pending.toList)).withPending none

/-- Attaches the gateway. -/
def attachGateway (s : Station δ) : Station δ :=
  let (inbound, s) := s.subscribe .rawTc .lineReader
  let (outbound, s) := s.subscribe .tm .lineWriter
  { s with gateway := [inbound, outbound] }

/-- Detaches the gateway. -/
def detachGateway (s : Station δ) : Station δ := s.cancelAll s.gateway

/-- A station without instruments. -/
def start (s : Station δ) : Station δ := s.attachController.attachGateway

/-! ## Instruments -/

/-- Puts an instrument into service. -/
def addInstrument (c : InstrumentConfig) (s : Station δ) : Except StationError Unit × Station δ :=
  match Instrument.assemble s.registry c with
  | .error e => (.error (.config e), s)
  | .ok i =>
    let index := s.services.length
    let (requests, s) := s.subscribe .ioRequest (.instrument index)
    let (quit, s) := s.subscribe .quit (.instrumentQuit index)
    match s.publish .ioSignature (.entries i.entries) with
    | (.error e, s) => (.error e, s.cancelAll [requests, quit])
    | (.ok _, s) => (.ok (), { s with services := s.services ++ [⟨i, [requests, quit]⟩] })

/-- Puts instruments into service, up to the first that cannot be. -/
def addInstruments : List InstrumentConfig → Station δ → Except StationError Unit × Station δ
  | [], s => (.ok (), s)
  | c :: rest, s =>
    match addInstrument c s with
    | (.ok (), s) => addInstruments rest s
    | (.error e, s) => (.error e, s)

/-- Takes the instrument at an index off the bus and out of service. -/
def stopInstrument (index : Nat) (s : Station δ) : Station δ :=
  match s.services[index]? with
  | none => s
  | some v =>
    let s := s.cancelAll v.subscriptions
    let s := { s with services := s.services.modify index fun v => { v with subscriptions := [] } }
    s.shutInstrument index

/-- Lets the instrument at an index answer a request that does not come over the bus. -/
def executeOn (index : Nat) (r : Request) (s : Station δ) : Option Response × Station δ :=
  match s.services[index]? with
  | none => (none, s)
  | some v =>
    let (response, i, d) := v.instrument.execute r s.devices
    (response, s.withInstrument index i d)

/-- Publishes telemetry that nobody asked for; that somebody refuses it does not matter. -/
def announce : List Response → Station δ → Station δ
  | [], s => s
  | r :: rest, s => announce rest (publishTm (.response r) s).2

/-- One round of the acquisition of the instrument at an index. -/
def acquire (index : Nat) (s : Station δ) : Station δ :=
  match s.services[index]? with
  | none => s
  | some v =>
    let (updates, i, d) := v.instrument.round s.devices
    announce (updates.getD []) (s.withInstrument index i d)

/-! ## The whole station -/

/-- What is asked of a station from time to time. -/
structure Status where
  catalogEntries : Nat
  /-- The provider, the transport and the state of the link of each instrument. -/
  instruments : List (Text × Text × ConnectionState)

/-- The status of a station. -/
def status (s : Station δ) : Status :=
  ⟨s.catalog.size, s.services.map fun v =>
    (v.instrument.provider, v.instrument.config.transport, v.instrument.state)⟩

/-- Takes the instruments with indices below `count` off the bus and out of service, in order. -/
def stopInstruments : Nat → Station δ → Station δ
  | 0, s => s
  | count + 1, s => stopInstrument count (stopInstruments count s)

/-- Ends service: it is announced, and everything is detached. -/
def shutdown (s : Station δ) : Except StationError Unit × Station δ :=
  match s.publish .quit .quit with
  | (.error e, s) => (.error e, s)
  | (.ok _, s) => (.ok (), (s.stopInstruments s.services.length).detachController.detachGateway)

end Station

end GroundStation
