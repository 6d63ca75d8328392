/-
# The standard transports

Five transports come with the library: `tcp`, `udp`, `rmap`, `script` and `simulation`.  The registry here
holds them as they are on a host of its own: no network reaches beyond it and there is no program to run,
so that nothing can be opened but a script, which then fails on every command.
-/
import GroundStation.Link.Host
import GroundStation.Link.Registry
import GroundStation.Link.Script
import GroundStation.Link.Simulation

namespace GroundStation

namespace Standard

variable {δ : Type}

/-- Whether an address names a host without asking anybody: in numbers, or this host itself. -/
def isKnownHost (address : Text) : Bool := address = "localhost" ∨ (Host.number? address).isSome

/-- Why the host of an address cannot be reached. -/
def hostFault (address : Text) : IoFailure :=
  if Char.ofNat 0 ∈ address then ⟨.invalidInput, "file name contained an unexpected NUL byte"⟩
  else if isKnownHost address then ⟨.networkUnreachable, "Network is unreachable (os error 101)"⟩
  else ⟨.uncategorized, "failed to lookup address information: Temporary failure in name resolution"⟩

/-- Why the network cannot be reached. -/
def networkFault (c : InstrumentConfig) : LinkError :=
  match c.socketAddress?, c.address with
  | some _, some address => .io (hostFault address)
  | _, _ => .invalidCommand "address and port are required"

/-- A transport that opens no link. -/
def unopened (connect : InstrumentConfig → LinkError) : Transport δ where
  connect := fun c d => (.error (connect c), d)
  write := fun _ _ d => (.error .closed, d)
  query := fun _ _ d => (.error .closed, d)
  readAvailable := fun _ d => (.error .closed, d)
  close := fun _ d => d

/-- Why a simulator cannot be started where there are no programs. -/
def simulationFault (c : InstrumentConfig) : LinkError :=
  match Simulation.opened (fun _ => false) c with
  | .error e => e
  | .ok _ => .closed

/-- The standard transports. -/
def registry : Registry δ :=
  ((((Registry.empty.insert "tcp" ⟨["address", "port"], unopened networkFault⟩).insert
    "udp" ⟨["address", "port"], unopened networkFault⟩).insert
    "script" ⟨["script"], Script.transport fun _ => none⟩).insert
    "simulation" ⟨["simulation"], unopened simulationFault⟩).insert
    "rmap" ⟨["address", "port"], unopened networkFault⟩

end Standard

end GroundStation
