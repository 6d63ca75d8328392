/-
# A bench of rehearsed devices

A rehearsed device plays its part from a script: what comes of opening it, of each command in turn, and of
reading what it sends on its own.  The last outcome of a command repeats.  A command that the script does
not know succeeds when it is written, and is not answered when it is queried.  The device keeps a log of
what was done to it.

A bench holds the devices by the provider of their instruments.  An instrument without a device of its own
meets one with an empty script, which keeps no log.
-/
import GroundStation.Link.Registry

namespace GroundStation

/-- What comes of one act: a reply, or a failure. -/
abbrev Turn := Except LinkError Text

/-- A device that plays from a script. -/
structure Rehearsed where
  /-- What comes of opening; at the end, opening succeeds. -/
  opens : List Turn
  /-- What comes of each command. -/
  commands : Keyed (List Turn)
  /-- What is there to read, if the device sends on its own. -/
  reads : Option (List (Except LinkError Bytes))
  /-- What was done to the device, latest first. -/
  log : List Text

namespace Rehearsed

/-- A device with an empty script. -/
def idle : Rehearsed := ⟨[], [], none, []⟩

/-- The device with one more act in its log. -/
def note (r : Rehearsed) (act : Text) : Rehearsed := { r with log := act :: r.log }

/-- What comes of a command, if the script knows it. -/
def next (r : Rehearsed) (command : Text) : Option Turn × Rehearsed :=
  match r.commands.get? command with
  | some (turn :: later :: rest) =>
    (some turn, { r with commands := r.commands.insert command (later :: rest) })
  | some [turn] => (some turn, r)
  | _ => (none, r)

/-- Opens the device. -/
def connect (r : Rehearsed) : Except LinkError Unit × Rehearsed :=
  let r := r.note "open"
  match r.opens with
  | [] => (.ok (), r)
  | turn :: rest => (turn.map fun _ => (), { r with opens := rest })

/-- Writes a command. -/
def write (r : Rehearsed) (command : Text) : Except LinkError Unit × Rehearsed :=
  let (turn, r) := (r.note ("W:" ++ command)).next command
  ((turn.getD (.ok [])).map fun _ => (), r)

/-- Queries a command. -/
def query (r : Rehearsed) (command : Text) : Except LinkError Text × Rehearsed :=
  let (turn, r) := (r.note ("Q:" ++ command)).next command
  (turn.getD (.error .timeout), r)

/-- Reads what the device sends on its own. -/
def readAvailable (r : Rehearsed) : Except LinkError Bytes × Rehearsed :=
  match r.reads with
  | none => (.error (.unsupported "fake"), r)
  | some [] => (.error .closed, r)
  | some (turn :: rest) => (turn, { r with reads := some rest })

end Rehearsed

/-- The devices of providers. -/
structure Bench where
  devices : Keyed Rehearsed

namespace Bench

/-- Acts on the device of an instrument. -/
def on {α : Type} (b : Bench) (c : InstrumentConfig) (act : Rehearsed → α × Rehearsed) : α × Bench :=
  match b.devices.get? c.provider with
  | none => ((act .idle).1, b)
  | some r =>
    let (outcome, r) := act r
    (outcome, ⟨b.devices.insert c.provider r⟩)

/-- The transport to the devices of a bench. -/
def transport : Transport Bench where
  connect := fun c b => b.on c Rehearsed.connect
  write := fun c command b => b.on c fun r => r.write command
  query := fun c command b => b.on c fun r => r.query command
  readAvailable := fun c b => b.on c Rehearsed.readAvailable
  close := fun c b => (b.on c fun r => ((), r.note "close")).2

end Bench

end GroundStation
