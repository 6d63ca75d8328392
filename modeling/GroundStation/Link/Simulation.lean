/-
# The simulation link

The device is played by a program, which reads commands and writes replies.  `Simulator` is such a program
in memory: it may say something at its start, and then answers one command after another, a command being
what ends with a line feed.  A simulator that has left reads nothing more, but what it wrote can still be
read.
-/
import GroundStation.Link.Framing
import GroundStation.Link.Socket
import GroundStation.Link.Transport
import GroundStation.Text.Hex

namespace GroundStation

namespace Simulation

/-- What a simulator does on a command. -/
inductive Reaction where
  | writes (bytes : Bytes)
  /-- Tells which command it got. -/
  | echoes
  | leaves
  deriving DecidableEq

/-- A simulator at work. -/
structure Simulator where
  /-- What it does on the commands to come. -/
  script : List Reaction
  /-- The beginning of a command. -/
  input : Bytes
  /-- What it has written and nobody has read. -/
  output : Bytes
  running : Bool
  deriving DecidableEq

/-- A simulator that has said its greeting. -/
def Simulator.start (greeting : Bytes) (script : List Reaction) : Simulator :=
  ⟨script, [], greeting, true⟩

/-- One command. -/
def Simulator.react (s : Simulator) (command : Bytes) : Simulator :=
  match s.script with
  | [] => s
  | .writes bytes :: rest => { s with script := rest, output := s.output ++ bytes }
  | .echoes :: rest =>
    { s with script := rest, output := s.output ++ Utf8.encode ("got:" ++ Hex.encode command ++ ['\n']) }
  | .leaves :: rest => { s with script := rest, running := false }

/-- One byte of input. -/
def Simulator.byte (s : Simulator) (b : UInt8) : Simulator :=
  if !s.running then s
  else if b = 10 then { s with input := [] }.react (s.input ++ [b])
  else { s with input := s.input ++ [b] }

/-- Writes to a simulator. -/
def Simulator.take (s : Simulator) (bytes : Bytes) : Except LinkError Simulator :=
  if s.running then .ok (bytes.foldl Simulator.byte s) else .error (.io brokenPipe)

/-- An open link. -/
structure Link where
  framing : Framing
  buffer : Bytes
  deriving DecidableEq

/-- The link of an instrument, where `exists` tells which programs there are. -/
def opened (isProgram : Text → Bool) (c : InstrumentConfig) : Except LinkError Link :=
  match c.simulation with
  | none => .error (.invalidCommand (ConfigError.missingField c.provider "simulation").message)
  | some program =>
    if program.contains (Char.ofNat 0) then
      .error (.io ⟨.invalidInput, "nul byte found in provided data"⟩)
    else if isProgram program then (Framing.ofConfig c).map fun f => ⟨f, []⟩
    else .error (.io ⟨.notFound, "No such file or directory (os error 2)"⟩)

/-- Sends a command. -/
def write (l : Link) (command : Text) (s : Simulator) : Except LinkError Unit × Simulator :=
  match l.framing.frame command with
  | .error e => (.error e, s)
  | .ok bytes =>
    match s.take bytes with
    | .error e => (.error e, s)
    | .ok s => (.ok (), s)

/-- Reads a line: from the buffer, or with what the simulator has written. -/
def readLine (l : Link) (s : Simulator) : Except LinkError Text × Link × Simulator :=
  let take (buffer : Bytes) := LineBuffer.take? l.framing.readTermination buffer
  match take l.buffer with
  | some (line, rest) => (.ok (l.framing.decode line), { l with buffer := rest }, s)
  | none =>
    let buffer := l.buffer ++ s.output
    let s := { s with output := [] }
    match take buffer with
    | some (line, rest) => (.ok (l.framing.decode line), { l with buffer := rest }, s)
    | none => (.error (if s.running then .timeout else .closed), { l with buffer }, s)

/-- Sends a command and reads the reply. -/
def query (l : Link) (command : Text) (s : Simulator) : Except LinkError Text × Link × Simulator :=
  match write l command s with
  | (.error e, s) => (.error e, l, s)
  | (.ok (), s) => readLine l s

/-- Takes what the simulator has written. -/
def readAvailable (l : Link) (s : Simulator) : Except LinkError Bytes × Link × Simulator :=
  let bytes := l.buffer ++ s.output
  let l := { l with buffer := [] }
  let s := { s with output := [] }
  if bytes.isEmpty ∧ !s.running then (.error .closed, l, s) else (.ok bytes, l, s)

/-- The transport of such links; a link that is not open counts as closed. -/
def transport (isProgram : Text → Bool) : Transport (Option Link × Simulator) where
  connect := fun c (_, s) =>
    match opened isProgram c with
    | .ok l => (.ok (), some l, s)
    | .error e => (.error e, none, s)
  write := fun _ command (l, s) =>
    match l with
    | none => (.error .closed, l, s)
    | some link =>
      let (outcome, s) := write link command s
      (outcome, l, s)
  query := fun _ command (l, s) =>
    match l with
    | none => (.error .closed, l, s)
    | some link =>
      let (outcome, link, s) := query link command s
      (outcome, some link, s)
  readAvailable := fun _ (l, s) =>
    match l with
    | none => (.error .closed, l, s)
    | some link =>
      let (outcome, link, s) := readAvailable link s
      (outcome, some link, s)
  close := fun _ (l, s) => (l, { s with running := false })

end Simulation

end GroundStation
