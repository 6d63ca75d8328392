/-
# The script link

Each command runs a program with the command as its argument.  What the program writes is the reply; if it
fails, what it complains is the reason, and without a complaint its exit status.
-/
import GroundStation.Link.Transport
import GroundStation.Text.Blank

namespace GroundStation

namespace Script

/-- What a run of a program comes to. -/
structure Outcome where
  output : Bytes
  complaint : Bytes
  status : UInt8
  deriving DecidableEq

/-- The programs of a system: for the name of one that exists, what it does with an argument. -/
abbrev Programs := Text → Option (Text → Outcome)

/-- The program of an instrument. -/
def opened (c : InstrumentConfig) : Except LinkError Text :=
  match c.script with
  | some program => .ok program
  | none => .error (.invalidCommand (ConfigError.missingField c.provider "script").message)

/-- How many bytes are too many for the argument of a program. -/
def argumentLimit : Nat := 131072

/-- Why a program cannot be started. -/
def startFault? (programs : Programs) (program command : Text) : Option Text :=
  if program.contains (Char.ofNat 0) || command.contains (Char.ofNat 0) then
    some "nul byte found in provided data"
  else if (programs program).isNone then some "No such file or directory (os error 2)"
  else if argumentLimit ≤ (Utf8.encode command).length then some "Argument list too long (os error 7)"
  else none

/-- The reply of a run. -/
def replyOf (program : Text) (o : Outcome) : Except LinkError Text :=
  if o.status = 0 then .ok (Text.trim (Utf8.decode o.output))
  else
    let complaint := Text.trim (Utf8.decode o.complaint)
    .error (.script (if complaint.isEmpty then
      program ++ " exited with exit status: " ++ Text.ofNat o.status.toNat else complaint))

/-- Runs a program with a command. -/
def run (programs : Programs) (program command : Text) : Except LinkError Text :=
  match startFault? programs program command with
  | some fault => .error (.script (program ++ ": " ++ fault))
  | none =>
    match programs program with
    | none => .error (.script program)
    | some act => replyOf program (act command)

/-- Runs the program of an instrument with a command. -/
def exchange (programs : Programs) (c : InstrumentConfig) (command : Text) : Except LinkError Text :=
  match opened c with
  | .ok program => run programs program command
  | .error e => .error e

/-- The transport of such links. -/
def transport {δ : Type} (programs : Programs) : Transport δ where
  connect := fun c d => ((opened c).map fun _ => (), d)
  write := fun c command d => ((exchange programs c command).map fun _ => (), d)
  query := fun c command d => (exchange programs c command, d)
  readAvailable := fun _ d => (.error (.unsupported "script"), d)
  close := fun _ d => d

end Script

end GroundStation
