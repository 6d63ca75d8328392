/-
# Lines on a link

A line-oriented link sends a command in the encoding of the instrument, followed by the termination for
writing, and reads replies that end with the termination for reading.  Bytes that arrive behind the end of
a reply wait for the next one.
-/
import GroundStation.Config.Model
import GroundStation.Text.Blank
import GroundStation.Text.Split

namespace GroundStation

/-- How commands and replies are laid out on a link. -/
structure Framing where
  encoding : Encoding
  writeTermination : Bytes
  readTermination : Bytes
  deriving DecidableEq

namespace Framing

/-- The framing that a configuration asks for, provided that its terminations can be encoded. -/
def ofConfig (c : InstrumentConfig) : Except LinkError Framing :=
  match c.encoding.encode c.writeTermination with
  | .error e => .error e
  | .ok writeTermination =>
    match c.encoding.encode c.readTermination with
    | .error e => .error e
    | .ok readTermination => .ok ⟨c.encoding, writeTermination, readTermination⟩

/-- The bytes of a command. -/
def frame (f : Framing) (command : Text) : Except LinkError Bytes :=
  match f.encoding.encode command with
  | .error e => .error e
  | .ok bytes => .ok (bytes ++ f.writeTermination)

/-- The text of a reply without its termination. -/
def decode (f : Framing) (line : Bytes) : Text := Text.trim (f.encoding.decode line)

end Framing

namespace LineBuffer

/-- Takes the first line off a buffer.  Where nothing terminates lines, whatever there is makes one. -/
def take? (termination buffer : Bytes) : Option (Bytes × Bytes) :=
  if termination.isEmpty then
    if buffer.isEmpty then none else some (buffer, [])
  else Split.cut? termination buffer

end LineBuffer

end GroundStation
