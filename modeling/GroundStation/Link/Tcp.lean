/-
# The TCP link

A link over a byte stream.  A query sends its command and waits for one line; lines that came earlier are
taken first.  Reading what is available takes what is buffered and makes one read, which does not wait for
long; if that read finds the stream at its end, the buffered bytes are gone with it.

`patience` bounds how many reads fit into the time of a reply.
-/
import GroundStation.Link.Framing
import GroundStation.Link.Socket
import GroundStation.Link.Transport

namespace GroundStation

namespace Tcp

/-- How much is read at a time. -/
def chunkSize : Nat := 1024

/-- An open link. -/
structure Link where
  framing : Framing
  /-- What has been read and not been handed out. -/
  buffer : Bytes
  deriving DecidableEq

/-- Whether a failure means that nothing came in time. -/
def isTimeout (f : IoFailure) : Bool := f.kind == .wouldBlock || f.kind == .timedOut

/-- A time of zero cannot be waited for. -/
def checkTimeout (c : InstrumentConfig) : Except LinkError Unit :=
  if c.timeoutMs = 0 then .error (.io ⟨.invalidInput, "cannot set a 0 duration timeout"⟩) else .ok ()

/-- The link of an instrument once the network has accepted the connection. -/
def opened (c : InstrumentConfig) : Except LinkError Link := do
  checkTimeout c
  return ⟨← Framing.ofConfig c, []⟩

variable {π : Type} (socket : Socket π)

/-- Sends a command. -/
def write (l : Link) (command : Text) (p : π) : Except LinkError Unit × π :=
  match l.framing.frame command with
  | .error e => (.error e, p)
  | .ok bytes =>
    match socket.send bytes p with
    | (.ok (), p) => (.ok (), p)
    | (.error f, p) => (.error (.io f), p)

/-- Reads until there is a line. -/
def readLine (patience : Nat) (l : Link) (p : π) : Except LinkError Bytes × Link × π :=
  match LineBuffer.take? l.framing.readTermination l.buffer with
  | some (line, rest) => (.ok line, { l with buffer := rest }, p)
  | none =>
    match patience with
    | 0 => (.error .timeout, l, p)
    | patience + 1 =>
      match socket.receive chunkSize p with
      | (.bytes bytes, p) => readLine patience { l with buffer := l.buffer ++ bytes } p
      | (.silence, p) => (.error .timeout, l, p)
      | (.hangUp, p) => (.error .closed, l, p)
      | (.failure f, p) => (.error (if isTimeout f then .timeout else .io f), l, p)

/-- Sends a command and reads the reply. -/
def query (patience : Nat) (l : Link) (command : Text) (p : π) :
    Except LinkError Text × Link × π :=
  match write socket l command p with
  | (.error e, p) => (.error e, l, p)
  | (.ok (), p) =>
    match readLine socket patience l p with
    | (.ok line, l, p) => (.ok (l.framing.decode line), l, p)
    | (.error e, l, p) => (.error e, l, p)

/-- Takes what the device sent on its own. -/
def readAvailable (l : Link) (p : π) : Except LinkError Bytes × Link × π :=
  let drained := { l with buffer := [] }
  match socket.receive chunkSize p with
  | (.bytes bytes, p) => (.ok (l.buffer ++ bytes), drained, p)
  | (.silence, p) => (.ok l.buffer, drained, p)
  | (.hangUp, p) => (.error .closed, drained, p)
  | (.failure f, p) =>
    if isTimeout f then (.ok l.buffer, drained, p) else (.error (.io f), drained, p)

/-- The transport of such links; a link that is not open counts as closed. -/
def transport (patience : Nat) : Transport (Option Link × π) where
  connect := fun c (_, p) =>
    match opened c with
    | .ok l => (.ok (), some l, p)
    | .error e => (.error e, none, p)
  write := fun _ command (l, p) =>
    match l with
    | none => (.error .closed, l, p)
    | some link =>
      let (outcome, p) := write socket link command p
      (outcome, l, p)
  query := fun _ command (l, p) =>
    match l with
    | none => (.error .closed, l, p)
    | some link =>
      let (outcome, link, p) := query socket patience link command p
      (outcome, some link, p)
  readAvailable := fun _ (l, p) =>
    match l with
    | none => (.error .closed, l, p)
    | some link =>
      let (outcome, link, p) := readAvailable socket link p
      (outcome, some link, p)
  close := fun _ (l, p) => (l, socket.close p)

end Tcp

end GroundStation
