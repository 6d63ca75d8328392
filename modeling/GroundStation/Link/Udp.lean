/-
# The UDP link

Every command is a datagram, and the reply to a query is the next datagram that comes, without the
termination at its end.  `Responder` is a device in memory, which answers each datagram that reaches it by
some of its own.
-/
import GroundStation.Link.Framing
import GroundStation.Link.Tcp

namespace GroundStation

namespace Udp

/-- The most bytes that are taken of a datagram. -/
def datagramLimit : Nat := 65507

/-- A device in memory. -/
structure Responder where
  /-- What it will send on the next datagram. -/
  answers : List Bytes
  /-- What it has sent and nobody has read. -/
  queue : List Bytes
  /-- What reached it, latest first. -/
  received : List Bytes
  deriving DecidableEq

/-- A device that has neither sent nor received anything. -/
def Responder.quiet : Responder := ⟨[], [], []⟩

/-- A datagram reaches the device, which answers.  What exceeds the limit of an answer is lost. -/
def Responder.take (r : Responder) (datagram : Bytes) : Responder :=
  ⟨[], r.queue ++ r.answers.map (List.take datagramLimit), datagram :: r.received⟩

/-- A datagram without the termination at its end. -/
def strip (termination datagram : Bytes) : Bytes :=
  if termination.isSuffixOf datagram then datagram.take (datagram.length - termination.length)
  else datagram

/-- The framing of an instrument's link. -/
def opened (c : InstrumentConfig) : Except LinkError Framing := do
  Tcp.checkTimeout c
  Framing.ofConfig c

/-- Sends a command. -/
def write (f : Framing) (command : Text) (r : Responder) : Except LinkError Unit × Responder :=
  match f.frame command with
  | .error e => (.error e, r)
  | .ok bytes => (.ok (), r.take bytes)

/-- Sends a command and takes the next datagram. -/
def query (f : Framing) (command : Text) (r : Responder) : Except LinkError Text × Responder :=
  match write f command r with
  | (.error e, r) => (.error e, r)
  | (.ok (), r) =>
    match r.queue with
    | [] => (.error .timeout, r)
    | datagram :: rest => (.ok (f.decode (strip f.readTermination datagram)), { r with queue := rest })

/-- The transport of such links; a link that is not open counts as closed. -/
def transport : Transport (Option Framing × Responder) where
  connect := fun c (_, r) =>
    match opened c with
    | .ok f => (.ok (), some f, r)
    | .error e => (.error e, none, r)
  write := fun _ command (f, r) =>
    match f with
    | none => (.error .closed, f, r)
    | some framing =>
      let (outcome, r) := write framing command r
      (outcome, f, r)
  query := fun _ command (f, r) =>
    match f with
    | none => (.error .closed, f, r)
    | some framing =>
      let (outcome, r) := query framing command r
      (outcome, f, r)
  readAvailable := fun _ (f, r) => (.ok r.queue.flatten, f, { r with queue := [] })
  close := fun _ d => d

end Udp

end GroundStation
