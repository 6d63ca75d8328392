/-
# Sockets

A socket is one end of a byte stream.  Reading yields some bytes, or finds that nothing comes in time, or
that the other end has closed the stream, or fails.  The other end is a state of type `π`, and a socket is
any three functions on it.

`Peer` is an end in memory: what it has sent waits to be read, and what is written to it is kept.
-/
import GroundStation.Error
import GroundStation.Text.Utf8

namespace GroundStation

/-- What a read finds. -/
inductive Arrival where
  | bytes (content : Bytes)
  /-- Nothing came in time. -/
  | silence
  /-- The other end has closed the stream. -/
  | hangUp
  | failure (cause : IoFailure)
  deriving DecidableEq

/-- One end of a byte stream whose other end has a state of type `π`. -/
structure Socket (π : Type) where
  /-- Reads at most so many bytes. -/
  receive : Nat → π → Arrival × π
  send : Bytes → π → Except IoFailure Unit × π
  close : π → π

/-- The system's words for a broken pipe. -/
def brokenPipe : IoFailure := ⟨.brokenPipe, "Broken pipe (os error 32)"⟩

/-- Another end in memory. -/
structure Peer where
  /-- What it has sent and nobody has read. -/
  incoming : Bytes
  /-- Whether it sends nothing more. -/
  hungUp : Bool
  /-- What was written to it. -/
  received : Bytes
  /-- Whether this end has closed the stream. -/
  closed : Bool
  deriving DecidableEq

namespace Peer

/-- A peer that has neither sent nor received anything. -/
def quiet : Peer := ⟨[], false, [], false⟩

/-- The peer having sent more bytes. -/
def arrive (p : Peer) (bytes : Bytes) : Peer := { p with incoming := p.incoming ++ bytes }

/-- Reading from a peer. -/
def receive (count : Nat) (p : Peer) : Arrival × Peer :=
  if p.incoming.isEmpty then (if p.hungUp || p.closed then .hangUp else .silence, p)
  else (.bytes (p.incoming.take count), { p with incoming := p.incoming.drop count })

/-- Writing to a peer. -/
def send (bytes : Bytes) (p : Peer) : Except IoFailure Unit × Peer :=
  if p.closed then (.error brokenPipe, p) else (.ok (), { p with received := p.received ++ bytes })

/-- The socket of a peer. -/
def socket : Socket Peer := ⟨receive, send, fun p => { p with closed := true }⟩

end Peer

end GroundStation
