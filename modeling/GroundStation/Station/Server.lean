/-
# The server

Operators are clients of a server.  What a client sends is published as it comes, in pieces of at most
`chunkSize` bytes; that somebody fails on a piece is the loss of that piece.  A client gets every line
that is published while it is connected.
-/
import GroundStation.Station.Service

namespace GroundStation

namespace Server

/-- How much of a client's input is taken at a time. -/
def chunkSize : Nat := 4096

/-- Cuts a list into pieces of at most `size`, `fuel` being the number of pieces at most. -/
def chunksFrom (size : Nat) : Nat → Bytes → List Bytes
  | 0, _ => []
  | fuel + 1, bytes =>
    if bytes.isEmpty then [] else bytes.take size :: chunksFrom size fuel (bytes.drop size)

/-- The pieces in which input is taken. -/
def chunks (bytes : Bytes) : List Bytes := chunksFrom chunkSize bytes.length bytes

end Server

namespace Station

variable {δ : Type}

/-- Starts the server. -/
def openServer (s : Station δ) : Station δ :=
  let (quit, s) := s.subscribe .quit .serverQuit
  { s with server := { s.server with running := true, quit := some quit } }

/-- Lets a client in. -/
def acceptClient (name : Text) (s : Station δ) : Station δ :=
  let (telemetry, s) := s.subscribe .rawTm (.client s.server.clients.length)
  { s with server := { s.server with clients := s.server.clients ++ [⟨name, telemetry, true, []⟩] } }

/-- Publishes the pieces of a client's input. -/
def takePieces : List Bytes → Station δ → Station δ
  | [], s => s
  | piece :: rest, s => takePieces rest (publishRawTc (.raw piece) s).2

/-- Takes input of the client at an index, as long as it is connected. -/
def takeInput (index : Nat) (bytes : Bytes) (s : Station δ) : Station δ :=
  if (s.server.clients[index]?).any Client.connected then takePieces (Server.chunks bytes) s else s

/-- Lets the client at an index go. -/
def dropClient (index : Nat) (s : Station δ) : Station δ :=
  match s.server.clients[index]? with
  | none => s
  | some c =>
    let s := s.cancelAll [c.telemetry]
    { s with server := { s.server with
      clients := s.server.clients.modify index fun c => { c with connected := false } } }

end Station

end GroundStation
