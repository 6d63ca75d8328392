/-
# The RMAP link

A link that speaks RMAP over a byte stream.  Commands are given in words.  Each is sent as one framed
packet with the next transaction id, and answered by the frame that carries this id: replies to earlier
commands are passed over, and a frame that is no good reply fails the command.  What came of a frame that
is not complete yet waits in the buffer, so a late reply does not spoil the next exchange.

`patience` bounds how many reads fit into the time of a reply, those that are interrupted among them.
-/
import GroundStation.Link.Socket
import GroundStation.Link.Tcp
import GroundStation.Rmap.CommandText
import GroundStation.Rmap.Frame

namespace GroundStation

namespace Rmap

/-- How much is read at a time. -/
def chunkSize : Nat := 4096

/-- An open link. -/
structure Link where
  codec : Codec
  /-- Whether the target verifies data before it writes. -/
  verify : Bool
  /-- What has been read and not been taken as frames. -/
  buffer : Bytes
  deriving DecidableEq

/-- The link of an instrument once the network has accepted the connection. -/
def opened (c : InstrumentConfig) : Except LinkError Link := do
  Tcp.checkTimeout c
  return ⟨.start c.rmap.target c.rmap.initiator c.rmap.key, c.rmap.verify, []⟩

/-- What a frame is to a command that waits for its reply. -/
inductive Verdict where
  | accepted (reply : Packet)
  /-- A reply to another command. -/
  | stale
  | rejected
  deriving DecidableEq

/-- Judges a frame where the reply of a kind to the command of an id is waited for. -/
def judge (id : UInt16) (kind : PacketKind) (frame : Bytes) : Verdict :=
  match Packet.decode frame with
  | none => .rejected
  | some reply =>
    if reply.transactionId ≠ id then .stale
    else if reply.valid ∧ reply.kind = kind ∧ reply.status = some 0 then .accepted reply
    else .rejected

/-- What the frames in a buffer come to. -/
inductive Scanned where
  | accepted (reply : Packet) (rest : Bytes)
  | rejected (rest : Bytes)
  /-- The frames so far are stale, and more has to be read. -/
  | waiting (rest : Bytes)
  deriving DecidableEq

/-- Taking a frame leaves less. -/
theorem length_of_takeFrame {buffer packet rest : Bytes}
    (h : takeFrame buffer = .frame packet rest) : rest.length < buffer.length := by
  unfold takeFrame at h
  split at h
  · dsimp only at h
    split at h
    · exact nomatch h
    · split at h
      · exact nomatch h
      · cases h
        simp only [List.length_drop, List.length_cons]
        omega
  · exact nomatch h

/-- Takes frames off a buffer up to the first that is not stale. -/
def scan (id : UInt16) (kind : PacketKind) (buffer : Bytes) : Scanned :=
  match _h : takeFrame buffer with
  | .incomplete => .waiting buffer
  | .impossible _ => .rejected []
  | .frame packet rest =>
    match judge id kind packet with
    | .accepted reply => .accepted reply rest
    | .rejected => .rejected rest
    | .stale => scan id kind rest
termination_by buffer.length
decreasing_by exact length_of_takeFrame _h

variable {π : Type} (socket : Socket π)

/-- Reads until the reply is there. -/
def awaitReply (id : UInt16) (kind : PacketKind) (patience : Nat) (l : Link) (p : π) :
    Except LinkError Packet × Link × π :=
  match scan id kind l.buffer with
  | .accepted reply rest => (.ok reply, { l with buffer := rest }, p)
  | .rejected rest => (.error .rmapReply, { l with buffer := rest }, p)
  | .waiting rest =>
    let l := { l with buffer := rest }
    match patience with
    | 0 => (.error .rmapReply, l, p)
    | patience + 1 =>
      match socket.receive chunkSize p with
      | (.bytes bytes, p) => awaitReply id kind patience { l with buffer := l.buffer ++ bytes } p
      | (.silence, p) => (.error .rmapReply, l, p)
      | (.hangUp, p) => (.error .closed, l, p)
      | (.failure f, p) =>
        -- a read that was interrupted is made again, in the time that is left
        if f.kind = .interrupted then awaitReply id kind patience l p
        else (.error (if Tcp.isTimeout f then .rmapReply else .io f), l, p)

/-- The kind of reply that a command is answered by. -/
def Command.replyKind (c : Command) : PacketKind := if c.write then .replyWrite else .replyRead

/-- Sends a command and waits for its reply. -/
def transact (patience : Nat) (l : Link) (text : Text) (p : π) :
    Except LinkError Packet × Link × π :=
  match readCommand text l.verify with
  | .error e => (.error e, l, p)
  | .ok command =>
    let id := l.codec.nextId
    match l.codec.encode command with
    | (.error e, codec) => (.error e.toLink, { l with codec }, p)
    | (.ok packet, codec) =>
      let l := { l with codec }
      match socket.send (frame packet) p with
      | (.error f, p) => (.error (.io f), l, p)
      | (.ok (), p) => awaitReply socket id command.replyKind patience l p

/-- The transport of such links; a link that is not open counts as closed. -/
def transport (patience : Nat) : Transport (Option Link × π) where
  connect := fun c (_, p) =>
    match opened c with
    | .ok l => (.ok (), some l, p)
    | .error e => (.error e, none, p)
  write := fun _ command (l, p) =>
    match l with
    | none => (.error .closed, l, p)
    | some link =>
      match transact socket patience link command p with
      | (.ok _, link, p) => (.ok (), some link, p)
      | (.error e, link, p) => (.error e, some link, p)
  query := fun _ command (l, p) =>
    match l with
    | none => (.error .closed, l, p)
    | some link =>
      match transact socket patience link command p with
      | (.ok reply, link, p) => (.ok (Hex.encode reply.data), some link, p)
      | (.error e, link, p) => (.error e, some link, p)
  readAvailable := fun _ d => (.error (.unsupported "rmap"), d)
  close := fun _ (l, p) => (l, socket.close p)

end Rmap

end GroundStation
