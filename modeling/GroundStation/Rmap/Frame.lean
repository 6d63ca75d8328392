/-
# Frames on a byte stream

A packet travels behind its length, four bytes with the high one first.  The receiver buffers what
arrives and takes frames off the front; a length beyond the largest packet is impossible, and everything
buffered is then dropped.
-/
import GroundStation.Error
import GroundStation.Rmap.Packet

namespace GroundStation

namespace Rmap

/-- The length of the largest packet: a command header with its checksum, data and its checksum. -/
def maxFrameLength : Nat := 16 + maxDataLength + 1

/-- A packet behind its length. -/
def frame (packet : Bytes) : Bytes := bigEndianBytes 4 packet.length ++ packet

/-- What taking a frame off the front of a buffer yields. -/
inductive Taken where
  /-- A whole frame and what is buffered behind it. -/
  | frame (packet rest : Bytes)
  /-- The buffer ends before the frame does. -/
  | incomplete
  /-- The length is impossible. -/
  | impossible (length : Nat)
  deriving DecidableEq

/-- Takes the frame at the front of a buffer. -/
def takeFrame : Bytes → Taken
  | b₃ :: b₂ :: b₁ :: b₀ :: rest =>
    let length := bigEndian [b₃, b₂, b₁, b₀]
    if maxFrameLength < length then .impossible length
    else if rest.length < length then .incomplete
    else .frame (rest.take length) (rest.drop length)
  | _ => .incomplete

/-- The stream ended within a frame. -/
def endedEarly : IoFailure := ⟨.unexpectedEnd, "failed to fill whole buffer"⟩

/-- Reads one frame off a stream that will not grow: the packet or a failure, and what is unread. -/
def readFrame (stream : Bytes) : Except IoFailure Bytes × Bytes :=
  match takeFrame stream with
  | .frame packet rest => (.ok packet, rest)
  | .incomplete => (.error endedEarly, [])
  | .impossible length =>
    (.error ⟨.invalidData, "frame of " ++ Text.ofNat length ++ " bytes exceeds " ++
      Text.ofNat maxFrameLength⟩, stream.drop 4)

end Rmap

end GroundStation
