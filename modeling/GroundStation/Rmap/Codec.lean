/-
# Building RMAP packets

An initiator encodes commands, each with the next transaction id; a target answers a decoded command.
The data of a command is given in hexadecimal.  A size of zero stands for the length of the data.

Transaction ids run from 1 to 65535 and then start at 1 again.  Encoding tells the outcome and the codec
that is left, also where a command is refused.
-/
import GroundStation.Error
import GroundStation.Rmap.Packet
import GroundStation.Text.Hex

namespace GroundStation

namespace Rmap

/-- Why a command cannot be encoded. -/
inductive RmapError where
  | invalidHex (text : Text)
  | lengthOutOfRange (length : Nat)
  deriving DecidableEq, Repr

namespace RmapError

/-- The wording of a cause. -/
def message : RmapError → Text
  | invalidHex text => "invalid hex data '" ++ text ++ "'"
  | lengthOutOfRange length => "data length " ++ Text.ofNat length ++ " does not fit in 24 bits"

/-- The same cause as a failure of the link. -/
def toLink (e : RmapError) : LinkError := .encoding e.message

end RmapError

/-- A text without `0x` or `0X` in front. -/
def hexBody (t : Text) : Text :=
  ((Text.after? "0x" t).orElse fun _ => Text.after? "0X" t).getD t

/-- Reads bytes in hexadecimal. -/
def readHex (t : Text) : Except RmapError Bytes :=
  match Hex.decode? (hexBody t) with
  | some bytes => .ok bytes
  | none => .error (.invalidHex t)

/-- A command to encode. -/
structure Command where
  write : Bool
  verify : Bool
  reply : Bool
  increment : Bool
  address : UInt32
  size : UInt32
  data : Text
  extendedAddress : UInt8
  deriving DecidableEq

namespace Command

/-- Reads `size` bytes. -/
def toRead (address size : UInt32) : Command :=
  ⟨false, false, true, true, address, size, [], 0⟩

/-- Writes bytes given in hexadecimal. -/
def toWrite (address : UInt32) (data : Text) (verify : Bool) : Command :=
  ⟨true, verify, true, true, address, 0, data, 0⟩

/-- The instruction byte of a command. -/
def instruction (c : Command) : UInt8 :=
  0x40 ||| (if c.write then 0x20 else 0) ||| (if c.verify then 0x10 else 0) |||
    (if c.reply then 0x08 else 0) ||| (if c.increment then 0x04 else 0)

/-- The length that a command announces, its data having been read. -/
def length (c : Command) (data : Bytes) : Nat := if c.size = 0 then data.length else c.size.toNat

end Command

/-- What an initiator needs to encode commands. -/
structure Codec where
  target : UInt8
  initiator : UInt8
  key : UInt8
  /-- The id of the next command. -/
  nextId : UInt16
  deriving DecidableEq

namespace Codec

/-- A codec that has encoded nothing. -/
def start (target initiator key : UInt8) : Codec := ⟨target, initiator, key, 1⟩

/-- The codec behind one more command. -/
def advance (c : Codec) : Codec :=
  { c with nextId := if c.nextId = 0xFFFF then 1 else c.nextId + 1 }

/-- The header of a command, without its checksum. -/
def header (c : Codec) (command : Command) (length : Nat) : Bytes :=
  [c.target, protocolId, command.instruction, c.key, c.initiator] ++
    bigEndianBytes 2 c.nextId.toNat ++ [command.extendedAddress] ++
    bigEndianBytes 4 command.address.toNat ++ bigEndianBytes 3 length

/-- Data with its checksum behind it, nothing where there is no data. -/
def sealed (data : Bytes) : Bytes := if data.isEmpty then [] else data ++ [crc8 data]

/-- Encodes a command: the outcome, and the codec behind it. -/
def encode (c : Codec) (command : Command) : Except RmapError Bytes × Codec :=
  match readHex command.data with
  | .error error => (.error error, c)
  | .ok data =>
    let length := command.length data
    if maxDataLength < length then (.error (.lengthOutOfRange length), c)
    else
      let header := c.header command length
      (.ok (header ++ [crc8 header] ++ sealed data), c.advance)

end Codec

/-- The reply of a target to a decoded command.  Data answers a command that reads, up to the largest
length; there is no reply to a reply. -/
def encodeReply (command : Packet) (status : UInt8) (data : Bytes) : Option Bytes :=
  let front := [command.initiator, protocolId, command.instruction &&& 0x3F, status, command.target] ++
    bigEndianBytes 2 command.transactionId.toNat
  match command.kind with
  | .commandWrite => some (front ++ [crc8 front])
  | .commandRead =>
    if maxDataLength < data.length then none
    else
      let header := front ++ [0] ++ bigEndianBytes 3 data.length
      some (header ++ [crc8 header] ++ data ++ [crc8 data])
  | .replyRead => none
  | .replyWrite => none

end Rmap

end GroundStation
