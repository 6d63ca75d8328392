/-
# RMAP packets

A packet is a command or a reply, and either reads or writes; the instruction byte tells which.

    command   target, 1, instruction, key, initiator, id, extended address, address, length, check
    reply     initiator, 1, instruction, status, target, id, …, check

Numbers of several bytes have the high byte first.  A command that writes and a reply that reads carry
data behind the header, with a checksum of its own.

Decoding reports what is there.  Only a packet too short for the shortest header, or of an unknown type,
is not decoded; wrong checksums and lengths are recorded in the packet, and make it invalid.
-/
import GroundStation.Rmap.Crc

namespace GroundStation

namespace Rmap

/-- The protocol identifier of RMAP. -/
def protocolId : UInt8 := 1

/-- The largest length of data: 24 bits. -/
def maxDataLength : Nat := 0xFFFFFF

/-- The four shapes of packets. -/
inductive PacketKind where
  | commandRead
  | commandWrite
  | replyRead
  | replyWrite
  deriving DecidableEq, Repr

/-- A decoded packet.  What a shape does not carry is absent. -/
structure Packet where
  kind : PacketKind
  target : UInt8
  initiator : UInt8
  protocol : UInt8
  instruction : UInt8
  key : Option UInt8
  status : Option UInt8
  transactionId : UInt16
  extendedAddress : Option UInt8
  address : Option UInt32
  dataLength : Option Nat
  data : Bytes
  headerCrc : UInt8
  dataCrc : Option UInt8
  headerCrcValid : Bool
  dataCrcValid : Bool
  lengthValid : Bool
  deriving DecidableEq

/-- The number of bytes written high byte first. -/
def bigEndian (bytes : Bytes) : Nat := bytes.foldl (fun n b => n * 256 + b.toNat) 0

/-- The `width` low bytes of a number, high byte first. -/
def bigEndianBytes : Nat → Nat → Bytes
  | 0, _ => []
  | width + 1, n => (n / 256 ^ width).toUInt8 :: bigEndianBytes width n

namespace Instruction

/-- The bits that tell a command from a reply. -/
def typeBits (instruction : UInt8) : UInt8 := instruction >>> 6

/-- Whether the packet writes. -/
def write (instruction : UInt8) : Bool := instruction &&& 0x20 != 0

/-- Whether data is verified before it is written. -/
def verify (instruction : UInt8) : Bool := instruction &&& 0x10 != 0

/-- Whether a reply is asked for. -/
def reply (instruction : UInt8) : Bool := instruction &&& 0x08 != 0

/-- Whether the address advances with the data. -/
def increment (instruction : UInt8) : Bool := instruction &&& 0x04 != 0

end Instruction

/-- Data, its checksum if there is one, and whether the two agree.  The checksum is the last byte. -/
def splitData (rest : Bytes) : Bytes × Option UInt8 × Bool :=
  match rest.getLast? with
  | none => ([], none, true)
  | some crc => (rest.dropLast, some crc, crc8 rest.dropLast == crc)

namespace Packet

/-- Whether nothing is wrong with a packet. -/
def valid (p : Packet) : Bool :=
  p.protocol == protocolId && p.headerCrcValid && p.dataCrcValid && p.lengthValid

/-- A command, from the bytes of its first eight fields and the rest. -/
def ofCommand (target protocol instruction key initiator idHigh idLow extended : UInt8)
    (rest : Bytes) : Packet :=
  let write := Instruction.write instruction
  let bare : Packet :=
    { kind := if write then .commandWrite else .commandRead
      target, initiator, protocol, instruction
      key := some key
      status := none
      transactionId := (bigEndian [idHigh, idLow]).toUInt16
      extendedAddress := some extended
      address := none
      dataLength := none
      data := []
      headerCrc := 0
      dataCrc := none
      headerCrcValid := false
      dataCrcValid := true
      lengthValid := false }
  match rest with
  | a₃ :: a₂ :: a₁ :: a₀ :: rest =>
    let addressed := { bare with address := some (bigEndian [a₃, a₂, a₁, a₀]).toUInt32 }
    match rest with
    | l₂ :: l₁ :: l₀ :: rest =>
      let length := bigEndian [l₂, l₁, l₀]
      let measured := { addressed with dataLength := some length }
      match rest with
      | crc :: payload =>
        let header := [target, protocol, instruction, key, initiator, idHigh, idLow, extended,
          a₃, a₂, a₁, a₀, l₂, l₁, l₀]
        let headed := { measured with headerCrc := crc, headerCrcValid := crc8 header == crc }
        if write then
          let (data, dataCrc, dataCrcValid) := splitData payload
          { headed with data, dataCrc, dataCrcValid, lengthValid := data.length == length }
        else { headed with lengthValid := payload.isEmpty }
      | [] => measured
    | _ => addressed
  | _ => bare

/-- A reply, from the bytes of its first eight fields and the rest. -/
def ofReply (initiator protocol instruction status target idHigh idLow eighth : UInt8)
    (rest : Bytes) : Packet :=
  let bare : Packet :=
    { kind := .replyRead
      target, initiator, protocol, instruction
      key := none
      status := some status
      transactionId := (bigEndian [idHigh, idLow]).toUInt16
      extendedAddress := none
      address := none
      dataLength := none
      data := []
      headerCrc := 0
      dataCrc := none
      headerCrcValid := false
      dataCrcValid := true
      lengthValid := false }
  let front := [initiator, protocol, instruction, status, target, idHigh, idLow]
  if Instruction.write instruction then
    { bare with
      kind := .replyWrite
      headerCrc := eighth
      headerCrcValid := crc8 front == eighth
      lengthValid := rest.isEmpty }
  else
    match rest with
    | l₂ :: l₁ :: l₀ :: rest =>
      let length := bigEndian [l₂, l₁, l₀]
      let measured := { bare with dataLength := some length }
      match rest with
      | crc :: payload =>
        let (data, dataCrc, dataCrcValid) := splitData payload
        { measured with
          headerCrc := crc
          headerCrcValid := crc8 (front ++ [eighth, l₂, l₁, l₀]) == crc
          data, dataCrc, dataCrcValid
          lengthValid := data.length == length }
      | [] => measured
    | _ => bare

/-- Decodes a packet. -/
def decode : Bytes → Option Packet
  | b₀ :: b₁ :: b₂ :: b₃ :: b₄ :: b₅ :: b₆ :: b₇ :: rest =>
    if Instruction.typeBits b₂ = 1 then some (ofCommand b₀ b₁ b₂ b₃ b₄ b₅ b₆ b₇ rest)
    else if Instruction.typeBits b₂ = 0 then some (ofReply b₀ b₁ b₂ b₃ b₄ b₅ b₆ b₇ rest)
    else none
  | _ => none

end Packet

end Rmap

end GroundStation
