/-
# Reassembling records

A device that sends on its own sends records, each closed by a terminator, and a link may cut the stream
anywhere.  The accumulator takes the bytes as they come and gives out every record that they complete;
the unfinished end of the stream is held for the next bytes.

At most `capacity` bytes are held.  A record that does not fit is given up: while `discarding`, only the
bytes that may be the start of its terminator are kept, and the next record is complete again.
-/
import GroundStation.Text.Blank
import GroundStation.Text.Utf8

namespace GroundStation

namespace Record

/-- How many bytes of an unfinished record are held. -/
def capacity : Nat := 4096

/-- The unfinished end of a stream of records. -/
structure Accumulator where
  terminator : Bytes
  /-- What is held, latest byte first. -/
  held : Bytes
  /-- Whether the record at the end of the stream has been given up. -/
  discarding : Bool
  deriving DecidableEq

namespace Accumulator

/-- Nothing received yet. -/
def start (terminator : Bytes) : Accumulator := ⟨terminator, [], false⟩

/-- The bytes held, in the order of the stream. -/
def pending (a : Accumulator) : Bytes := a.held.reverse

/-- Forgets what is held. -/
def clear (a : Accumulator) : Accumulator := ⟨a.terminator, [], false⟩

/-- Whether one more byte can be held. -/
def hasRoom (a : Accumulator) : Bool := a.held.length < capacity

/-- Gives up the record at the end of the stream. -/
def giveUp (a : Accumulator) : Accumulator :=
  ⟨a.terminator, a.held.take (a.terminator.length - 1), true⟩

/-- The text of a record that holds more than blanks. -/
def textOf? (bytes : Bytes) : Option Text :=
  let t := Text.trim (Utf8.decode bytes)
  if t.isEmpty then none else some t

/-- Holds one more byte, which may complete a record; `pes` is the terminator, last byte first. -/
def hold (pes : Bytes) (a : Accumulator) (b : UInt8) : Option Text × Accumulator :=
  let held := b :: a.held
  if !pes.isEmpty && pes.isPrefixOf held then
    (if a.discarding then none else textOf? (held.drop pes.length).reverse, a.clear)
  else (none, ⟨a.terminator, held, a.discarding⟩)

/-- Takes one byte.  Where there is no room, the record is given up first; a byte for which even this makes
no room is lost. -/
def step (pes : Bytes) (a : Accumulator) (b : UInt8) : Option Text × Accumulator :=
  if a.hasRoom then a.hold pes b
  else if a.giveUp.hasRoom then a.giveUp.hold pes b
  else (none, a.giveUp)

/-- Takes bytes one by one. -/
def pushFrom (pes : Bytes) (a : Accumulator) : Bytes → List Text × Accumulator
  | [] => ([], a)
  | b :: bs =>
    let (record, a) := step pes a b
    let (records, a) := pushFrom pes a bs
    (record.toList ++ records, a)

/-- Takes bytes and gives out the records that they complete. -/
def push (a : Accumulator) (bytes : Bytes) : List Text × Accumulator :=
  pushFrom a.terminator.reverse a bytes

end Accumulator

end Record

end GroundStation
