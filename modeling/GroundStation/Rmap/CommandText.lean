/-
# Commands in words

A step of an instrument drives RMAP by a text:

    read  address size [extended address]
    write address data [extended address]

Words are separated by blanks, the keyword has any letter case, numbers are decimal or hexadecimal behind
`0x`, and data is hexadecimal.
-/
import GroundStation.Rmap.Codec
import GroundStation.Number.Integer
import GroundStation.Text.Blank

namespace GroundStation

namespace Rmap

/-- A number of 32 bits. -/
def number (word : Text) : Except LinkError UInt32 :=
  let value := match (Text.after? "0x" word).orElse fun _ => Text.after? "0X" word with
    | some digits => Integer.unsigned? (2 ^ 32) 16 digits
    | none => Integer.unsigned? (2 ^ 32) 10 word
  match value with
  | some n => .ok n.toUInt32
  | none => .error (.invalidCommand ("'" ++ word ++ "' is not a number"))

/-- The command of a keyword, an address and an operand. -/
def ofKeyword (text keyword : Text) (address : UInt32) (operand : Text) (verify : Bool) :
    Except LinkError Command :=
  let keyword := Text.lower keyword
  if keyword = "read" then
    match number operand with
    | .ok size => .ok (.toRead address size)
    | .error error => .error error
  else if keyword = "write" then .ok (.toWrite address operand verify)
  else .error (.invalidCommand text)

/-- Gives a command its extended address. -/
def extend (text : Text) (command : Command) : Option Text → Except LinkError Command
  | none => .ok command
  | some word =>
    match number word with
    | .error error => .error error
    | .ok n =>
      if n.toNat < 256 then .ok { command with extendedAddress := n.toUInt8 }
      else .error (.invalidCommand text)

/-- Reads a keyword, an address, an operand and perhaps an extended address. -/
def ofWords (text keyword address operand : Text) (extended : Option Text) (verify : Bool) :
    Except LinkError Command := do
  let address ← number address
  let command ← ofKeyword text keyword address operand verify
  extend text command extended

/-- Reads a command; `verify` is given to writes. -/
def readCommand (text : Text) (verify : Bool) : Except LinkError Command :=
  match Text.words text with
  | [keyword, address, operand] => ofWords text keyword address operand none verify
  | [keyword, address, operand, extended] =>
    ofWords text keyword address operand (some extended) verify
  | _ => .error (.invalidCommand text)

end Rmap

end GroundStation
