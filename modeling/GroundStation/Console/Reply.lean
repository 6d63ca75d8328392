/-
# Replies on the console

The console sends one line and reads lines until one answers it.  A line answers if it carries the id that
was sent; other telemetry shares the connection and is passed over.
-/
import GroundStation.Wire.Line

namespace GroundStation

namespace Console

/-! ## Sending -/

/-- An argument as it is sent: in quotes if it is empty or has blanks. -/
def quote (argument : Text) : Text :=
  if argument.isEmpty ∨ argument.any Text.isBlank then '"' :: argument ++ ['"'] else argument

/-- The line of a request. -/
def line (kind : RequestKind) (id : Text) (arguments : List Text) : Text :=
  Text.join [' '] (Wire.keyword kind :: id :: arguments.map quote)

/-- The id that the answer to a line carries: the word behind the keyword, or the keyword alone. -/
def expectedId (line : Text) : Text :=
  match Text.words line with
  | [] => []
  | [word] => word
  | _ :: id :: _ => id

/-! ## Receiving -/

/-- A reply line. -/
structure Reply where
  ok : Bool
  id : Text
  fields : List Text
  deriving DecidableEq, Repr

/-- The reply in the body of an `OK` line. -/
def okReply (body : Text) : Reply :=
  match Split.splitOn ';' ((Text.after? "helo " body).getD body) with
  | [] => ⟨true, [], []⟩
  | id :: fields => ⟨true, id, fields⟩

/-- The reply in the body of an `ERROR` line. -/
def errorReply (body : Text) : Reply :=
  match Split.cutOnce? ' ' body with
  | some (id, message) => ⟨false, id, [message]⟩
  | none => ⟨false, body, [[]]⟩

/-- Reads a line as a reply. -/
def parseReply? (line : Text) : Option Reply :=
  (Text.after? "> " (Text.trimEnd line)).bind fun body =>
    match Text.after? "OK " body with
    | some rest => some (okReply rest)
    | none => (Text.after? "ERROR " body).map errorReply

/-- Whether a line answers for an id. -/
def answers (line id : Text) : Bool := (parseReply? line).any fun r => decide (r.id = id)

/-- The first of some lines that answers for an id. -/
def firstAnswer? (id : Text) (lines : List Text) : Option Text := lines.find? fun l => answers l id

end Console

end GroundStation
