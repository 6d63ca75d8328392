/-
# Reply lines

Each response becomes one line that begins with `> OK` or `> ERROR` and carries the qualified id.  The
answer to a `get` has the time of the answer, the value twice and two constants; the answers to
questions about a parameter tell its number of arguments or its return type, and its description.
-/
import GroundStation.Json.Writer
import GroundStation.Wire.Line

namespace GroundStation

namespace Wire

/-- The text of a value on the wire: strings as they are, nothing for `null`, else JSON text. -/
def valueText : Option Json → Text
  | none => []
  | some .null => []
  | some (.str t) => t
  | some v => v.write

/-- A member of the object that a response carries. -/
def metaField (r : Response) (key : Text) : Option Json := r.value.bind fun v => v.field? key

/-- The number of arguments in the signature that a response carries. -/
def metaArity (r : Response) : Nat :=
  match ((metaField r "signature").bind fun s => s.item? 0).bind Json.items? with
  | some items => items.length
  | none => 0

/-- The body of a reply line, given the text of the time. -/
def replyBody (r : Response) (time : Text) : Text :=
  match r.kind with
  | .helo => "> OK helo " ++ r.qualifiedId
  | .set => "> OK " ++ r.qualifiedId
  | .get =>
    let value := valueText r.value
    "> OK " ++ r.qualifiedId ++ ";" ++ time ++ ";" ++ value ++ ";" ++ value ++ ";0;1"
  | .setMeta =>
    "> OK " ++ r.qualifiedId ++ ";" ++ Text.ofNat (metaArity r) ++ ";" ++
      valueText (metaField r "description")
  | .getMeta =>
    let returns := valueText ((metaField r "signature").bind fun s => s.item? 1)
    "> OK " ++ r.qualifiedId ++ ";" ++ returns ++ ";" ++ returns ++ ";" ++
      valueText (metaField r "description") ++ ";7;4"
  | .error => "> ERROR " ++ r.qualifiedId ++ " " ++ valueText r.value

/-- The reply line of a response at a time in seconds. -/
def replyLine (r : Response) (time : Binary64) : Text := replyBody r time.thousandths ++ crlf

end Wire

end GroundStation
