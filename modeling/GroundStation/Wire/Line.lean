/-
# Operators' lines

An operator sends lines that end with CR LF.  A line holds a keyword, a parameter id and arguments; the
keyword fixes what is asked for.  A line with one token, or with an unknown keyword, becomes an error
answer at once.  Blank lines are ignored, and so is what stands behind the last CR LF of a buffer.
-/
import GroundStation.Message
import GroundStation.Text.Split
import GroundStation.Wire.Token

namespace GroundStation

namespace Wire

/-- What ends a line on the wire. -/
def crlf : Text := ['\r', '\n']

/-- What comes of a line that is not blank. -/
inductive ParsedLine where
  | request (request : Request)
  /-- The line is no request; the answer is ready. -/
  | rejected (response : Response)
  deriving DecidableEq

/-- The keyword of a kind of request. -/
def keyword : RequestKind → Text
  | .helo => "helo"
  | .set => "tc"
  | .get => "tm"
  | .setMeta => "tc_meta"
  | .getMeta => "tm_meta"

/-- What a keyword asks for. -/
def keyword? (word : Text) : Option RequestKind :=
  if word = "helo" then some .helo
  else if word = "tc" then some .set
  else if word = "tm" then some .get
  else if word = "tc_meta" then some .setMeta
  else if word = "tm_meta" then some .getMeta
  else none

/-- Reads the tokens of a line. -/
def ofTokens? : List Text → Option ParsedLine
  | [] => none
  | [word] => some (.rejected (.rejection word .malformed))
  | word :: id :: args =>
    match keyword? word with
    | some kind => some (.request ⟨none, id, kind, args⟩)
    | none => some (.rejected (.rejection id .notRecognizedType))

/-- Reads a line without its end. -/
def parseLine? (line : Text) : Option ParsedLine := ofTokens? (tokenize (Text.trim line))

/-- Reads every complete line of a text. -/
def parseText (text : Text) : List ParsedLine :=
  (Split.segments crlf text).1.filterMap parseLine?

/-- Reads every complete line of a buffer. -/
def parseBuffer (buffer : Bytes) : List ParsedLine := parseText (Utf8.decode buffer)

/-! ## Small lemmas -/

@[simp] theorem keyword?_keyword (kind : RequestKind) : keyword? (keyword kind) = some kind := by
  cases kind <;> decide

end Wire

end GroundStation
