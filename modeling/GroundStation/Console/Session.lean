/-
# Sessions of the console

A command line of the console names the station's address, a format for replies and one command.  Most
commands send a line and print the reply to it; `monitor` prints every line until the connection ends.
What the station sends is read in lines, and a line that is not UTF-8 ends the session in failure.
-/
import GroundStation.CommandLine
import GroundStation.Config.Model
import GroundStation.Console.Reply
import GroundStation.Json.Writer
import GroundStation.Number.Integer

namespace GroundStation

namespace Console

open CommandLine (OptionForm Form Outcome Stop Invocation)

/-! ## Commands -/

/-- How replies are printed. -/
inductive Format where
  | text
  | json
  | raw
  deriving DecidableEq, Repr

/-- The format of a name; letter case matters. -/
def Format.named? (name : Text) : Option Format :=
  if name = "text" then some .text
  else if name = "json" then some .json
  else if name = "raw" then some .raw
  else none

/-- What a session does. -/
inductive Task where
  /-- Sends a line and waits for its answer. -/
  | exchange (line : Text)
  /-- Prints every line. -/
  | monitor
  deriving DecidableEq, Repr

/-- A session of the console. -/
structure Session where
  host : Text
  port : Nat
  format : Format
  task : Task
  deriving DecidableEq

/-- The options of the console, which may also follow a command. -/
def options : List OptionForm :=
  [⟨"host", some 'h', .value, some ListenConfig.standard.host, false, fun _ => true⟩,
    ⟨"port", some 'p', .value, some (Text.ofNat ListenConfig.standard.port), false, fun _ => true⟩,
    ⟨"format", some 'f', .value, some "text".toList, false, fun v => (Format.named? v).isSome⟩,
    CommandLine.flag "help" none .help, CommandLine.flag "version" (some 'V') .version]

/-- The form of what follows a command. -/
def commandForm (name : Text) (arguments : List (Option Text)) (more : Bool) : Text × Form :=
  (name, ⟨"groundlink-" ++ name ++ " ", options, arguments, more, []⟩)

/-- The form of the console's command line. -/
def form : Form where
  version := "groundlink 0.1.0"
  options := options
  arguments := []
  more := false
  commands :=
    [commandForm "helo" [some "groundlink".toList] false,
      commandForm "tc" [none] true,
      commandForm "tm" [none] true,
      commandForm "tc-meta" [none] false,
      commandForm "tm-meta" [none] false,
      commandForm "connect" [none] false,
      commandForm "disconnect" [none] false,
      commandForm "monitor" [] false,
      commandForm CommandLine.helpCommand [] true]

/-- The task of a command with its arguments. -/
def task? (command : Text) (arguments : List Text) : Option Task :=
  let send (kind : RequestKind) : Option Task :=
    match arguments with
    | id :: more => some (.exchange (line kind id more))
    | [] => none
  let ask (action : Text) : Option Task :=
    arguments.head?.map fun provider => .exchange (line .set (qualify provider action) [])
  if command = "helo" then send .helo
  else if command = "tc" then send .set
  else if command = "tm" then send .get
  else if command = "tc-meta" then send .setMeta
  else if command = "tm-meta" then send .getMeta
  else if command = "connect" then ask "connect"
  else if command = "disconnect" then ask "disconnect"
  else if command = "monitor" then some .monitor
  else none

/-- The session that a parsed command line asks for. -/
def sessionOf? (i : Invocation) : Option Session := do
  let port ← Integer.unsigned? (2 ^ 16) 10 (← Keyed.get? "port" i.values)
  return ⟨← Keyed.get? "host" i.values, port, ← Format.named? (← Keyed.get? "format" i.values),
    ← task? (← i.command) i.arguments⟩

/-- The session that a command line asks for. -/
def session (parts : List Text) : Except Stop Session :=
  match CommandLine.read form parts with
  | .error stop => .error stop
  | .ok i =>
    match sessionOf? i with
    | some s => .ok s
    | none => .error .refused

/-! ## Printing -/

/-- A reply as a JSON object. -/
def Reply.toJson (r : Reply) : Json :=
  .obj [("ok", .bool r.ok), ("id", .str r.id), ("fields", .arr (r.fields.map .str))]

/-- A reply in words. -/
def Reply.text (r : Reply) : Text :=
  if r.ok then "✅ " ++ r.id ++ " " ++ Text.join " | " r.fields
  else "❌ " ++ r.id ++ " " ++ Text.join " " r.fields

/-- What is printed for a line. -/
def printed (format : Format) (line : Text) : Text :=
  let line := Text.trimEnd line
  match format, parseReply? line with
  | .raw, _ => line
  | _, none => "? " ++ line
  | .json, some r => r.toJson.write
  | .text, some r => r.text

/-! ## Reading what the station sends -/

/-- The lines of a byte string with their ends; the last may have none. -/
def byteLines (bytes : Bytes) : List Bytes :=
  let (whole, rest) := Split.segments [10] bytes
  whole.map (· ++ [10]) ++ (if rest.isEmpty then [] else [rest])

/-- The lines up to the first that is not UTF-8, and whether there is such a line. -/
def readable : List Bytes → List Text × Bool
  | [] => ([], false)
  | b :: bs =>
    match Utf8.strict? b with
    | none => ([], true)
    | some line =>
      let (lines, broken) := readable bs
      (line :: lines, broken)

/-- The outcome of sending a line, given all that the station sends. -/
def exchangeOutcome (format : Format) (line : Text) (sent : Bytes) : Outcome :=
  match firstAnswer? (expectedId line) (readable (byteLines sent)).1 with
  | some answer => ⟨[printed format answer], true⟩
  | none => ⟨[], false⟩

/-- What `monitor` prints first. -/
def monitorTitle (host : Text) (port : Nat) : Text :=
  "📺 Monitoring " ++ host ++ ":" ++ Text.ofNat port ++ " (Ctrl+C to stop)"

/-- The outcome of `monitor`, given all that the station sends. -/
def monitorOutcome (s : Session) (sent : Bytes) : Outcome :=
  let (lines, broken) := readable (byteLines sent)
  ⟨monitorTitle s.host s.port :: lines.map (printed s.format), !broken⟩

/-- The outcome of a session that reaches the station. -/
def Session.outcome (s : Session) (sent : Bytes) : Outcome :=
  match s.task with
  | .exchange line => exchangeOutcome s.format line sent
  | .monitor => monitorOutcome s sent

/-- What a session sends to the station. -/
def Session.request? (s : Session) : Option Bytes :=
  match s.task with
  | .exchange line => some (Utf8.encode (line ++ Wire.crlf))
  | .monitor => none

/-- The outcome of a session that does not reach the station. -/
def unreachable : Outcome := ⟨[], false⟩

end Console

end GroundStation
