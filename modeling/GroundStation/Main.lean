/-
# The program

One program with two sides, each on the standard streams:

    launch   --config FILE …   puts a station into service for one operator: input is what the operator
                               sends, output is what the operator gets
    console  COMMAND …         a session of the console: input is what the station sends, and what the
                               console sends goes to the error stream

All decisions are the library's; here is only input and output.
-/
import GroundStation.Config.FromYaml
import GroundStation.Console.Session
import GroundStation.Launch
import GroundStation.Link.Standard
import Std.Time.DateTime.Timestamp

namespace GroundStation

namespace Main

open CommandLine (Outcome)

/-- Prints lines. -/
def printLines (lines : List Text) : IO Unit := lines.forM fun l => IO.println (String.ofList l)

/-- Prints an outcome and gives the exit code for it. -/
def finish (o : Outcome) : IO UInt32 := do
  printLines o.lines
  return if o.success then 0 else 1

/-- Tells what failed, and gives the exit code for it. -/
def fail (message : Text) : IO UInt32 := do
  IO.eprintln (String.ofList message)
  return 1

/-- The time in seconds. -/
def now : IO Binary64 := do
  let t ← Std.Time.Timestamp.now
  return .nearest false t.toNanosecondsSinceUnixEpoch.val.toNat (10 ^ 9)

/-- The configuration in a file. -/
def load (path : Text) : IO (Except StationError StationConfig) := do
  try
    return StationConfig.ofBytes (← IO.FS.readBinFile (String.ofList path)).toList
  catch e =>
    return .error (.io ⟨.uncategorized, (toString e).toList⟩)

/-- Lets the operator send until the input ends, and prints what the station sends. -/
partial def serve (input : IO.FS.Stream) (s : Station Unit) : IO (Station Unit) := do
  let bytes ← input.read 4096
  if bytes.isEmpty then return s
  let s := { s with now := ← now }.takeInput 0 bytes.toList
  for c in s.server.clients do
    for line in c.sent.reverse do IO.print (String.ofList line)
  (← IO.getStdout).flush
  let clients := s.server.clients.map fun c => { c with sent := [] }
  serve input { s with server := { s.server with clients } }

/-- Serves one operator with a station, and ends service. -/
def operate (s : Station Unit) : IO UInt32 := do
  let s ← serve (← IO.getStdin) (s.openServer.acceptClient "operator")
  match (Launch.interrupted s).1 with
  | .ok () => finish ⟨[Launch.farewell], true⟩
  | .error e => fail e.message

/-- Launches a station. -/
def launch (args : List Text) : IO UInt32 := do
  match Launch.order args with
  | .error stop => finish stop.outcome
  | .ok order =>
    match ← load order.config with
    | .error e => fail e.message
    | .ok c =>
      printLines Launch.banner
      match Launch.assemble (.bare Standard.registry () (← now)) (order.override c) with
      | .error e => fail e.message
      | .ok s =>
        printLines (Launch.roll s)
        operate s

/-- Reads a stream to its end. -/
partial def readAll (input : IO.FS.Stream) (read : ByteArray) : IO ByteArray := do
  let bytes ← input.read 4096
  if bytes.isEmpty then return read else readAll input (read ++ bytes)

/-- A session of the console. -/
def console (args : List Text) : IO UInt32 := do
  match Console.session args with
  | .error stop => finish stop.outcome
  | .ok s =>
    for request in s.request? do
      (← IO.getStderr).write ⟨request.toArray⟩
    finish (s.outcome (← readAll (← IO.getStdin) .empty).toList)

end Main

end GroundStation

/-- Runs the side of the program that the first argument names. -/
def main (args : List String) : IO UInt32 :=
  match args.map String.toList with
  | side :: rest =>
    if side = "launch".toList then GroundStation.Main.launch rest
    else if side = "console".toList then GroundStation.Main.console rest
    else GroundStation.Main.fail "expected launch or console".toList
  | [] => GroundStation.Main.fail "expected launch or console".toList
