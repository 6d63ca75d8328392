/-
# Configurations out of documents

A configuration is read from a document of some kind.  A `Source` tells how values of such documents are
taken; the decoders below are written once for all of them.  They agree on the rest: unknown members are
ignored, a missing member takes its standard value, and an optional member may be missing or absent.
-/
import GroundStation.Config.Model

namespace GroundStation

/-- How the values of a kind of document are taken. -/
structure Source (ν : Type) where
  text? : ν → Option Text
  /-- The name of a choice that carries nothing. -/
  variant? : ν → Option Text
  natural? : ν → Option Nat
  truth? : ν → Option Bool
  items? : ν → Option (List ν)
  /-- The members of a record whose fields have the given names, in order. -/
  fields? : List Text → ν → Option (List (Text × ν))
  /-- The members of a map. -/
  members? : ν → Option (List (Text × ν))
  /-- Whether a value stands for a missing one where that is allowed. -/
  absent : ν → Bool
  json? : ν → Option Json

namespace Config

variable {ν α : Type} (S : Source ν)

/-! ## Members -/

/-- A member that must be there. -/
def required (read : ν → Option α) (key : Text) (ms : List (Text × ν)) : Option α :=
  (Keyed.get? key ms).bind read

/-- A member with a standard value. -/
def standing (read : ν → Option α) (standard : α) (key : Text) (ms : List (Text × ν)) : Option α :=
  match Keyed.get? key ms with
  | none => some standard
  | some v => read v

/-- An optional member. -/
def optional (read : ν → Option α) (key : Text) (ms : List (Text × ν)) : Option (Option α) :=
  match Keyed.get? key ms with
  | none => some none
  | some v => if S.absent v then some none else (read v).map some

/-- A list of values. -/
def listOf (read : ν → Option α) (v : ν) : Option (List α) := (S.items? v).bind fun vs => vs.mapM read

/-- Values under texts. -/
def mapOf (read : ν → Option α) (v : ν) : Option (Keyed α) := do
  let ms ← S.members? v
  let pairs ← ms.mapM fun (k, v) => (read v).map fun a => (k, a)
  return Keyed.ofPairs pairs

/-- A natural number below a bound. -/
def naturalBelow (bound : Nat) (v : ν) : Option Nat := (S.natural? v).filter (· < bound)

/-- A byte. -/
def byte (v : ν) : Option UInt8 := (naturalBelow S 256 v).map Nat.toUInt8

/-! ## Parameters -/

/-- One step of a command. -/
def stepDeclaration (v : ν) : Option StepDeclaration := do
  let ms ← S.fields? ["write", "query"] v
  return ⟨← optional S S.text? "write" ms, ← optional S S.text? "query" ms⟩

/-- How a parameter is read or written. -/
def accessorDeclaration (v : ν) : Option AccessorDeclaration := do
  let ms ← S.fields? ["signature", "instrument_command"] v
  return ⟨← optional S S.json? "signature" ms,
    ← standing (listOf S (stepDeclaration S)) [] "instrument_command" ms⟩

/-- A parameter. -/
def parameterDeclaration (v : ν) : Option ParameterDeclaration := do
  let ms ← S.fields? ["description", "type", "default", "memory", "get", "set"] v
  return {
    description := ← standing S.text? [] "description" ms
    valueType := ← optional S S.text? "type" ms
    default := ← optional S S.json? "default" ms
    memory := ← optional S S.text? "memory" ms
    get := ← optional S (accessorDeclaration S) "get" ms
    set := ← optional S (accessorDeclaration S) "set" ms }

/-! ## Instruments -/

/-- The encoding of a name; letter case matters. -/
def encodingNamed? (name : Text) : Option Encoding :=
  if name = "ascii" then some .ascii
  else if name = "utf8" then some .utf8
  else if name = "latin1" then some .latin1
  else none

/-- The cyclic mode of a name; letter case matters. -/
def modeNamed? (name : Text) : Option CyclicMode :=
  if name = "poll" then some .poll else if name = "stream" then some .stream else none

/-- Settings of the RMAP transport. -/
def rmapSettings (v : ν) : Option RmapSettings := do
  let ms ← S.fields? ["target_address", "initiator_address", "key", "verify"] v
  let standard := RmapSettings.standard
  return ⟨← standing (byte S) standard.target "target_address" ms,
    ← standing (byte S) standard.initiator "initiator_address" ms,
    ← standing (byte S) standard.key "key" ms,
    ← standing S.truth? standard.verify "verify" ms⟩

/-- Cyclic acquisition. -/
def cyclicConfig (v : ν) : Option CyclicConfig := do
  let ms ← S.fields? ["mode", "interval_ms", "parameters"] v
  return ⟨← standing (fun v => (S.variant? v).bind modeNamed?) .poll "mode" ms,
    ← standing (naturalBelow S (2 ^ 64)) 1000 "interval_ms" ms,
    ← standing (listOf S S.text?) [] "parameters" ms⟩

/-- An instrument. -/
def instrumentConfig (v : ν) : Option InstrumentConfig := do
  let ms ← S.fields? ["provider", "transport", "address", "port", "encoding", "write_termination",
    "read_termination", "timeout_ms", "simulation", "script", "rmap", "cyclic", "parameters"] v
  return {
    provider := ← required S.text? "provider" ms
    transport := ← standing S.text? "tcp" "transport" ms
    address := ← optional S S.text? "address" ms
    port := ← optional S (naturalBelow S (2 ^ 16)) "port" ms
    encoding := ← standing (fun v => (S.variant? v).bind encodingNamed?) .ascii "encoding" ms
    writeTermination := ← standing S.text? "\n" "write_termination" ms
    readTermination := ← standing S.text? "\n" "read_termination" ms
    timeoutMs := ← standing (naturalBelow S (2 ^ 64)) 1000 "timeout_ms" ms
    simulation := ← optional S S.text? "simulation" ms
    script := ← optional S S.text? "script" ms
    rmap := ← standing (rmapSettings S) .standard "rmap" ms
    cyclic := ← optional S (cyclicConfig S) "cyclic" ms
    parameters := ← standing (mapOf S (parameterDeclaration S)) [] "parameters" ms }

/-! ## Stations -/

/-- Where the station listens. -/
def listenConfig (v : ν) : Option ListenConfig := do
  let ms ← S.fields? ["host", "port"] v
  return ⟨← standing S.text? ListenConfig.standard.host "host" ms,
    ← standing (naturalBelow S (2 ^ 16)) ListenConfig.standard.port "port" ms⟩

/-- A station. -/
def stationConfig (v : ν) : Option StationConfig := do
  let ms ← S.fields? ["server", "instruments"] v
  return ⟨← standing (listenConfig S) .standard "server" ms,
    ← standing (listOf S (instrumentConfig S)) [] "instruments" ms⟩

end Config

end GroundStation
