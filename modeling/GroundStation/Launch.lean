/-
# Launching a station

The launcher reads the configuration of a station, puts its instruments into service and serves operators
until it is interrupted.  The address in the configuration may be overridden on the command line.
-/
import GroundStation.CommandLine
import GroundStation.Error
import GroundStation.Number.Integer
import GroundStation.Station.Server

namespace GroundStation

namespace Launch

open CommandLine (OptionForm Form Outcome Stop Invocation)

/-! ## The command line -/

/-- What is launched, and on which address. -/
structure Order where
  config : Text
  host : Option Text
  port : Option Nat
  deriving DecidableEq

/-- The number of a port. -/
def port? (t : Text) : Option Nat := Integer.unsigned? (2 ^ 16) 10 t

/-- The form of the launcher's command line. -/
def form : Form where
  version := "groundlink-server 0.1.0"
  options :=
    [⟨"config", some 'c', .value, none, true, fun _ => true⟩,
      ⟨"host", some 'h', .value, none, false, fun _ => true⟩,
      ⟨"port", some 'p', .value, none, false, fun v => (port? v).isSome⟩,
      CommandLine.flag "verbose" (some 'v') .flag,
      CommandLine.flag "help" none .help,
      CommandLine.flag "version" (some 'V') .version]
  arguments := []
  more := false
  commands := []

/-- What a command line orders. -/
def order (parts : List Text) : Except Stop Order :=
  match CommandLine.read form parts with
  | .error stop => .error stop
  | .ok i =>
    match Keyed.get? "config" i.values with
    | none => .error .refused
    | some config => .ok ⟨config, Keyed.get? "host" i.values, (Keyed.get? "port" i.values).bind port?⟩

/-- The configuration with the address of the order. -/
def Order.override (o : Order) (c : StationConfig) : StationConfig :=
  { c with server := ⟨o.host.getD c.server.host, o.port.getD c.server.port⟩ }

/-! ## Running -/

/-- What is printed first. -/
def banner : List Text := ["📡 Ground Station TMTC Server", "============================="]

/-- What is printed last. -/
def farewell : Text := "📡 Ground station stopped"

variable {δ : Type}

/-- The line for each instrument in service. -/
def roll (s : Station δ) : List Text :=
  s.status.instruments.map fun (provider, transport, _) =>
    "   " ++ provider ++ " (" ++ transport ++ "): ✓"

/-- The station of a configuration. -/
def assemble (s : Station δ) (c : StationConfig) : Except StationError (Station δ) :=
  match s.start.addInstruments c.instruments with
  | (.ok (), s) => .ok s
  | (.error e, _) => .error e

/-- Ends service after an interruption. -/
def interrupted (s : Station δ) : Except StationError Unit × Station δ :=
  ((s.publish .quit .quit).2).shutdown

/-- The outcome of launching a station that is interrupted once it serves: `load` reads the configuration
at a path, and `binds` tells whether an address can be listened on. -/
def outcome (bare : Station δ) (load : Text → Except StationError StationConfig) (binds : Text → Bool)
    (parts : List Text) : Outcome :=
  match order parts with
  | .error stop => stop.outcome
  | .ok o =>
    match load o.config with
    | .error _ => ⟨[], false⟩
    | .ok c =>
      let c := o.override c
      match assemble bare c with
      | .error _ => ⟨banner, false⟩
      | .ok s =>
        if binds c.server.address then
          match (interrupted s.openServer).1 with
          | .ok () => ⟨banner ++ roll s ++ [farewell], true⟩
          | .error _ => ⟨banner ++ roll s, false⟩
        else ⟨banner ++ roll s, false⟩

end Launch

end GroundStation
