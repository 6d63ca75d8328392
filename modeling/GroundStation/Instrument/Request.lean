/-
# Requests to an instrument

An instrument answers the requests that name its provider and ignores all others.  Two of them open and
close its link; the rest need it open.

* A link that opens runs the declared opening steps, and counts as unreachable if they fail.
* A link that closes runs the declared closing steps, and is closed whether they fail or not.
* A command that finds the link gone leaves the instrument disconnected.
-/
import GroundStation.Instrument.Exchange

namespace GroundStation

namespace Instrument

variable {δ : Type}

/-- The setter declared under a name. -/
def setter? (i : Instrument δ) (name : Text) : Option (Parameter × Setter) :=
  (i.parameter? name).bind fun p => p.setter.map fun w => (p, w)

/-- An instrument whose link is closed or was never open. -/
def withoutLink (i : Instrument δ) (state : ConnectionState) : Instrument δ :=
  { i with state, held := false, worker := none }

/-- Gives up a link that is lost. -/
def degrade (i : Instrument δ) (d : δ) : Instrument δ × δ :=
  (i.withoutLink .disconnected, if i.held then i.transport.close i.config d else d)

/-! ## Opening and closing -/

/-- What is wrong with the arguments of a request to open the link. -/
def connectFault? (i : Instrument δ) (args : List Text) : Option CommandError :=
  match i.setter? connectName with
  | some (p, w) =>
    match p.checkArgs w args with
    | .ok _ => none
    | .error e => some e
  | none => if args.isEmpty then none else some (.wrongArgumentCount connectName 0 args.length)

/-- Runs the steps declared for opening or closing the link, if there are any. -/
def lifecycleSteps (i : Instrument δ) (name : Text) (args : List Text) (d : δ) :
    Except Failure (Option Text) × δ :=
  match i.setter? name with
  | some (_, w) => i.runSteps name args w.steps none d
  | none => (.ok none, d)

/-- What cyclic acquisition starts from, where it is configured. -/
def newWorker (i : Instrument δ) : Option Record.Accumulator :=
  i.config.cyclic.map fun _ => .start (Utf8.encode i.config.readTermination)

/-- Opens the link. -/
def connect (i : Instrument δ) (args : List Text) (d : δ) :
    Except CommandError (Option Json) × Instrument δ × δ :=
  match i.connectFault? args with
  | some e => (.error e, i, d)
  | none =>
    if i.state = .connected then (.ok none, i, d)
    else
      let i := { i with state := .connecting }
      match i.transport.connect i.config d with
      | (.error _, d) => (.error .unreachable, i.withoutLink .unreachable, d)
      | (.ok (), d) =>
        match i.lifecycleSteps connectName args d with
        | (.error _, d) => (.error .unreachable, i.withoutLink .unreachable, i.transport.close i.config d)
        | (.ok _, d) => (.ok none, { i with state := .connected, held := true, worker := i.newWorker }, d)

/-- Runs the steps declared for closing the link, provided that the arguments suit them. -/
def closingSteps (i : Instrument δ) (args : List Text) (d : δ) : δ :=
  match i.setter? disconnectName with
  | some (p, w) =>
    match p.checkArgs w args with
    | .ok _ => (i.runSteps disconnectName args w.steps none d).2
    | .error _ => d
  | none => d

/-- Closes the link. -/
def disconnect (i : Instrument δ) (args : List Text) (d : δ) : Instrument δ × δ :=
  if i.state = .connected then
    let d := if i.held then i.transport.close i.config (i.closingSteps args d) else d
    (i.withoutLink .disconnected, d)
  else (i, d)

/-- Takes an instrument out of service. -/
def shutdown (i : Instrument δ) (d : δ) : Instrument δ × δ := i.disconnect [] d

/-! ## Commands -/

/-- Reads or writes the parameter that a request names. -/
def command (i : Instrument δ) (r : Request) (d : δ) :
    Except CommandError (Option Json) × Instrument δ × δ :=
  match i.parameter? r.id with
  | none => (.error .notRecognized, i, d)
  | some p =>
    if i.state = .connected ∧ i.held then
      match (if r.kind = .get then i.read p r.args d else i.write p r.args d) with
      | (.ok value, i, d) => (.ok value, i, d)
      | (.error (.command e), i, d) => (.error e, i, d)
      | (.error (.lost e), i, d) =>
        let (i, d) := i.degrade d
        (.error (.ofLink e), i, d)
    else (.error .notConnected, i, d)

/-- Does what a request asks for. -/
def perform (i : Instrument δ) (r : Request) (d : δ) :
    Except CommandError (Option Json) × Instrument δ × δ :=
  match r.kind with
  | .set =>
    if r.id = connectName then i.connect r.args d
    else if r.id = disconnectName then
      let (i, d) := i.disconnect r.args d
      (.ok none, i, d)
    else i.command r d
  | .get => i.command r d
  | _ => (.error .notRecognizedType, i, d)

/-- The response to a request with an outcome. -/
def respond (r : Request) : Except CommandError (Option Json) → Response
  | .ok value => ⟨r.provider, r.id, r.kind.answer, value⟩
  | .error e => .errorFor r e

/-- Answers a request if it names this instrument. -/
def execute (i : Instrument δ) (r : Request) (d : δ) : Option Response × Instrument δ × δ :=
  if r.provider = some i.provider then
    let (outcome, i, d) := i.perform r d
    (some (respond r outcome), i, d)
  else (none, i, d)

end Instrument

end GroundStation
