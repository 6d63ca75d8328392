/-
# Exchanges with a device

A command runs its steps in order and stops at the first that fails.  A failure that means the loss of
the link is told apart from all others, which concern this command only.

Reading a parameter parses the reply of its last query and remembers the value.  Writing one checks the
arguments before anything is sent; what is remembered is the parsed reply where the steps query, else the
single argument.
-/
import GroundStation.Instrument.Basic
import GroundStation.Template.Render

namespace GroundStation

/-- Why a command fails. -/
inductive Failure where
  | command (error : CommandError)
  /-- The link is gone. -/
  | lost (error : LinkError)
  deriving DecidableEq

namespace Failure

/-- The failure that a link reports. -/
def ofLink (e : LinkError) : Failure := if e.isLoss then lost e else command (.ofLink e)

/-- The answer to a command that failed so. -/
def answer : Failure → CommandError
  | command e => e
  | lost e => .ofLink e

end Failure

namespace Instrument

variable {δ : Type}

/-- Sends one rendered step; a query gives the reply. -/
def send (i : Instrument δ) (step : Step) (command : Text) (d : δ) :
    Except LinkError (Option Text) × δ :=
  match step with
  | .write _ =>
    match i.transport.write i.config command d with
    | (.ok (), d) => (.ok none, d)
    | (.error e, d) => (.error e, d)
  | .query _ =>
    match i.transport.query i.config command d with
    | (.ok reply, d) => (.ok (some reply), d)
    | (.error e, d) => (.error e, d)

/-- Runs steps in order; the outcome is the reply of the last query, or `last` where there is none. -/
def runSteps (i : Instrument δ) (id : Text) (args : List Text) :
    List Step → Option Text → δ → Except Failure (Option Text) × δ
  | [], last, d => (.ok last, d)
  | step :: rest, last, d =>
    match Template.render id step.template args with
    | .error e => (.error (.command e), d)
    | .ok command =>
      match i.send step command d with
      | (.error e, d) => (.error (.ofLink e), d)
      | (.ok reply, d) => runSteps i id args rest (reply <|> last) d

/-- Remembers a value of a parameter, where there is one. -/
def remember (i : Instrument δ) (p : Parameter) : Option Json → Instrument δ
  | none => i
  | some v => { i with memory := i.memory.store p.memoryKey v }

/-- Ends an exchange with the value of a reply. -/
def settle (i : Instrument δ) (p : Parameter) (d : δ) :
    Except CommandError (Option Json) → Except Failure (Option Json) × Instrument δ × δ
  | .ok value => (.ok value, i.remember p value, d)
  | .error e => (.error (.command e), i, d)

/-- Reads a parameter. -/
def read (i : Instrument δ) (p : Parameter) (args : List Text) (d : δ) :
    Except Failure (Option Json) × Instrument δ × δ :=
  match p.getter with
  | none => (.error (.command .notRecognized), i, d)
  | some steps =>
    if args.isEmpty then
      match i.runSteps p.name args steps none d with
      | (.error e, d) => (.error e, i, d)
      | (.ok reply, d) => i.settle p d (p.parseReply (reply.getD []))
    else (.error (.command (.wrongArgumentCount p.name 0 args.length)), i, d)

/-- The value that a write without a reply stands for: that of its single argument. -/
def writtenValue (typed : List (Option Json)) (args : List Text) : Option Json :=
  match typed, args with
  | [some value], _ => some value
  | [none], [arg] => some (.str arg)
  | _, _ => none

/-- Writes a parameter. -/
def write (i : Instrument δ) (p : Parameter) (args : List Text) (d : δ) :
    Except Failure (Option Json) × Instrument δ × δ :=
  match p.setter with
  | none => (.error (.command .notRecognized), i, d)
  | some setter =>
    match p.checkArgs setter args with
    | .error e => (.error (.command e), i, d)
    | .ok typed =>
      match i.runSteps p.name args setter.steps none d with
      | (.error e, d) => (.error e, i, d)
      | (.ok (some reply), d) => i.settle p d (p.parseReply reply)
      | (.ok none, d) => i.settle p d (.ok (writtenValue typed args))

end Instrument

end GroundStation
