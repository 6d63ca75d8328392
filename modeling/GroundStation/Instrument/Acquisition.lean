/-
# Cyclic acquisition

While its link is open, an instrument may acquire values that nobody asked for.  A round either polls the
listed parameters in turn, or takes what the device has sent and reads the fields of the records that are
complete.  Each value is remembered and makes a response.  A round that finds the link gone gives it up,
and acquisition ends.

A field names a parameter by its name or by its memory key; the first such parameter takes it.
-/
import GroundStation.Instrument.Request
import GroundStation.Record.Fields

namespace GroundStation

namespace Instrument

variable {δ : Type}

/-- Telemetry that nobody asked for. -/
def unsolicited (i : Instrument δ) (id : Text) (value : Json) : Response :=
  ⟨some i.provider, id, .get, some value⟩

/-! ## Polling -/

/-- Reads parameters in turn.  There is no outcome if the link is lost on the way. -/
def pollFrom (i : Instrument δ) : List Text → δ → Option (List Response) × Instrument δ × δ
  | [], d => (some [], i, d)
  | name :: rest, d =>
    match i.parameter? name with
    | none => pollFrom i rest d
    | some p =>
      match i.read p [] d with
      | (.ok (some value), i, d) =>
        let (updates, i, d) := pollFrom i rest d
        (updates.map (i.unsolicited name value :: ·), i, d)
      | (.error (.lost _), i, d) =>
        let (i, d) := i.degrade d
        (none, i, d)
      | (_, i, d) => pollFrom i rest d

/-! ## Records -/

/-- The parameter that a field names. -/
def fieldParameter? (i : Instrument δ) (key : Text) : Option Parameter :=
  (i.parameters.find? fun (_, p) => p.memoryKey = key ∨ p.name = key).map Prod.snd

/-- The value of a field: parsed where the parameter declares a type, else its text. -/
def fieldValue? (p : Parameter) (text : Text) : Option Json :=
  match p.parseReply text with
  | .ok (some value) => some value
  | .ok none => some (.str text)
  | .error _ => none

/-- Takes the fields of a record. -/
def absorb (i : Instrument δ) : List (Text × Text) → List Response × Instrument δ
  | [] => ([], i)
  | (key, text) :: rest =>
    match (i.fieldParameter? key).bind fun p => (fieldValue? p text).map fun v => (p, v) with
    | none => absorb i rest
    | some (p, value) =>
      let (updates, i) := absorb (i.remember p (some value)) rest
      (i.unsolicited p.name value :: updates, i)

/-- Takes what the device has sent.  There is no outcome if the link is lost. -/
def drain (i : Instrument δ) (a : Record.Accumulator) (d : δ) :
    Option (List Response) × Instrument δ × δ :=
  match i.transport.readAvailable i.config d with
  | (.ok bytes, d) =>
    let (records, a) := a.push bytes
    let (updates, i) := absorb { i with worker := some a } (records.flatMap Record.fields)
    (some updates, i, d)
  | (.error e, d) =>
    if e.isLoss then
      let (i, d) := i.degrade d
      (none, i, d)
    else (some [], i, d)

/-! ## Rounds -/

/-- One round of acquisition; there is no outcome if none is at work or the link is lost. -/
def round (i : Instrument δ) (d : δ) : Option (List Response) × Instrument δ × δ :=
  match i.worker, i.config.cyclic with
  | some a, some cyclic =>
    if i.state = .connected ∧ i.held then
      match cyclic.mode with
      | .poll => i.pollFrom cyclic.parameters d
      | .stream => i.drain a d
    else (none, i, d)
  | _, _ => (none, i, d)

end Instrument

end GroundStation
