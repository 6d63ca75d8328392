/-
# Configuration files

The file of a station is a YAML document.  A text may be any scalar, quoted or not; a number or a truth
value is a plain one.  A member that is written without a value is an empty record, map or list, while
`null` is refused there.  A record that names one of its fields twice is refused.

What is read of a document may be nested `depthLimit` deep.  What is passed over may be nested at will, so
the limit is not one of documents: it goes down with the reading.
-/
import GroundStation.Config.Decode
import GroundStation.Error
import GroundStation.Yaml.Schema

namespace GroundStation

namespace Config

/-- How many collections may lie around what is read. -/
def depthLimit : Nat := 128

/-- A node, and how many collections may still be entered from it on. -/
structure Reach where
  node : Yaml.Node
  depth : Nat

namespace Reach

/-- The root of a document. -/
def root (node : Yaml.Node) : Reach := ⟨node, depthLimit⟩

/-- The entries of a mapping under texts, a missing node having none. -/
def members? (r : Reach) : Option (List (Text × Reach)) :=
  match r.node, r.depth with
  | .mapping _, 0 => none
  | .mapping es, depth + 1 => es.mapM fun (k, v) => k.text?.map fun key => (key, ⟨v, depth⟩)
  | v, _ => if v.isEmpty then some [] else none

/-- The items of a sequence, a missing node having none. -/
def items? (r : Reach) : Option (List Reach) :=
  match r.node, r.depth with
  | .sequence _, 0 => none
  | .sequence xs, depth + 1 => some (xs.map fun x => ⟨x, depth⟩)
  | v, _ => if v.isEmpty then some [] else none

/-- The value of a node, all of which is read. -/
def json? (r : Reach) : Option Json := if r.node.depth ≤ r.depth then r.node.json? else none

end Reach

/-- Whether a name is given at most once. -/
def givenOnce {α : Type} (ms : List (Text × α)) (name : Text) : Bool :=
  (ms.map Prod.fst).count name ≤ 1

/-- How nodes of YAML are taken. -/
def yamlSource : Source Reach where
  text? r := r.node.text?
  variant? r := r.node.text?
  natural? r := r.node.plain?.bind (Yaml.Plain.natural? (2 ^ 64))
  truth? r := r.node.plain?.bind Yaml.Plain.truth?
  items? := Reach.items?
  fields? names r := r.members?.filter fun ms => names.all (givenOnce ms)
  members? := Reach.members?
  absent r := r.node.plain?.any Yaml.Plain.isNothing
  json? := Reach.json?

end Config

namespace StationConfig

/-- The configuration in a text. -/
def ofText (text : Text) : Except StationError StationConfig :=
  match (Yaml.Node.ofText? text).bind fun n => Config.stationConfig Config.yamlSource (.root n) with
  | none => .error .document
  | some c =>
    match providerFault? [] c.instruments with
    | some fault => .error (.config fault)
    | none => .ok c

/-- The configuration in the bytes of a file, which are read as UTF-8 without leniency. -/
def ofBytes (bytes : Bytes) : Except StationError StationConfig :=
  match Utf8.strict? bytes with
  | some text => ofText text
  | none => .error (.io ⟨.invalidData, "stream did not contain valid UTF-8"⟩)

end StationConfig

end GroundStation
