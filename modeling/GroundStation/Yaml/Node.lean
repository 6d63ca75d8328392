/-
# Documents of YAML

A document is a tree of sequences and mappings, with scalars at its leaves.  Where a node is missing, an
empty plain scalar stands for it.  A text holds one document, and a text without any holds the empty one.
-/
import GroundStation.Yaml.Token

namespace GroundStation

namespace Yaml

/-- A node of a document. -/
inductive Node where
  | scalar (text : Text) (plain : Bool)
  | sequence (items : List Node)
  | mapping (entries : List (Node × Node))
  deriving Inhabited

namespace Node

/-- What stands for a missing node. -/
def empty : Node := .scalar [] true

/-- Whether a missing node is followed by one of these. -/
def followedBy (stops : List Token) (ts : List Token) : Bool :=
  match ts with
  | [] => true
  | t :: _ => stops.contains t

/-- A node in a block, which may be a sequence without indentation of its own, or in brackets. -/
inductive Setting where
  | block
  | blockValue
  | flow
  deriving DecidableEq

mutual

/-- Reads a node. -/
def read (setting : Setting) : Nat → List Token → Option (Node × List Token)
  | 0, _ => none
  | fuel + 1, ts =>
    match ts with
    | .scalar text plain :: rest => some (.scalar text plain, rest)
    | .flowSequenceStart :: rest => (flowItems true fuel rest).map fun (xs, r) => (.sequence xs, r)
    | .flowMappingStart :: rest => (flowEntries true fuel rest).map fun (es, r) => (.mapping es, r)
    | .sequenceStart :: rest =>
      if setting = .flow then none else (items fuel rest).map fun (xs, r) => (.sequence xs, r)
    | .mappingStart :: rest =>
      if setting = .flow then none else (entries fuel rest).map fun (es, r) => (.mapping es, r)
    | .entry :: rest =>
      if setting = .blockValue then
        (looseItems fuel (.entry :: rest)).map fun (xs, r) => (.sequence xs, r)
      else none
    | _ => none

/-- Reads a node that is missing before one of the given tokens. -/
def readUnless (setting : Setting) (stops : List Token) :
    Nat → List Token → Option (Node × List Token)
  | 0, _ => none
  | fuel + 1, ts => if followedBy stops ts then some (empty, ts) else read setting fuel ts

/-- The items of a block sequence. -/
def items : Nat → List Token → Option (List Node × List Token)
  | 0, _ => none
  | fuel + 1, ts =>
    match ts with
    | .blockEnd :: rest => some ([], rest)
    | .entry :: rest =>
      match readUnless .block [.entry, .blockEnd] fuel rest with
      | none => none
      | some (x, rest) => (items fuel rest).map fun (xs, r) => (x :: xs, r)
    | _ => none

/-- The items of a sequence that has no indentation of its own. -/
def looseItems : Nat → List Token → Option (List Node × List Token)
  | 0, _ => none
  | fuel + 1, ts =>
    match ts with
    | .entry :: rest =>
      match readUnless .block [.entry, .key, .value, .blockEnd] fuel rest with
      | none => none
      | some (x, rest) => (looseItems fuel rest).map fun (xs, r) => (x :: xs, r)
    | _ => some ([], ts)

/-- The entries of a block mapping. -/
def entries : Nat → List Token → Option (List (Node × Node) × List Token)
  | 0, _ => none
  | fuel + 1, ts =>
    match ts with
    | .blockEnd :: rest => some ([], rest)
    | .key :: rest =>
      match readUnless .blockValue [.key, .value, .blockEnd] fuel rest with
      | none => none
      | some (k, rest) => entriesFrom k fuel rest
    | _ => none

/-- The entries of a block mapping from the value of a key on. -/
def entriesFrom (k : Node) : Nat → List Token → Option (List (Node × Node) × List Token)
  | 0, _ => none
  | fuel + 1, ts =>
    match ts with
    | .value :: rest =>
      match readUnless .blockValue [.key, .value, .blockEnd] fuel rest with
      | none => none
      | some (v, rest) => (entries fuel rest).map fun (es, r) => ((k, v) :: es, r)
    | _ => (entries fuel ts).map fun (es, r) => ((k, empty) :: es, r)

/-- The items of a sequence in brackets. -/
def flowItems (first : Bool) : Nat → List Token → Option (List Node × List Token)
  | 0, _ => none
  | fuel + 1, ts =>
    match ts with
    | .flowSequenceEnd :: rest => some ([], rest)
    | .comma :: rest => if first then none else flowItem fuel rest
    | _ => if first then flowItem fuel ts else none

/-- An item of a sequence in brackets and the items behind it.  A pair is a mapping of one entry; where
its key is missing, the token that shows this is passed over. -/
def flowItem : Nat → List Token → Option (List Node × List Token)
  | 0, _ => none
  | fuel + 1, ts =>
    match ts with
    | .flowSequenceEnd :: rest => some ([], rest)
    | .key :: rest =>
      let read? :=
        if followedBy [.value, .comma, .flowSequenceEnd] rest then some (empty, rest.tail)
        else read .flow fuel rest
      match read? with
      | none => none
      | some (k, rest) =>
        match flowValue [.comma, .flowSequenceEnd] fuel rest with
        | none => none
        | some (v, rest) =>
          (flowItems false fuel rest).map fun (xs, r) => (.mapping [(k, v)] :: xs, r)
    | _ =>
      match read .flow fuel ts with
      | none => none
      | some (x, rest) => (flowItems false fuel rest).map fun (xs, r) => (x :: xs, r)

/-- The value of an entry in brackets, which may be missing. -/
def flowValue (stops : List Token) : Nat → List Token → Option (Node × List Token)
  | 0, _ => none
  | fuel + 1, ts =>
    match ts with
    | .value :: rest => readUnless .flow stops fuel rest
    | _ => some (empty, ts)

/-- The entries of a mapping in brackets. -/
def flowEntries (first : Bool) : Nat → List Token → Option (List (Node × Node) × List Token)
  | 0, _ => none
  | fuel + 1, ts =>
    match ts with
    | .flowMappingEnd :: rest => some ([], rest)
    | .comma :: rest => if first then none else flowEntry fuel rest
    | _ => if first then flowEntry fuel ts else none

/-- An entry of a mapping in brackets and the entries behind it.  A node that is no key has no value. -/
def flowEntry : Nat → List Token → Option (List (Node × Node) × List Token)
  | 0, _ => none
  | fuel + 1, ts =>
    match ts with
    | .flowMappingEnd :: rest => some ([], rest)
    | .key :: rest =>
      match readUnless .flow [.value, .comma, .flowMappingEnd] fuel rest with
      | none => none
      | some (k, rest) =>
        match flowValue [.comma, .flowMappingEnd] fuel rest with
        | none => none
        | some (v, rest) => (flowEntries false fuel rest).map fun (es, r) => ((k, v) :: es, r)
    | _ =>
      match read .flow fuel ts with
      | none => none
      | some (k, rest) => (flowEntries false fuel rest).map fun (es, r) => ((k, empty) :: es, r)

end

mutual

/-- The number of collections around the innermost scalar. -/
def depth : Node → Nat
  | scalar _ _ => 0
  | sequence xs => depthOfItems xs + 1
  | mapping es => depthOfEntries es + 1

/-- The greatest depth of some nodes. -/
def depthOfItems : List Node → Nat
  | [] => 0
  | x :: xs => max x.depth (depthOfItems xs)

/-- The greatest depth of keys and values. -/
def depthOfEntries : List (Node × Node) → Nat
  | [] => 0
  | (k, v) :: es => max (max k.depth v.depth) (depthOfEntries es)

end

/-- Whether nothing but ends of the document is left. -/
def atEnd (ts : List Token) : Bool := ts.all fun t => t == .documentEnd

/-- Reads a document in tokens. -/
def ofTokens? (ts : List Token) : Option Node :=
  let fuel := 4 * ts.length + 8
  let read? : Option (Node × List Token) :=
    match ts with
    | [] => some (empty, [])
    | .documentStart :: rest => readUnless .block [.documentStart, .documentEnd] fuel rest
    | _ => read .block fuel ts
  match read? with
  | some (n, rest) => if atEnd rest then some n else none
  | none => none

/-- Reads the document of a text. -/
def ofText? (text : Text) : Option Node := (tokens? text).bind ofTokens?

end Node

end Yaml

end GroundStation
