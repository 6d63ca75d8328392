/-
# Tokens of YAML

A text is cut into tokens: marks, scalars, and the beginnings and ends of blocks, which the text shows by
indentation alone.  A scalar or a bracket may turn out to be the key of a mapping, when a colon follows on
the same line; the tokens for the key, and for the mapping if it begins here, are then put in front of it.

`Scan` is what the scanner knows between two tokens: the indentation of the open blocks, the depth of
brackets, and for each depth the place of a possible key.
-/
import GroundStation.Yaml.Scalar

namespace GroundStation

namespace Yaml

/-- A token. -/
inductive Token where
  | sequenceStart
  | mappingStart
  | blockEnd
  | flowSequenceStart
  | flowSequenceEnd
  | flowMappingStart
  | flowMappingEnd
  | entry
  | comma
  | key
  | value
  | scalar (text : Text) (plain : Bool)
  | documentStart
  | documentEnd
  deriving DecidableEq

/-- Where a key may have begun. -/
structure PossibleKey where
  /-- Whether nothing but a key can stand there. -/
  required : Bool
  /-- The number of tokens in front of it. -/
  tokens : Nat
  index : Nat
  line : Nat
  column : Nat

/-- What the scanner knows between two tokens. -/
structure Scan where
  place : Place
  /-- The tokens so far, latest first. -/
  tokens : List Token
  /-- How many tokens there are so far. -/
  count : Nat
  /-- The columns of the open blocks, innermost first. -/
  indents : List Nat
  /-- A possible key for each depth of brackets, innermost first; there is always one more than the
  depth. -/
  keys : List (Option PossibleKey)
  keyAllowed : Bool

namespace Scan

/-- The beginning of a text. -/
def start (t : Text) : Scan := ⟨⟨t, 0, 0, 0⟩, [], 0, [], [none], true⟩

/-- Whether a bracket is open. -/
def inFlow (s : Scan) : Bool := !(s.keys.drop 1).isEmpty

/-- The least column of what still belongs to the innermost block. -/
def indent (s : Scan) : Nat :=
  match s.indents with
  | [] => 0
  | column :: _ => column + 1

/-- Adds a token. -/
def add (token : Token) (s : Scan) : Scan :=
  { s with tokens := token :: s.tokens, count := s.count + 1 }

/-- Puts a token behind the first `before` ones. -/
def insert (before : Nat) (token : Token) (s : Scan) : Scan :=
  let later := s.count - before
  { s with tokens := s.tokens.take later ++ token :: s.tokens.drop later, count := s.count + 1 }

/-- Goes over characters of the line. -/
def skip (count : Nat) (s : Scan) : Scan := { s with place := s.place.skip count }

/-- Opens a block at a column, its token going behind the first `before` ones. -/
def openBlock (column before : Nat) (token : Token) (s : Scan) : Scan :=
  if s.inFlow ∨ column < s.indent then s
  else { s with indents := column :: s.indents }.insert before token

/-- Closes the blocks that lie right of a column, or all. -/
def closeBlocks (column : Option Nat) (s : Scan) : Scan :=
  if s.inFlow then s
  else
    let closed := (s.indents.takeWhile fun c => column.all (· < c)).length
    { s with
      tokens := List.replicate closed .blockEnd ++ s.tokens
      count := s.count + closed
      indents := s.indents.drop closed }

/-! ## Possible keys -/

/-- Gives up the possible key at this depth, unless it is required. -/
def dropKey (s : Scan) : Option Scan :=
  match s.keys with
  | some k :: rest => if k.required then none else some { s with keys := none :: rest }
  | _ => some s

/-- Notes that a key may begin here. -/
def noteKey (s : Scan) : Option Scan :=
  if !s.keyAllowed then some s
  else do
    let s ← s.dropKey
    let p := s.place
    let required := !s.inFlow && s.indents.head? == some p.column
    return { s with keys := some ⟨required, s.count, p.index, p.line, p.column⟩ :: s.keys.tail }

/-- Whether a possible key still is one here: on its line, and not too long. -/
def stillKey (s : Scan) (k : PossibleKey) : Bool :=
  k.line == s.place.line && s.place.index ≤ k.index + 1024

/-- Gives up the possible key at this depth if it no longer is one.  Those around it wait until their
depth is reached again. -/
def expireKey (s : Scan) : Option Scan :=
  match s.keys with
  | some k :: _ => if s.stillKey k then some s else s.dropKey
  | _ => some s

/-! ## Blanks -/

/-- Goes over blanks and comments, and over a byte order mark at the first column of a line, which takes
that column; `comment` tells whether a comment is open. -/
def skipBlanks (inFlow keyAllowed comment : Bool) (p : Place) : Text → Bool × Place
  | [] => (keyAllowed, p)
  | c :: t =>
    if isBreak c then skipBlanks inFlow (keyAllowed || !inFlow) false (p.next c t) t
    else if comment ∨ c = '#' then skipBlanks inFlow keyAllowed true (p.next c t) t
    else if c = byteOrderMark ∧ p.column = 0 then skipBlanks inFlow keyAllowed false (p.next c t) t
    else if c = ' ' ∨ (c = '\t' ∧ (inFlow ∨ !keyAllowed)) then
      skipBlanks inFlow keyAllowed false (p.next c t) t
    else (keyAllowed, p)

/-- Goes to the next token. -/
def toToken (s : Scan) : Scan :=
  let (keyAllowed, place) := skipBlanks s.inFlow s.keyAllowed false s.place s.place.rest
  { s with keyAllowed, place }

/-! ## Tokens -/

/-- The mark of a document's beginning or end. -/
def documentMark (token : Token) (s : Scan) : Option Scan := do
  let s ← (s.closeBlocks none).dropKey
  return ({ s with keyAllowed := false }.skip 3).add token

/-- An opening bracket. -/
def openBracket (token : Token) (s : Scan) : Option Scan := do
  let s ← s.noteKey
  return ({ s with keys := none :: s.keys, keyAllowed := true }.skip 1).add token

/-- A closing bracket. -/
def closeBracket (token : Token) (s : Scan) : Option Scan := do
  let s ← s.dropKey
  let keys := if s.inFlow then s.keys.tail else s.keys
  return ({ s with keys, keyAllowed := false }.skip 1).add token

/-- A comma. -/
def comma (s : Scan) : Option Scan := do
  let s ← s.dropKey
  return ({ s with keyAllowed := true }.skip 1).add .comma

/-- The dash of a sequence. -/
def dash (s : Scan) : Option Scan :=
  if !s.inFlow && !s.keyAllowed then none
  else do
    let s ← (s.openBlock s.place.column s.count .sequenceStart).dropKey
    return ({ s with keyAllowed := true }.skip 1).add .entry

/-- The question mark of a key. -/
def question (s : Scan) : Option Scan :=
  if !s.inFlow && !s.keyAllowed then none
  else do
    let s ← (s.openBlock s.place.column s.count .mappingStart).dropKey
    return ({ s with keyAllowed := !s.inFlow }.skip 1).add .key

/-- The colon of a value. -/
def colon (s : Scan) : Option Scan :=
  match s.keys with
  | some k :: rest =>
    let s := ({ s with keys := none :: rest }.insert k.tokens .key).openBlock k.column k.tokens
      .mappingStart
    some (({ s with keyAllowed := false }.skip 1).add .value)
  | _ =>
    if !s.inFlow && !s.keyAllowed then none
    else
      let opened := s.openBlock s.place.column s.count .mappingStart
      some (({ opened with keyAllowed := !s.inFlow }.skip 1).add .value)

/-- A quoted scalar. -/
def quotedToken (quote : Char) (fuel : Nat) (s : Scan) : Option Scan := do
  let s ← s.noteKey
  let (text, place) ← quoted quote fuel (s.place.skip 1)
  return { s with place, keyAllowed := false }.add (.scalar text false)

/-- A plain scalar. -/
def plainToken (fuel : Nat) (s : Scan) : Option Scan := do
  let s ← s.noteKey
  let read ← plain s.inFlow s.indent fuel s.place
  return { s with place := read.place, keyAllowed := read.brokeLine }.add (.scalar read.text true)

/-- Characters that begin something that is not supported, or nothing at all. -/
def isReserved (c : Char) : Bool :=
  ['&', '*', '!', '|', '>', '%', '@', Char.ofNat 0x60].contains c

/-- The token that begins with a character; the fuel exceeds what is left of the text. -/
def token (fuel : Nat) (c : Char) (t : Text) (s : Scan) : Option Scan :=
  if s.place.column = 0 ∧ c = '%' then none
  else if atMarker s.place.column s.place.rest then
    s.documentMark (if c = '-' then .documentStart else .documentEnd)
  else if c = '[' then s.openBracket .flowSequenceStart
  else if c = '{' then s.openBracket .flowMappingStart
  else if c = ']' then s.closeBracket .flowSequenceEnd
  else if c = '}' then s.closeBracket .flowMappingEnd
  else if c = ',' then s.comma
  else if c = '-' ∧ atBlank t then s.dash
  else if c = '?' ∧ (s.inFlow ∨ atBlank t) then s.question
  else if c = ':' ∧ (s.inFlow ∨ atBlank t) then s.colon
  else if c = '\'' ∨ c = '"' then s.quotedToken c fuel
  else if isReserved c ∨ isSpace c then none
  else s.plainToken fuel

/-- Reads on to the end of the text.  Each token takes a character at least, so the fuel stays greater than
what is left. -/
def run : Nat → Scan → Option (List Token)
  | 0, _ => none
  | fuel + 1, s => do
    let s ← s.toToken.expireKey
    match s.place.rest with
    | [] =>
      let s ← (s.closeBlocks none).dropKey
      return s.tokens.reverse
    | c :: t =>
      let s ← (s.closeBlocks (some s.place.column)).token (fuel + 1) c t
      run fuel s

end Scan

/-- The tokens of a text. -/
def tokens? (text : Text) : Option (List Token) :=
  if text.all isPrintable then
    let text := breaks text
    (Scan.start text).run (text.length + 1)
  else none

end Yaml

end GroundStation
