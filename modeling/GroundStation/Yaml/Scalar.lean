/-
# Scalars of YAML

A scalar is plain, in single quotes or in double quotes, and may run over several lines.  A gap between
two words of it is kept as it is within a line.  At the end of a line it is folded: one line break makes a
space, more of them stand for the empty lines between.  `Gap` is such a gap while it is read.

Line breaks are those of `breaks`: the text has been brought to line feeds before.  Beside them the line
and paragraph separators of Unicode break lines, and are kept.
-/
import GroundStation.Text.Hex

namespace GroundStation

namespace Yaml

/-! ## Characters -/

/-- Brings all line breaks of the common kinds to line feeds. -/
def breaks : Text → Text
  | [] => []
  | '\r' :: '\n' :: t => '\n' :: breaks t
  | c :: t => (if c = '\r' ∨ c.toNat = 0x85 then '\n' else c) :: breaks t

/-- The byte order mark. -/
def byteOrderMark : Char := Char.ofNat 0xFEFF

/-- Whether a character ends a line. -/
def isBreak (c : Char) : Bool := c = '\n' ∨ c.toNat = 0x2028 ∨ c.toNat = 0x2029

/-- A space or a tab. -/
def isSpace (c : Char) : Bool := c = ' ' ∨ c = '\t'

/-- Whether a text is at its end or begins with a blank. -/
def atBlank : Text → Bool
  | [] => true
  | c :: _ => isSpace c || isBreak c

/-- Whether a character may stand in a text. -/
def isPrintable (c : Char) : Bool :=
  let n := c.toNat
  n == 9 || n == 10 || n == 13 || (0x20 ≤ n && n ≤ 0x7E) || n == 0x85 || (0xA0 ≤ n && n ≤ 0xFFFD) ||
    0x10000 ≤ n

/-- Whether a text begins, at the first column, with the mark of a document's beginning or end. -/
def atMarker (column : Nat) (t : Text) : Bool :=
  column == 0 && (["---", "..."].any fun mark => (Text.after? mark t).any atBlank)

/-! ## Places -/

/-- A place in a text: what follows, and where it stands. -/
structure Place where
  rest : Text
  index : Nat
  line : Nat
  column : Nat

/-- The place behind so many characters of the line. -/
def Place.skip (p : Place) (count : Nat) : Place :=
  ⟨p.rest.drop count, p.index + count, p.line, p.column + count⟩

/-- The place behind one character, which may end the line. -/
def Place.next (p : Place) (c : Char) (rest : Text) : Place :=
  if isBreak c then ⟨rest, p.index + 1, p.line + 1, 0⟩ else ⟨rest, p.index + 1, p.line, p.column + 1⟩

/-! ## Gaps -/

/-- A gap between two words of a scalar, latest character first. -/
inductive Gap where
  | none
  | spaces (spaces : Text)
  /-- A line break, if it is not escaped, and the breaks behind it. -/
  | lines (first : Option Char) (more : Text)

namespace Gap

/-- The text of a gap, latest character first. -/
def folded : Gap → Text
  | none => []
  | spaces t => t
  | lines (some '\n') more => if more.isEmpty then [' '] else more
  | lines first more => more ++ first.toList

/-- The gap with one more blank. -/
def push (c : Char) : Gap → Gap
  | none => if isBreak c then lines (some c) [] else spaces [c]
  | spaces t => if isBreak c then lines (some c) [] else spaces (c :: t)
  | lines first more => if isBreak c then lines first (c :: more) else lines first more

/-- Whether a gap has a line break. -/
def isLines : Gap → Bool
  | lines _ _ => true
  | _ => false

/-- Whether there is a gap at all. -/
def isSome : Gap → Bool
  | none => false
  | _ => true

end Gap

/-! ## Plain scalars -/

/-- Characters with a meaning of their own between brackets. -/
def isFlowMark (c : Char) : Bool := c = ',' ∨ c = '[' ∨ c = ']' ∨ c = '{' ∨ c = '}'

/-- Whether a plain scalar ends before a character and what follows it. -/
def endsPlain (inFlow : Bool) (c : Char) (rest : Text) : Bool :=
  (c == ':' && atBlank rest) || (inFlow && isFlowMark c)

/-- A plain scalar: its text, the place behind it, and whether a line break was passed. -/
structure PlainScalar where
  text : Text
  place : Place
  brokeLine : Bool

/-- The plain scalar that ends at a place, behind a gap; `acc` is its text, latest character first. -/
def PlainScalar.ended (acc : Text) (gap : Gap) (p : Place) : PlainScalar := ⟨acc.reverse, p, gap.isLines⟩

/-- Reads on in a plain scalar, of which `acc` has been read, latest character first. -/
def plainFrom (inFlow : Bool) (indent : Nat) : Nat → Text → Gap → Place → Option PlainScalar
  | 0, _, _, _ => none
  | fuel + 1, acc, gap, p =>
    match p.rest with
    | [] => some (.ended acc gap p)
    | c :: t =>
      if isSpace c || isBreak c then
        if c = '\t' ∧ gap.isLines ∧ p.column < indent then none
        else plainFrom inFlow indent fuel acc (gap.push c) (p.next c t)
      else if gap.isSome && ((!inFlow && p.column < indent) || atMarker p.column p.rest || c == '#') then
        some (.ended acc gap p)
      else if inFlow && c == ':' && (t.head?.any fun d => d == '?' || isFlowMark d) then none
      else if endsPlain inFlow c t then some (.ended acc gap p)
      else plainFrom inFlow indent fuel (c :: (gap.folded ++ acc)) .none (p.next c t)

/-- Reads a plain scalar; the fuel exceeds what is left of the text. -/
def plain (inFlow : Bool) (indent fuel : Nat) (p : Place) : Option PlainScalar :=
  plainFrom inFlow indent fuel [] .none p

/-! ## Quoted scalars -/

/-- The character that a letter behind a backslash stands for. -/
def escaped? (c : Char) : Option Char :=
  let code : Option Nat :=
    match c with
    | '0' => some 0
    | 'a' => some 7
    | 'b' => some 8
    | 't' => some 9
    | '\t' => some 9
    | 'n' => some 10
    | 'v' => some 11
    | 'f' => some 12
    | 'r' => some 13
    | 'e' => some 27
    | ' ' => some 32
    | '"' => some 34
    | '/' => some 47
    | '\\' => some 92
    | 'N' => some 0x85
    | '_' => some 0xA0
    | 'L' => some 0x2028
    | 'P' => some 0x2029
    | _ => none
  code.map Char.ofNat

/-- The number of hexadecimal digits that follow a letter behind a backslash. -/
def escapeWidth? (c : Char) : Option Nat :=
  match c with
  | 'x' => some 2
  | 'u' => some 4
  | 'U' => some 8
  | _ => none

/-- The number that hexadecimal digits denote. -/
def hexNumber? (digits : Text) : Option Nat :=
  digits.foldl (fun acc c => acc.bind fun n => (Hex.value? c).map fun d => n * 16 + d) (some 0)

/-- The character of a code point. -/
def scalarValue? (n : Nat) : Option Char := if n.isValidChar then some (Char.ofNat n) else none

/-- The character that an escape stands for, and the number of characters it takes. -/
def escape? (c : Char) (rest : Text) : Option (Char × Nat) :=
  match escapeWidth? c with
  | none => (escaped? c).map fun d => (d, 2)
  | some width =>
    if rest.length < width then none
    else ((hexNumber? (rest.take width)).bind scalarValue?).map fun d => (d, width + 2)

/-- Reads on in a quoted scalar. -/
def quotedFrom (quote : Char) : Nat → Text → Gap → Place → Option (Text × Place)
  | 0, _, _, _ => none
  | fuel + 1, acc, gap, p =>
    let within (c : Char) (count : Nat) := quotedFrom quote fuel (c :: (gap.folded ++ acc)) .none (p.skip count)
    match p.rest with
    | [] => none
    | c :: t =>
      if atMarker p.column p.rest then none
      else if isSpace c || isBreak c then quotedFrom quote fuel acc (gap.push c) (p.next c t)
      else if c = quote then
        if quote = '\'' ∧ t.head? = some '\'' then within '\'' 2
        else some ((gap.folded ++ acc).reverse, p.skip 1)
      else if c = '\\' ∧ quote = '"' then
        match t with
        | [] => none
        | d :: u =>
          if isBreak d then
            quotedFrom quote fuel (gap.folded ++ acc) (.lines none []) ((p.skip 1).next d u)
          else
            match escape? d u with
            | none => none
            | some (e, count) => within e count
      else within c 1

/-- Reads a quoted scalar behind its opening quote; the fuel exceeds what is left of the text. -/
def quoted (quote : Char) (fuel : Nat) (p : Place) : Option (Text × Place) :=
  quotedFrom quote fuel [] .none p

end Yaml

end GroundStation
