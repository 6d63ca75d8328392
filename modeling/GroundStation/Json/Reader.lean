/-
# Reading JSON text

The reader follows the grammar of JSON.  Its fuel is twice the length of the text: each of its steps takes a
character or leads to one that does, so what is left of the fuel is never less than what is left to read.
-/
import GroundStation.Json.Number
import GroundStation.Text.Hex

namespace GroundStation

namespace Json

/-- The rest of a text behind JSON blanks. -/
def skipBlank (t : Text) : Text :=
  t.dropWhile fun c => c = ' ' || c = '\n' || c = '\r' || c = '\t'

/-- Four hexadecimal digits. -/
def hex4? : Text → Option (Nat × Text)
  | a :: b :: c :: d :: t =>
    match Hex.value? a, Hex.value? b, Hex.value? c, Hex.value? d with
    | some a, some b, some c, some d => some (((a * 16 + b) * 16 + c) * 16 + d, t)
    | _, _, _, _ => none
  | _ => none

/-- The character of an escape behind the backslash; two escaped halves make one character. -/
def escaped? : Text → Option (Char × Text)
  | 'u' :: t =>
    match hex4? t with
    | none => none
    | some (hi, r) =>
      if 0xD800 ≤ hi ∧ hi < 0xDC00 then
        match r with
        | '\\' :: 'u' :: r =>
          match hex4? r with
          | some (lo, r) =>
            if 0xDC00 ≤ lo ∧ lo < 0xE000 then
              some (Char.ofNat (0x10000 + (hi - 0xD800) * 1024 + (lo - 0xDC00)), r)
            else none
          | none => none
        | _ => none
      else if 0xDC00 ≤ hi ∧ hi < 0xE000 then none
      else some (Char.ofNat hi, r)
  | '"' :: t => some ('"', t)
  | '\\' :: t => some ('\\', t)
  | '/' :: t => some ('/', t)
  | 'b' :: t => some (Char.ofNat 8, t)
  | 'f' :: t => some (Char.ofNat 12, t)
  | 'n' :: t => some ('\n', t)
  | 'r' :: t => some ('\r', t)
  | 't' :: t => some ('\t', t)
  | _ => none

/-- The rest of a string behind its opening quote, read in reverse into `held`. -/
def stringFrom? : Nat → Text → Text → Option (Text × Text)
  | 0, _, _ => none
  | _, _, [] => none
  | fuel + 1, held, c :: t =>
    if c = '"' then some (held.reverse, t)
    else if c = '\\' then
      match escaped? t with
      | some (e, t) => stringFrom? fuel (e :: held) t
      | none => none
    else if c.toNat < 32 then none
    else stringFrom? fuel (c :: held) t

mutual

/-- A value at the start of a text, and the rest. -/
def readValue? : Nat → Text → Option (Json × Text)
  | 0, _ => none
  | fuel + 1, t =>
    match skipBlank t with
    | '"' :: r => (stringFrom? fuel [] r).map fun (s, r) => (str s, r)
    | '[' :: r =>
      match skipBlank r with
      | ']' :: r => some (arr [], r)
      | r => (readItems? fuel r).map fun (vs, r) => (arr vs, r)
    | '{' :: r =>
      match skipBlank r with
      | '}' :: r => some (obj [], r)
      | r => (readMembers? fuel r).map fun (ms, r) => (ofMembers ms, r)
    | 't' :: 'r' :: 'u' :: 'e' :: r => some (bool true, r)
    | 'f' :: 'a' :: 'l' :: 's' :: 'e' :: r => some (bool false, r)
    | 'n' :: 'u' :: 'l' :: 'l' :: r => some (null, r)
    | r => number? r

/-- One or more items up to the closing bracket. -/
def readItems? : Nat → Text → Option (List Json × Text)
  | 0, _ => none
  | fuel + 1, t =>
    match readValue? fuel t with
    | none => none
    | some (v, r) =>
      match skipBlank r with
      | ']' :: r => some ([v], r)
      | ',' :: r => (readItems? fuel r).map fun (vs, r) => (v :: vs, r)
      | _ => none

/-- One or more members up to the closing brace. -/
def readMembers? : Nat → Text → Option (List (Text × Json) × Text)
  | 0, _ => none
  | fuel + 1, t =>
    match skipBlank t with
    | '"' :: r =>
      match stringFrom? fuel [] r with
      | none => none
      | some (k, r) =>
        match skipBlank r with
        | ':' :: r =>
          match readValue? fuel r with
          | none => none
          | some (v, r) =>
            match skipBlank r with
            | '}' :: r => some ([(k, v)], r)
            | ',' :: r => (readMembers? fuel r).map fun (ms, r) => ((k, v) :: ms, r)
            | _ => none
        | _ => none
    | _ => none

end

/-- The value of a whole text. -/
def read? (t : Text) : Option Json :=
  match readValue? (2 * t.length + 2) t with
  | some (v, r) => if (skipBlank r).isEmpty then some v else none
  | none => none

end Json

end GroundStation
