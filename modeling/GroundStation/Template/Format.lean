/-
# Format specifications

Behind a colon a placeholder may say how its argument is laid out:

    [[fill] align] [sign] [#] [0] [width] [,] [.places] [type]

Alignment is one of `=`, `<`, `^` and `>`; a fill is any character in front of one.  Only part of this
suits texts: the rest is understood, so that the fault names what was asked for, and then refused.
-/
import GroundStation.Error
import GroundStation.Number.Integer

namespace GroundStation

namespace Template

/-- Where an argument stands within its width. -/
inductive Align where
  | left
  | centre
  | right
  /-- Padding behind the sign of a number. -/
  | sign
  deriving DecidableEq, Repr

/-- A format specification. -/
structure Format where
  fill : Char
  align : Option Align
  signed : Bool
  alternate : Bool
  width : Option Nat
  grouped : Bool
  places : Option Nat
  type : Option Char
  deriving DecidableEq, Repr

namespace Format

/-- The specification that asks for nothing. -/
def plain : Format := ⟨' ', none, false, false, none, false, none, none⟩

/-- The alignment that a character stands for. -/
def align? (c : Char) : Option Align :=
  if c = '<' then some .left
  else if c = '^' then some .centre
  else if c = '>' then some .right
  else if c = '=' then some .sign
  else none

/-- A run of digits as a number of 63 bits, if there is one, and the rest. -/
def number (fault : Text) (t : Text) : Except FormatFault (Option Nat × Text) :=
  let digits := t.takeWhile Char.isDigit
  let rest := t.dropWhile Char.isDigit
  if digits.isEmpty then .ok (none, t)
  else
    match (Integer.digits? 10 digits).filter (· < 2 ^ 63) with
    | some n => .ok (some n, rest)
    | none => .error (.invalid fault)

/-- A character in quotes, as a fault shows it. -/
def quoted (c : Char) : Text :=
  let body : Text :=
    if c = '\t' then "\\t"
    else if c = '\r' then "\\r"
    else if c = '\n' then "\\n"
    else if c.toNat = 0 then "\\0"
    else if c.toNat = 39 then "\\'"
    else if c = '\\' then "\\\\"
    else if c.toNat < 32 ∨ c.toNat = 127 then
      "\\u\x7b" ++ (if c.toNat < 16 then [Hex.digit c.toNat]
        else [Hex.digit (c.toNat / 16), Hex.digit (c.toNat % 16)]) ++ "\x7d"
    else [c]
  Char.ofNat 39 :: body ++ [Char.ofNat 39]

/-- The types that a specification can name. -/
def typeNames : Text := "boxXeEfF%s?"

/-- Fill and alignment.  The third component tells whether a fill was given. -/
def takeAlign : Text → Char × Option Align × Bool × Text
  | a :: b :: t =>
    match align? b with
    | some align => (a, some align, true, t)
    | none =>
      match align? a with
      | some align => (' ', some align, false, b :: t)
      | none => (' ', none, false, a :: b :: t)
  | [a] =>
    match align? a with
    | some align => (' ', some align, false, [])
    | none => (' ', none, false, [a])
  | [] => (' ', none, false, [])

/-- One of the characters of `set` at the start of a text. -/
def takeOne (set : Text) : Text → Bool × Text
  | [] => (false, [])
  | c :: t => if set.contains c then (true, t) else (false, c :: t)

/-- The type at the end of a specification. -/
def type? : Text → Except FormatFault (Option Char)
  | [] => .ok none
  | [c] =>
    if 127 < c.toNat then .error (.invalid "Invalid format specifier")
    else if typeNames.contains c then .ok (some c)
    else .error (.type ("Invalid type specifier: " ++ quoted c))
  | _ => .error (.invalid "Invalid format specifier")

/-- Grouping is for numbers and for a specification without a type. -/
def groupable : Option Char → Bool
  | none => true
  | some c => ("efE%F" : Text).contains c

/-- The number of places behind a point. -/
def places? (t : Text) : Except FormatFault (Option Nat × Text) :=
  match t with
  | '.' :: t =>
    match number "overflow error when parsing precision" t with
    | .error fault => .error fault
    | .ok (none, _) => .error (.invalid "Format specifier missing precision")
    | .ok (some n, t) => .ok (some n, t)
  | t => .ok (none, t)

/-- Reads a specification. -/
def read (t : Text) : Except FormatFault Format := do
  let (fill, align, filled, t) := takeAlign t
  let (signed, t) := takeOne " -+" t
  let (alternate, t) := takeOne "#" t
  let (zero, t) := if filled then (false, t) else takeOne "0" t
  let fill := if zero then '0' else fill
  let align := if zero then some .sign else align
  let (width, t) ← number "overflow error when parsing width" t
  let (grouped, t) := takeOne "," t
  let (places, t) ← places? t
  let type ← type? t
  if grouped && !groupable type then
    throw (.invalid ("Invalid comma type: " ++ type.toList))
  return ⟨fill, align, signed, alternate, width, grouped, places, type⟩

/-- What of a specification does not suit a text. -/
def unsuited? (f : Format) : Option FormatFault :=
  match f.type.filter (· ≠ 's') with
  | some c =>
    some (.type ("Unknown format code Some(" ++ quoted c ++ ") for object of type 'str'"))
  | none =>
    if f.alternate then
      some (.type "Alternate form (#) not allowed in string format specifier")
    else if f.grouped then some (.type "Cannot specify ',' with 's'")
    else if f.signed then some (.type "Sign not allowed in string format specifier")
    else none

/-- Lays a text out: cut to the places, then padded to the width. -/
def apply (f : Format) (value : Text) : Except FormatFault Text :=
  match f.unsuited? with
  | some fault => .error fault
  | none =>
    let value := match f.places with
      | some n => value.take n
      | none => value
    let missing := f.width.getD 0 - value.length
    if missing = 0 then .ok value
    else
      match f.align.getD .left with
      | .left => .ok (value ++ List.replicate missing f.fill)
      | .right => .ok (List.replicate missing f.fill ++ value)
      | .centre =>
        .ok (List.replicate (missing / 2) f.fill ++ value ++
          List.replicate (missing - missing / 2) f.fill)
      | .sign =>
        .error (.invalid "sign aware zero padding and Align '=' not yet supported")

/-! ## Small lemmas -/

/-- The empty specification asks for nothing. -/
theorem read_nil : read [] = .ok plain := rfl

/-- Laid out by nothing, a text stays as it is. -/
@[simp] theorem apply_plain (value : Text) : plain.apply value = .ok value := by
  simp [apply, plain, unsuited?]

end Format

end Template

end GroundStation
