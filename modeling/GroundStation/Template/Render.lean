/-
# Filling a command template

Before a step is sent, the arguments of the command take the places of its placeholders.  The scanner
passes over the template once.  It knows the placeholder it is in, if any, as what has been read since
the opening brace, and whether a closing brace stands alone so far:

* an opening brace begins a placeholder; directly behind another it stands for itself;
* a closing brace ends a placeholder; outside of one it has to come twice, and stands for itself;
* every other character stands for itself, in a placeholder or outside.
-/
import GroundStation.Template.Format
import GroundStation.Text.Split

namespace GroundStation

namespace Template

/-- The argument that a key names: keys are the plain decimal numerals of positions. -/
def argument? (args : List Text) (key : Text) : Option Text :=
  (args.zipIdx.find? fun (_, i) => Text.ofNat i = key).map Prod.fst

/-- The text of a placeholder: the argument named before the colon, laid out as the rest says. -/
def fill (args : List Text) (placeholder : Text) : Except FormatFault Text :=
  let (key, spec) := (Split.cutOnce? ':' placeholder).getD (placeholder, [])
  if key.isEmpty then .error (.invalid "must specify identifier")
  else
    match Format.read spec with
    | .error fault => .error fault
    | .ok format =>
      match argument? args key with
      | none => .error (.key ("Invalid key: " ++ key))
      | some value => format.apply value

/-- A text in front of the outcome of the rest. -/
def prepend (t : Text) : Except FormatFault Text → Except FormatFault Text
  | .ok rest => .ok (t ++ rest)
  | .error fault => .error fault

/-- Fills the rest of a template.  `reading` is the placeholder so far, latest character first, and
`closing` tells whether a closing brace stands alone. -/
def fillFrom (args : List Text) : Option Text → Bool → Text → Except FormatFault Text
  | reading, closing, [] =>
    if closing then .error (.invalid "Single '\x7d' encountered in format string")
    else if reading.isSome then .error (.invalid "Expected '\x7d' before end of string")
    else .ok []
  | reading, closing, c :: t =>
    if c = '{' then
      match reading with
      | none => fillFrom args (some []) closing t
      | some [] => prepend ['{'] (fillFrom args none closing t)
      | some _ => .error (.invalid "extra \x7b found")
    else if c = '}' then
      if closing then prepend ['}'] (fillFrom args (reading.map ('}' :: ·)) false t)
      else
        match reading with
        | none => fillFrom args none true t
        | some placeholder =>
          match fill args placeholder.reverse with
          | .error fault => .error fault
          | .ok value => prepend value (fillFrom args none false t)
    else if closing then .error (.invalid "Single '\x7d' encountered in format string")
    else
      match reading with
      | none => prepend [c] (fillFrom args none false t)
      | some placeholder => fillFrom args (some (c :: placeholder)) false t

/-- Fills a template with the arguments of a command to the parameter `id`. -/
def render (id template : Text) (args : List Text) : Except CommandError Text :=
  match fillFrom args none false template with
  | .ok text => .ok text
  | .error fault => .error (.template id fault)

end Template

end GroundStation
