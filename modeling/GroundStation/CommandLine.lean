/-
# Command lines

A command line is a list of options, arguments and at most one command, behind which come the options and
arguments of the command.  An option has a name of its own and perhaps a letter:

    --name value    --name=value    -n value    -nvalue    -n=value

Letters may share a dash; the first that takes a value takes the rest.  Behind `--` there are only
arguments, and a dash alone is an argument too.  An option is given at most once at a level; what is
given behind the command counts more than what is given in front of it.
-/
import GroundStation.Text.Keyed
import GroundStation.Text.Split

namespace GroundStation

namespace CommandLine

/-! ## Forms -/

/-- What an option does. -/
inductive OptionUse where
  | flag
  | value
  | help
  | version
  deriving DecidableEq, Repr

/-- An option. -/
structure OptionForm where
  name : Text
  letter : Option Char
  use : OptionUse
  /-- The value that holds unless another is given. -/
  standing : Option Text
  required : Bool
  accepts : Text → Bool

/-- An option that takes no value. -/
def flag (name : Text) (letter : Option Char) (use : OptionUse) : OptionForm :=
  ⟨name, letter, use, none, false, fun _ => true⟩

/-- The form of a command line, or of what follows a command. -/
structure Form where
  /-- What is printed for the version. -/
  version : Text
  options : List OptionForm
  /-- For each argument, the value that holds if it is missing. -/
  arguments : List (Option Text)
  /-- Whether more arguments may follow. -/
  more : Bool
  /-- The commands, where there must be one. -/
  commands : List (Text × Form)

/-- Why a command line is not carried out. -/
inductive Stop where
  | help
  | version (shown : Text)
  | refused
  deriving DecidableEq, Repr

/-! ## Reading a level -/

/-- What has been read of a level. -/
structure Level where
  /-- The options with the values given for them. -/
  given : List (Text × Option Text)
  /-- The option that the next argument is the value of. -/
  awaiting : Option Text
  arguments : List Text
  /-- Whether only arguments follow. -/
  closed : Bool

namespace Level

/-- Nothing read. -/
def empty : Level := ⟨[], none, [], false⟩

/-- An option is given. -/
def give (name : Text) (value : Option Text) (l : Level) : Level :=
  { l with given := l.given ++ [(name, value)], awaiting := none }

/-- An option is given whose value is to come. -/
def await (name : Text) (l : Level) : Level := { l.give name none with awaiting := some name }

/-- The value of an option comes. -/
def receive (name value : Text) (l : Level) : Level :=
  { l with
    given := l.given.map fun (k, v) => if k = name ∧ v = none then (k, some value) else (k, v)
    awaiting := none }

/-- An argument is given. -/
def place (form : Form) (argument : Text) (l : Level) : Except Stop Level :=
  if l.arguments.length < form.arguments.length ∨ form.more then
    .ok { l with arguments := l.arguments ++ [argument] }
  else .error .refused

/-- An option is met, perhaps with its value. -/
def meet (form : Form) (option : OptionForm) (value : Option Text) (l : Level) : Except Stop Level :=
  match option.use, value with
  | .help, _ => .error .help
  | .version, _ => .error (.version form.version)
  | .flag, _ => .ok (l.give option.name none)
  | .value, some v => .ok (l.give option.name (some (v.dropWhile (· = '='))))
  | .value, none => .ok (l.await option.name)

/-- An option by its name, with what stands behind an equals sign. -/
def byName (form : Form) (text : Text) (l : Level) : Except Stop Level :=
  let body := text.dropWhile (· = '-')
  let (name, value) := match Split.cutOnce? '=' body with
    | some (name, value) => (name, some value)
    | none => (body, none)
  match form.options.find? fun o => o.name = name with
  | some option => l.meet form option value
  | none => .error .refused

/-- Options by their letters. -/
def byLetters (form : Form) : Text → Level → Except Stop Level
  | [], l => .ok l
  | c :: rest, l =>
    match form.options.find? fun o => o.letter = some c with
    | none => .error .refused
    | some option =>
      if option.use = .value then l.meet form option (if rest.isEmpty then none else some rest)
      else
        match l.meet form option none with
        | .ok l => byLetters form rest l
        | .error stop => .error stop

/-- One part of a command line that is no command. -/
def take (form : Form) (part : Text) (l : Level) : Except Stop Level :=
  if l.closed then l.place form part
  else
    match part, l.awaiting with
    | ['-', '-'], _ => .ok { l with closed := true }
    | '-' :: '-' :: _, _ => l.byName form part
    | '-' :: c :: rest, _ => l.byLetters form (c :: rest)
    | _, some name => .ok (l.receive name part)
    | _, none => l.place form part

/-- Whether a part is read as a command. -/
def atCommand (form : Form) (part : Text) (l : Level) : Bool :=
  !l.closed && l.awaiting.isNone && (form.commands.any fun c => decide (c.1 = part))

/-- Reads a level up to a command, which is returned with what follows it. -/
def read (form : Form) : List Text → Level → Except Stop (Level × Option (Text × List Text))
  | [], l => .ok (l, none)
  | part :: rest, l =>
    if l.atCommand form part then .ok (l, some (part, rest))
    else
      match l.take form part with
      | .ok l => read form rest l
      | .error stop => .error stop

/-- Whether what was given of an option is in order. -/
def sound (option : OptionForm) (l : Level) : Bool :=
  match l.given.filter fun g => g.1 = option.name with
  | [] => !option.required
  | [(_, value)] => option.use != .value || (value.or option.standing).any option.accepts
  | _ => false

/-- Whether what was given is in order, and nothing is missing. -/
def complete (form : Form) (l : Level) : Bool :=
  form.options.all (sound · l) && (form.arguments.drop l.arguments.length).all Option.isSome

/-- The arguments, with those that hold for missing ones. -/
def allArguments (form : Form) (l : Level) : List Text :=
  l.arguments ++ (form.arguments.drop l.arguments.length).filterMap id

end Level

/-! ## Reading a command line -/

/-- What a command line asks for. -/
structure Invocation where
  command : Option Text
  /-- The values of options. -/
  values : Keyed Text
  arguments : List Text

/-- The value of an option at levels, the one that counts most in front. -/
def valueOf? (levels : List Level) (option : OptionForm) : Option Text :=
  match levels.findSome? fun l => Keyed.get? option.name l.given with
  | some value => value.or option.standing
  | none => option.standing

/-- The values of the options of a form. -/
def valuesOf (form : Form) (levels : List Level) : Keyed Text :=
  form.options.filterMap fun o => (valueOf? levels o).map fun v => (o.name, v)

/-- Asks for help about the program or about a command. -/
def askHelp (form : Form) : List Text → Stop
  | [] => .help
  | [topic] => if form.commands.any fun c => decide (c.1 = topic) then .help else .refused
  | _ => .refused

/-- The name of the command that asks for help. -/
def helpCommand : Text := "help"

/-- Reads what follows a command. -/
def readCommand (form : Form) (top : Level) (name : Text) (rest : List Text) : Except Stop Invocation :=
  match Keyed.get? name form.commands with
  | none => .error .refused
  | some sub =>
    match Level.empty.read sub rest with
    | .error stop => .error stop
    | .ok (l, _) =>
      if l.complete sub ∧ top.complete form then
        .ok ⟨some name, valuesOf sub [l, top], l.allArguments sub⟩
      else .error .refused

/-- Reads a command line. -/
def read (form : Form) (parts : List Text) : Except Stop Invocation :=
  match Level.empty.read form parts with
  | .error stop => .error stop
  | .ok (top, some (name, rest)) =>
    if name = helpCommand then .error (askHelp form rest) else readCommand form top name rest
  | .ok (top, none) =>
    if top.complete form ∧ form.commands.isEmpty then
      .ok ⟨none, valuesOf form [top], top.allArguments form⟩
    else .error .refused

/-! ## Outcomes -/

/-- The lines that a program prints, and whether it ends well. -/
structure Outcome where
  lines : List Text
  success : Bool
  deriving DecidableEq, Repr

/-- How a program ends that does nothing else.  The text of the help is not part of the outcome. -/
def Stop.outcome : Stop → Outcome
  | .help => ⟨[], true⟩
  | .version shown => ⟨[shown], true⟩
  | .refused => ⟨[], false⟩

end CommandLine

end GroundStation
