/-
# Causes of failure

Three families, by what they stop:

* `ConfigError` — a component is not built or not registered, and does not enter service;
* `LinkError` — an exchange with a device fails; some of these mean that the link itself is gone;
* `CommandError` — a telecommand is answered by an error; the wording travels back to the operator.

`StationError` joins the first two for operations that can meet either.  Each type states causes; the
wording is in its `message`.
-/
import GroundStation.Accessor

namespace GroundStation

/-! ## Configuration -/

/-- What is wrong with the shape of a signature `[[argument, …], return type]`. -/
inductive SignatureFault where
  | notAnArray
  | notTwoElements
  | argumentsNotAnArray
  | returnNotATypeName
  deriving DecidableEq, Repr

namespace SignatureFault

/-- The wording of a fault. -/
def message : SignatureFault → Text
  | notAnArray => "expected [[args...], return_type]"
  | notTwoElements => "expected exactly two elements"
  | argumentsNotAnArray => "argument list must be an array"
  | returnNotATypeName => "return type must be a string or null"

end SignatureFault

/-- What is wrong with a step of a command template. -/
inductive StepFault where
  /-- A step is neither one write nor one query. -/
  | notOneOf
  /-- A placeholder is not closed. -/
  | unclosed (template : Text)
  /-- A placeholder does not name a position. -/
  | notPositional (key : Text)
  /-- A closing brace stands alone. -/
  | unmatched (template : Text)
  /-- A placeholder names a position beyond the declared arguments. -/
  | beyond (index count : Nat)
  deriving DecidableEq, Repr

namespace StepFault

/-- The wording of a fault. -/
def message : StepFault → Text
  | notOneOf => "each step needs exactly one of write or query"
  | unclosed template => "unclosed placeholder in '" ++ template ++ "'"
  | notPositional key => "placeholder '\x7b" ++ key ++ "\x7d' is not positional"
  | unmatched template => "unmatched '\x7d' in '" ++ template ++ "'"
  | beyond index count =>
    "placeholder \x7b" ++ Text.ofNat index ++ "\x7d exceeds the " ++ Text.ofNat count ++
      " declared argument(s)"

end StepFault

/-- Why a component does not enter service. -/
inductive ConfigError where
  | malformedSignature (id : Text) (fault : SignatureFault)
  | duplicateParameter (id : Text) (accessor : Accessor)
  | missingField (instrument field : Text)
  | missingType (id : Text)
  | getSignatureNotEmpty (id : Text)
  | getWithoutQuery (id : Text)
  | noAccessor (id : Text)
  | emptyTemplate (id : Text)
  | invalidStep (id : Text) (fault : StepFault)
  | unknownValueType (id valueType : Text)
  | unknownCyclicParameter (instrument id : Text)
  | unknownTransport (name : Text)
  | duplicateTransport (name : Text)
  | invalid (reason : Text)
  deriving DecidableEq, Repr

namespace ConfigError

/-- The wording of a cause. -/
def message : ConfigError → Text
  | malformedSignature id fault =>
    "malformed signature for parameter '" ++ id ++ "': " ++ fault.message
  | duplicateParameter id accessor =>
    "parameter '" ++ id ++ "' (" ++ accessor.name ++ ") is already registered"
  | missingField instrument field =>
    "instrument '" ++ instrument ++ "' is missing required field '" ++ field ++ "'"
  | missingType id => "parameter '" ++ id ++ "' does not declare a type"
  | getSignatureNotEmpty id =>
    "get parameter '" ++ id ++ "' must not declare signature arguments"
  | getWithoutQuery id => "get parameter '" ++ id ++ "' has no query step"
  | noAccessor id => "parameter '" ++ id ++ "' declares neither get nor set"
  | emptyTemplate id => "parameter '" ++ id ++ "' has an empty instrument_command"
  | invalidStep id fault =>
    "parameter '" ++ id ++ "' has an invalid command step: " ++ fault.message
  | unknownValueType id valueType =>
    "unknown value type '" ++ valueType ++ "' for parameter '" ++ id ++ "'"
  | unknownCyclicParameter instrument id =>
    "cyclic parameter '" ++ id ++ "' is not a get parameter of instrument '" ++ instrument ++ "'"
  | unknownTransport name => "unknown transport '" ++ name ++ "'"
  | duplicateTransport name => "transport '" ++ name ++ "' is already registered"
  | invalid reason => "invalid configuration: " ++ reason

end ConfigError

/-! ## Links -/

/-- The kinds of input and output failures that links and files meet. -/
inductive IoKind where
  | networkUnreachable
  | connectionRefused
  | connectionReset
  | brokenPipe
  | wouldBlock
  | timedOut
  | interrupted
  | notFound
  | isADirectory
  | addressInUse
  | invalidInput
  | invalidData
  | unexpectedEnd
  | uncategorized
  deriving DecidableEq, Repr

/-- A failure of input or output, with the wording of the system. -/
structure IoFailure where
  kind : IoKind
  text : Text
  deriving DecidableEq, Repr

/-- Why an exchange with a device fails. -/
inductive LinkError where
  | io (failure : IoFailure)
  | timeout
  | closed
  | unsupported (transport : Text)
  | script (reason : Text)
  | rmapReply
  | invalidCommand (reason : Text)
  | encoding (reason : Text)
  deriving DecidableEq, Repr

namespace LinkError

/-- The wording of a cause. -/
def message : LinkError → Text
  | io failure => "I/O error: " ++ failure.text
  | timeout => "timed out waiting for the instrument"
  | closed => "connection closed by the instrument"
  | unsupported transport => "operation not supported by the '" ++ transport ++ "' transport"
  | script reason => "script failed: " ++ reason
  | rmapReply => "RMAP Reply error"
  | invalidCommand reason => "invalid command for this transport: " ++ reason
  | encoding reason => "cannot encode command: " ++ reason

/-- Whether the link itself is gone, and not a single exchange. -/
def isLoss : LinkError → Bool
  | io failure =>
    match failure.kind with
    | .wouldBlock | .timedOut => false
    | _ => true
  | closed => true
  | _ => false

end LinkError

/-! ## Telecommands -/

/-- Why a placeholder in a template cannot be filled. -/
inductive FormatFault where
  /-- The template or a format specification is malformed. -/
  | invalid (reason : Text)
  /-- A placeholder names no argument. -/
  | key (reason : Text)
  /-- A format specification does not suit a text. -/
  | type (reason : Text)
  deriving DecidableEq, Repr

namespace FormatFault

/-- The wording of a fault. -/
def message : FormatFault → Text
  | invalid reason => "Invalid(" ++ reason ++ ")"
  | key reason => "KeyError(" ++ reason ++ ")"
  | type reason => "TypeError(" ++ reason ++ ")"

end FormatFault

/-- Why a telecommand is answered by an error. -/
inductive CommandError where
  | notRecognized
  | notRecognizedType
  | malformed
  | notConnected
  | unreachable
  | wrongArgumentCount (id : Text) (expected got : Nat)
  | invalidArgument (id : Text) (index : Nat) (value expected : Text)
  | unparsableReply (id reply : Text)
  | template (id : Text) (fault : FormatFault)
  | rmapReply
  | link (error : LinkError)
  deriving DecidableEq, Repr

namespace CommandError

/-- The wording of a cause, as the operator reads it. -/
def message : CommandError → Text
  | notRecognized => "Not recognized command"
  | notRecognizedType => "Not recognized command type"
  | malformed => "Malformed command"
  | notConnected => "Not possible to perform command before connection is established"
  | unreachable => "Instrument is unreachable"
  | wrongArgumentCount id expected got =>
    "Wrong number of arguments for " ++ id ++ ": expected " ++ Text.ofNat expected ++ ", got " ++
      Text.ofNat got
  | invalidArgument id index value expected =>
    "Invalid argument " ++ Text.ofNat index ++ " for " ++ id ++ ": '" ++ value ++
      "' is not a valid " ++ expected
  | unparsableReply id reply => "Unable to parse reply for " ++ id ++ ": '" ++ reply ++ "'"
  | template id fault => "Unable to format command for " ++ id ++ ": " ++ fault.message
  | rmapReply => "RMAP Reply error"
  | link error => "Instrument communication error: " ++ error.message

/-- The answer to a failed exchange; a refused RMAP reply keeps its own wording. -/
def ofLink : LinkError → CommandError
  | .rmapReply => rmapReply
  | error => link error

end CommandError

/-! ## The station -/

/-- Why an operation of the whole station fails. -/
inductive StationError where
  | config (error : ConfigError)
  | link (error : LinkError)
  | io (failure : IoFailure)
  /-- A configuration file is not of the form it should have. -/
  | document
  deriving DecidableEq, Repr

namespace StationError

/-- The wording of a cause. -/
def message : StationError → Text
  | config error => "configuration error: " ++ error.message
  | link error => "transport error: " ++ error.message
  | io failure => "I/O error: " ++ failure.text
  | document => "YAML error"

end StationError

end GroundStation
