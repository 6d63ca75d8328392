/-
# Topics

What the components of a station tell each other travels under eight topics.  An operator's bytes become
requests and requests for instruments; results become telemetry and lines for the operators:

    raw_tc → tc → io_service_request → io_result → tm → raw_tm

Beside this path instruments announce their parameters, and the end of service is announced to all.
A bus also carries any other topic.
-/
import GroundStation.Text.Basic

namespace GroundStation

/-- What a message is about. -/
inductive Topic where
  /-- Bytes from operators. -/
  | rawTc
  /-- Requests of operators. -/
  | tc
  /-- Requests addressed to an instrument. -/
  | ioRequest
  /-- Answers of instruments. -/
  | ioResult
  /-- Answers and telemetry for operators. -/
  | tm
  /-- Lines for operators. -/
  | rawTm
  /-- Parameters that an instrument announces. -/
  | ioSignature
  /-- The end of service. -/
  | quit
  | other (name : Text)
  deriving DecidableEq, Repr

namespace Topic

/-- The name of a topic. -/
def name : Topic → Text
  | rawTc => "raw_tc"
  | tc => "tc"
  | ioRequest => "io_service_request"
  | ioResult => "io_result"
  | tm => "tm"
  | rawTm => "raw_tm"
  | ioSignature => "io_service_signature"
  | quit => "quit"
  | other name => name

/-- The topics of a station. -/
def standard : List Topic := [rawTc, tc, ioRequest, ioResult, tm, rawTm, ioSignature, quit]

/-- The topic of a name. -/
def named (name : Text) : Topic :=
  (standard.find? fun t => decide (t.name = name)).getD (other name)

end Topic

end GroundStation
