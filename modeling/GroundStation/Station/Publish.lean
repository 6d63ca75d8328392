/-
# Publishing

What a station does with a message depends on the topic.  Each listener publishes only on topics further
along the path from operators to instruments and back,

    raw_tc → tc → io_service_request → io_result → tm → raw_tm

so publishing is defined topic by topic, from the end of the path to its beginning.  The first failure of
a listener ends a publish, and every publish that it is part of.
-/
import GroundStation.Station.Basic

namespace GroundStation

namespace Station

variable {δ : Type}

/-! ## From telemetry to lines -/

/-- Sends a line to a client. -/
def sendTo (s : Station δ) (index : Nat) (line : Text) : Station δ :=
  { s with server := { s.server with
    clients := s.server.clients.modify index fun c => { c with sent := line :: c.sent } } }

/-- A listener of `raw_tm`. -/
def hearRawTm (m : Message) (listener : Listener) (s : Station δ) :
    Except StationError Unit × Station δ :=
  match listener, m with
  | .client index, .line line => (.ok (), s.sendTo index line)
  | listener, m => overhear .rawTm m listener s

/-- Publishes on `raw_tm`. -/
def publishRawTm (m : Message) (s : Station δ) : Except StationError Nat × Station δ :=
  s.tell .rawTm (hearRawTm m)

/-- A listener of `tm`. -/
def hearTm (m : Message) (listener : Listener) (s : Station δ) :
    Except StationError Unit × Station δ :=
  match listener, m with
  | .lineWriter, .response r => ignoreCount (publishRawTm (.line (Wire.replyLine r s.now)) s)
  | listener, m => overhear .tm m listener s

/-- Publishes on `tm`. -/
def publishTm (m : Message) (s : Station δ) : Except StationError Nat × Station δ :=
  s.tell .tm (hearTm m)

/-- Sends a response to the operators. -/
def reply (r : Response) (s : Station δ) : Except StationError Unit × Station δ :=
  ignoreCount (publishTm (.response r) s)

/-! ## From instruments to telemetry -/

/-- The answer of an instrument, where one is waited for: the first to come is the one. -/
def answer (r : Response) (s : Station δ) : Except StationError Unit × Station δ :=
  match s.controller.pending with
  | none => (.ok (), s)
  | some handle => reply r ((s.withPending none).cancelAll [handle])

/-- A listener of `io_result`. -/
def hearIoResult (m : Message) (listener : Listener) (s : Station δ) :
    Except StationError Unit × Station δ :=
  match listener, m with
  | .oneShot, .response r => answer r s
  | listener, m => overhear .ioResult m listener s

/-- Publishes on `io_result`. -/
def publishIoResult (m : Message) (s : Station δ) : Except StationError Nat × Station δ :=
  s.tell .ioResult (hearIoResult m)

/-! ## From requests to instruments -/

/-- Lets the instrument at an index answer a request. -/
def serve (index : Nat) (r : Request) (s : Station δ) : Except StationError Unit × Station δ :=
  match s.services[index]? with
  | none => (.ok (), s)
  | some v =>
    match v.instrument.execute r s.devices with
    | (none, i, d) => (.ok (), s.withInstrument index i d)
    | (some response, i, d) =>
      ignoreCount (publishIoResult (.response response) (s.withInstrument index i d))

/-- A listener of `io_service_request`. -/
def hearIoRequest (m : Message) (listener : Listener) (s : Station δ) :
    Except StationError Unit × Station δ :=
  match listener, m with
  | .instrument index, .request r => serve index r s
  | listener, m => overhear .ioRequest m listener s

/-- Publishes on `io_service_request`. -/
def publishIoRequest (m : Message) (s : Station δ) : Except StationError Nat × Station δ :=
  s.tell .ioRequest (hearIoRequest m)

/-! ## From operators to requests -/

/-- What a question about a parameter is answered by. -/
def description (e : CatalogEntry) : Json :=
  .obj [("description", .str e.description), ("signature", e.signature)]

/-- The accessor that a request is about; a `helo` is about none. -/
def accessor? : RequestKind → Option Accessor
  | .helo => none
  | .get | .getMeta => some .get
  | .set | .setMeta => some .set

/-- Waits for the next answer of an instrument, and no longer for an earlier one. -/
def await (s : Station δ) : Station δ :=
  let (handle, t) := s.subscribe .ioResult .oneShot
  (t.withPending (some handle)).cancelAll s.controller.pending.toList

/-- The request as it goes to the instrument of an entry. -/
def readdress (r : Request) (e : CatalogEntry) : Request := ⟨some e.provider, e.id, r.kind, r.args⟩

/-- Answers a request, or passes it on to the instrument that the catalog names. -/
def dispatch (r : Request) (s : Station δ) : Except StationError Unit × Station δ :=
  match accessor? r.kind with
  | none => reply (.helo r.id) s
  | some accessor =>
    match s.catalog.get? r.qualifiedId accessor with
    | none => reply (.errorFor r .notRecognized) s
    | some e =>
      if r.kind = .get ∨ r.kind = .set then
        ignoreCount (publishIoRequest (.request (readdress r e)) s.await)
      else reply ⟨r.provider, r.id, r.kind.answer, some (description e)⟩ s

/-- A listener of `tc`. -/
def hearTc (m : Message) (listener : Listener) (s : Station δ) :
    Except StationError Unit × Station δ :=
  match listener, m with
  | .dispatcher, .request r => dispatch r s
  | listener, m => overhear .tc m listener s

/-- Publishes on `tc`. -/
def publishTc (m : Message) (s : Station δ) : Except StationError Nat × Station δ :=
  s.tell .tc (hearTc m)

/-- Passes on what came of lines, one after another. -/
def passOn : List Wire.ParsedLine → Station δ → Except StationError Unit × Station δ
  | [], s => (.ok (), s)
  | line :: rest, s =>
    let outcome := match line with
      | .request r => publishTc (.request r) s
      | .rejected r => publishTm (.response r) s
    match outcome with
    | (.error e, s) => (.error e, s)
    | (.ok _, s) => passOn rest s

/-- A listener of `raw_tc`. -/
def hearRawTc (m : Message) (listener : Listener) (s : Station δ) :
    Except StationError Unit × Station δ :=
  match listener, m with
  | .lineReader, .raw bytes => passOn (Wire.parseBuffer bytes) s
  | listener, m => overhear .rawTc m listener s

/-- Publishes on `raw_tc`. -/
def publishRawTc (m : Message) (s : Station δ) : Except StationError Nat × Station δ :=
  s.tell .rawTc (hearRawTc m)

/-! ## Beside the path -/

/-- Takes a batch of entries into the catalog. -/
def register (batch : List CatalogEntry) (s : Station δ) : Except ConfigError Unit × Station δ :=
  match s.catalog.register batch with
  | .ok catalog => (.ok (), s.withCatalog catalog)
  | .error e => (.error e, s)

/-- A listener of `io_service_signature`. -/
def hearIoSignature (m : Message) (listener : Listener) (s : Station δ) :
    Except StationError Unit × Station δ :=
  match listener, m with
  | .catalogKeeper, .entries batch =>
    match register batch s with
    | (.ok (), s) => (.ok (), s)
    | (.error e, s) => (.error (.config e), s)
  | listener, m => overhear .ioSignature m listener s

/-- Takes the instrument at an index out of service. -/
def shutInstrument (index : Nat) (s : Station δ) : Station δ :=
  match s.services[index]? with
  | none => s
  | some v =>
    let (i, d) := v.instrument.shutdown s.devices
    s.withInstrument index i d

/-- Stops the server: its clients are disconnected. -/
def stopServer (s : Station δ) : Station δ :=
  let t := s.cancelAll (s.server.quit.toList ++ s.server.clients.map Client.telemetry)
  { t with server := ⟨s.server.clients.map fun c => { c with connected := false }, false, none⟩ }

/-- A listener of `quit`. -/
def hearQuit (m : Message) (listener : Listener) (s : Station δ) :
    Except StationError Unit × Station δ :=
  match listener, m with
  | .instrumentQuit index, .quit => (.ok (), s.shutInstrument index)
  | .serverQuit, .quit => (.ok (), s.stopServer)
  | listener, m => overhear .quit m listener s

/-! ## Any topic -/

/-- Publishes a message. -/
def publish (topic : Topic) (m : Message) (s : Station δ) : Except StationError Nat × Station δ :=
  match topic with
  | .rawTc => publishRawTc m s
  | .tc => publishTc m s
  | .ioRequest => publishIoRequest m s
  | .ioResult => publishIoResult m s
  | .tm => publishTm m s
  | .rawTm => publishRawTm m s
  | .ioSignature => s.tell .ioSignature (hearIoSignature m)
  | .quit => s.tell .quit (hearQuit m)
  | .other name => s.tell (.other name) (overhear (.other name) m)

end Station

end GroundStation
