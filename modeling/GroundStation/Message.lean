/-
# What travels on the bus

Operators' lines become requests, instruments answer with responses, and each instrument announces its
parameters as catalog entries.  A parameter is addressed by its qualified id `provider_id`; a request
may carry the provider apart or, without one, the whole qualified id.
-/
import GroundStation.Signature

namespace GroundStation

/-- Joins a provider and the bare id of a parameter. -/
def qualify (provider id : Text) : Text := provider ++ '_' :: id

/-- What a request asks for. -/
inductive RequestKind where
  | get
  | set
  | helo
  | getMeta
  | setMeta
  deriving DecidableEq, Repr

/-- What a response answers. -/
inductive ResponseKind where
  | get
  | set
  | helo
  | getMeta
  | setMeta
  | error
  deriving DecidableEq, Repr

/-- The kind of a successful answer. -/
def RequestKind.answer : RequestKind → ResponseKind
  | .get => .get
  | .set => .set
  | .helo => .helo
  | .getMeta => .getMeta
  | .setMeta => .setMeta

/-- A request of an operator, or the same re-addressed to an instrument. -/
structure Request where
  provider : Option Text
  id : Text
  kind : RequestKind
  args : List Text
  deriving DecidableEq

/-- An answer, or telemetry that nobody asked for. -/
structure Response where
  provider : Option Text
  id : Text
  kind : ResponseKind
  value : Option Json
  deriving DecidableEq

/-- The id with the provider, where there is one. -/
def qualified (provider : Option Text) (id : Text) : Text :=
  match provider with
  | some provider => qualify provider id
  | none => id

/-- The qualified id that a request addresses. -/
def Request.qualifiedId (r : Request) : Text := qualified r.provider r.id

namespace Response

/-- The qualified id that a response carries. -/
def qualifiedId (r : Response) : Text := qualified r.provider r.id

/-- Whether a response reports an error. -/
def isError (r : Response) : Bool := r.kind = .error

/-- The echo of a `helo`. -/
def helo (id : Text) : Response := ⟨none, id, .helo, none⟩

/-- The error answer to a request. -/
def errorFor (request : Request) (error : CommandError) : Response :=
  ⟨request.provider, request.id, .error, some (.str error.message)⟩

/-- The error answer to a line that never became a request. -/
def rejection (id : Text) (error : CommandError) : Response :=
  ⟨none, id, .error, some (.str error.message)⟩

end Response

/-- One entry of the parameter catalog.  The signature is kept as written; the catalog checks it. -/
structure CatalogEntry where
  provider : Text
  id : Text
  accessor : Accessor
  signature : Json
  description : Text
  deriving DecidableEq

/-- The qualified id of the parameter that an entry describes. -/
def CatalogEntry.qualifiedId (e : CatalogEntry) : Text := qualify e.provider e.id

/-- A message on the bus. -/
inductive Message where
  | request (request : Request)
  | response (response : Response)
  | entries (batch : List CatalogEntry)
  | raw (bytes : Bytes)
  | line (line : Text)
  | quit
  deriving DecidableEq

end GroundStation
