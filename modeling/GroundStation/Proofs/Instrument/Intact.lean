/-
# A failed request leaves the instrument intact

In whatever state an instrument has come to be, a request to it is answered, and what the answer says of
the instrument is so (`execute_intact`): behind an error the memory is what it was, and behind a success
it is what it was but for the key of the parameter, which has the value of the answer, if there is one.
To open or close the link never touches it.  A request for whose refusal there is a cause is refused for
such a cause, and then nothing was sent, and nothing of the instrument has changed.

That nothing was sent is said twice: the devices are in the state in which they were, whatever that state
records, and so is the ledger of links beside them.
-/
import GroundStation.Proofs.Instrument.Refusal

namespace GroundStation

namespace Instrument

variable {δ : Type}

/-- What the response to a request tells of the instrument and its devices, before and after. -/
structure Intact (i : Instrument δ) (d : δ) (r : Request) (response : Response) (j : Instrument δ)
    (d' : δ) : Prop where
  error : response.isError = true → j.memory = i.memory
  success : response.isError = false → r.movesLink = false →
    ∃ p, i.parameter? r.id = some p ∧ ∀ key, j.memory.get? key =
      if p.memoryKey = key then response.value.or (i.memory.get? key) else i.memory.get? key
  link : r.movesLink = true → j.memory = i.memory
  refused : (∃ e, Refusal i r e) →
    (∃ e, Refusal i r e ∧ response = .errorFor r e) ∧ j = i ∧ d' = d ∧
      ∀ ledger, (i.audited.execute r (d, ledger)).2 = (i.audited, d, ledger)
  /-- The errors that a refusal is answered by are given for no other reason. -/
  cause : ∀ e, (i.perform r d).1 = .error e → e.isRefusal = true → Refusal i r e

theorem isError_respond_ok (r : Request) (value : Option Json) :
    (respond r (.ok value)).isError = false := by
  rw [Response.isError, respond]
  cases r.kind <;> rfl

theorem get?_remember (i : Instrument δ) (p : Parameter) (value : Option Json) (key : Text) :
    (i.remember p value).memory.get? key =
      if p.memoryKey = key then value.or (i.memory.get? key) else i.memory.get? key := by
  cases value with
  | none => exact (ite_self _).symm
  | some v => exact Memory.get?_store i.memory p.memoryKey key v

variable {i : Instrument δ} {r : Request} {d : δ}

/-- A request with a cause for its refusal is refused for one, and nothing happens. -/
theorem perform_of_refusal (settled : Settled i) (h : ∃ e, Refusal i r e) (d : δ) :
    ∃ e, Refusal i r e ∧ i.perform r d = (.error e, i, d) := by
  have outcome := outcome_perform settled r d
  generalize i.perform r d = result at outcome ⊢
  cases outcome with
  | refused hrefusal => exact ⟨_, hrefusal, rfl⟩
  | performed hnone _ =>
      obtain ⟨e, he⟩ := h
      exact absurd he (hnone e)

/-- Only a refusal is answered as one. -/
theorem refusal_of_perform (settled : Settled i) {e : CommandError}
    (h : (i.perform r d).1 = .error e) (he : e.isRefusal = true) : Refusal i r e := by
  have outcome := outcome_perform settled r d
  generalize i.perform r d = result at outcome h
  cases outcome with
  | refused hrefusal =>
      cases h
      exact hrefusal
  | performed _ hperformed =>
      cases hperformed with
      | failed d hother =>
          cases h
          rw [hother] at he
          cases he
      | exchanged value d => cases h
      | moved d => cases h

/-- The memory is as it was, unless a parameter was read or written with success. -/
theorem memory_of_outcome {result : Except CommandError (Option Json) × Instrument δ × δ}
    (h : Outcome i r d result) :
    result.2.1.memory = i.memory ∨ ∃ value, result.1 = .ok value ∧ r.movesLink = false := by
  cases h with
  | refused => exact .inl rfl
  | performed _ hperformed =>
      cases hperformed with
      | failed d _ hmemory => exact .inl hmemory
      | exchanged value d hstays => exact .inr ⟨value, rfl, hstays⟩
      | moved d _ hmemory => exact .inl hmemory

theorem execute_addressed (addressed : r.provider = some i.provider) (d : δ) :
    i.execute r d = (some (respond r (i.perform r d).1), (i.perform r d).2) := by
  rw [execute, if_pos addressed]

theorem execute_of_refusal (settled : Settled i) (addressed : r.provider = some i.provider)
    (h : ∃ e, Refusal i r e) (d : δ) :
    ∃ e, Refusal i r e ∧ i.execute r d = (some (.errorFor r e), i, d) := by
  obtain ⟨e, he, hperform⟩ := perform_of_refusal settled h d
  refine ⟨e, he, ?_⟩
  rw [execute_addressed addressed, hperform]
  rfl

/-- What becomes of a settled instrument when it executes a request. -/
theorem intact_execute (settled : Settled i) (addressed : r.provider = some i.provider) (d : δ) :
    Intact i d r (respond r (i.perform r d).1) (i.perform r d).2.1 (i.perform r d).2.2 := by
  have outcome := outcome_perform settled r d
  constructor
  case error =>
    intro herror
    rcases memory_of_outcome outcome with hsame | ⟨value, hok, -⟩
    · exact hsame
    · rw [hok, isError_respond_ok] at herror
      cases herror
  case success =>
    generalize i.perform r d = result at outcome ⊢
    intro hok hmoves
    cases outcome with
    | refused => cases hok
    | performed _ hperformed =>
        cases hperformed with
        | failed => cases hok
        | @exchanged p value d _ named => exact ⟨p, named, get?_remember i p value⟩
        | moved d hmoved => cases hmoves.symm.trans hmoved
  case link =>
    intro hmoves
    rcases memory_of_outcome outcome with hsame | ⟨value, -, hstays⟩
    · exact hsame
    · cases hmoves.symm.trans hstays
  case refused =>
    intro h
    obtain ⟨e, he, hperform⟩ := perform_of_refusal settled h d
    rw [hperform]
    refine ⟨⟨e, he, rfl⟩, rfl, rfl, fun ledger => ?_⟩
    -- the same holds of the instrument whose devices keep a ledger, and there it says that the ledger is
    -- what it was
    have settled' : Settled i.audited := ⟨settled.state, settled.held, settled.worker⟩
    obtain ⟨e', -, hexecute⟩ := execute_of_refusal settled' addressed ⟨e, he.audited⟩ (d, ledger)
    rw [hexecute]
  case cause => exact fun e => refusal_of_perform settled

/-- For every instrument that is accepted, whatever was done with it and whatever its devices do: a
request that names it is answered, and leaves of it what the response tells. -/
theorem execute_intact {registry : Registry δ} {c : InstrumentConfig}
    (accepted : assemble registry c = .ok i) (ops : List Operation) (d : δ)
    (addressed : r.provider = some i.provider) :
    ∃ j d', run ops i d = (j, d') ∧
      ∃ response k d'', j.execute r d' = (some response, k, d'') ∧ Intact j d' r response k d'' := by
  have settled : Settled (run ops i d).1 := (settled_of_assemble accepted).run ops
  have addressed' : r.provider = some (run ops i d).1.provider := by
    rw [(sameMake_run ops i d).provider]
    exact addressed
  exact ⟨_, _, rfl, _, _, _, execute_addressed addressed' _, intact_execute settled addressed' _⟩

def voltage : Parameter := ⟨"volt", "voltage", some .float, "volt", none, some [.query "V?"], none⟩

/-- The supply as it is put together. -/
def supply : Instrument Bench where
  config := .supply
  parameters := [("volt", voltage)]
  transport := Bench.transport
  memory := .empty
  state := .disconnected
  held := false
  worker := none

/-- The voltage of the supply is to be read, and an argument is given for it. -/
def misreading : Request := ⟨some "psu", "volt", .get, ["5"]⟩

/-- Opened at the second attempt, the supply refuses to be read with an argument, and is not asked. -/
theorem execute_intact_supply :
    assemble Bench.registry .supply = .ok supply ∧ misreading.provider = some supply.provider ∧
      ∃ j d', run (supplyOperations.take 2) supply .supply = (j, d') ∧ j.state = .connected ∧
        ∃ response k d'', j.execute misreading d' = (some response, k, d'') ∧
          Intact j d' misreading response k d'' ∧
          Refusal j misreading (.wrongArgumentCount "volt" 0 1) ∧ k = j ∧ d'' = d' := by
  have accepted : assemble Bench.registry .supply = .ok supply := rfl
  have addressed : misreading.provider = some supply.provider := rfl
  obtain ⟨j, d', hrun, response, k, d'', hexecute, intact⟩ :=
    execute_intact accepted (supplyOperations.take 2) .supply addressed
  have hconnected : j.state = .connected := (congrArg (fun s => s.1.state) hrun).symm
  have hnamed : j.parameter? misreading.id = some voltage :=
    (congrArg (fun s => s.1.parameter? misreading.id) hrun).symm
  have hargs : misreading.args ≠ [] := by decide
  have hrefusal : Refusal j misreading (.wrongArgumentCount voltage.name 0 1) :=
    .readArguments rfl hnamed hargs
  obtain ⟨-, hsame, hdevices, -⟩ := intact.refused ⟨_, hrefusal⟩
  exact ⟨accepted, addressed, j, d', hrun, hconnected, response, k, d'', hexecute, intact, hrefusal,
    hsame, hdevices⟩

end Instrument

end GroundStation
