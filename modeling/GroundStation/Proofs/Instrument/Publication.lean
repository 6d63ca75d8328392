/-
# What a round of acquisition stores and what it publishes

A round stores values one by one and publishes responses in the end.  The two are told apart here: the
journal of a round lists what is stored, in order, with the parameter that it is stored for, and replaying
the journal on the memory before the round yields the memory behind it.  What a round hands to telemetry is
then compared with its journal.

A round that takes records finds the link lost before it stores anything, and publishes its journal whatever
happens.  A round that polls may lose the link in the middle, and then it publishes nothing: what it has
read until then is in the memory, and no operator is told.  So a round publishes its journal exactly if it
does not lose the link, or loses it with nothing stored (`round_publishes`).  In
`round_publishes_lossAfterStore` the link is lost on the second of two parameters.
-/
import GroundStation.Proofs.Instrument.Lifecycle
import GroundStation.Station.Service

namespace GroundStation

namespace Instrument

variable {δ : Type}

/-! ## Journals -/

/-- A value that is stored for a parameter. -/
structure Stored where
  parameter : Parameter
  value : Json

/-- The response that tells of a stored value. -/
def Stored.response (provider : Text) (s : Stored) : Response :=
  ⟨some provider, s.parameter.name, .get, some s.value⟩

/-- The memory with values stored one after another. -/
def replay (m : Memory) (journal : List Stored) : Memory :=
  journal.foldl (fun m s => m.store s.parameter.memoryKey s.value) m

/-- What a read stores. -/
def readValue? : Except Failure (Option Json) → Option Json
  | .ok value => value
  | .error _ => none

/-- What polling stores, read by read, until the link is lost. -/
def pollJournal (i : Instrument δ) : List Text → δ → List Stored
  | [], _ => []
  | name :: rest, d =>
    match i.parameter? name with
    | none => pollJournal i rest d
    | some p =>
      match i.read p [] d with
      | (.ok (some value), i, d) => ⟨p, value⟩ :: pollJournal i rest d
      | (.error (.lost _), _, _) => []
      | (_, i, d) => pollJournal i rest d

/-- What the field of a record has stored. -/
def fieldStored? (i : Instrument δ) (field : Text × Text) : Option Stored :=
  (i.fieldParameter? field.1).bind fun p => (fieldValue? p field.2).map fun v => ⟨p, v⟩

/-- What a round stores that takes what the device has sent. -/
def drainJournal (i : Instrument δ) (a : Record.Accumulator) (d : δ) : List Stored :=
  match (i.transport.readAvailable i.config d).1 with
  | .ok bytes => ((a.push bytes).1.flatMap Record.fields).filterMap i.fieldStored?
  | .error _ => []

/-- What a round stores. -/
def roundJournal (i : Instrument δ) (d : δ) : List Stored :=
  match i.worker, i.config.cyclic with
  | some a, some cyclic =>
    if i.state = .connected ∧ i.held then
      match cyclic.mode with
      | .poll => i.pollJournal cyclic.parameters d
      | .stream => i.drainJournal a d
    else []
  | _, _ => []

/-! ## Polling -/

/-- A read stores the value that it comes to, and nothing if it fails. -/
theorem read_eq_remember (i : Instrument δ) (p : Parameter) (args : List Text) (d : δ) :
    (i.read p args d).2.1 = i.remember p (readValue? (i.read p args d).1) := by
  unfold read
  split
  · rfl
  · split
    · split
      · rfl
      · next reply d' _ => cases p.parseReply (reply.getD []) <;> rfl
    · rfl

/-- What a round comes to, beside its journal: the memory is replayed, and the responses are those of the
journal unless the link is lost. -/
structure Accounts (i : Instrument δ) (journal : List Stored)
    (result : Option (List Response) × Instrument δ × δ) : Prop where
  memory : result.2.1.memory = replay i.memory journal
  responses : result.1 = none ∨ result.1 = some (journal.map (Stored.response i.provider))

/-- What is handed to telemetry is the journal, unless the link is lost with something stored. -/
theorem Accounts.published_iff {i : Instrument δ} {journal : List Stored}
    {result : Option (List Response) × Instrument δ × δ} (h : Accounts i journal result) :
    result.1.getD [] = journal.map (Stored.response i.provider) ↔ result.1 ≠ none ∨ journal = [] := by
  rcases h.responses with hnone | hsome
  · rw [hnone]
    constructor
    · exact fun hblank => .inr (List.map_eq_nil_iff.mp hblank.symm)
    · rintro (hkept | hblank)
      · exact absurd rfl hkept
      · rw [hblank]
        rfl
  · rw [hsome]
    exact iff_of_true rfl (.inl nofun)

/-- Every parameter stands under its name. -/
def Named (i : Instrument δ) : Prop := ∀ name p, i.parameter? name = some p → p.name = name

theorem named_of_assemble {registry : Registry δ} {c : InstrumentConfig} {i : Instrument δ}
    (accepted : assemble registry c = .ok i) : Named i := by
  obtain ⟨_, parameters, -, hcompiled, -, rfl⟩ := assemble_eq_ok accepted
  intro name p h
  exact (mem_compileParameters hcompiled (Keyed.mem_of_get? h)).1

theorem SameMake.named {i j : Instrument δ} (h : SameMake i j) (named : Named i) : Named j := by
  intro name p hp
  refine named name p ?_
  rw [parameter?, ← h.parameters]
  exact hp

theorem accounts_pollFrom (names : List Text) :
    ∀ {i : Instrument δ}, Named i → ∀ d : δ,
      Accounts i (i.pollJournal names d) (i.pollFrom names d) := by
  induction names with
  | nil => exact fun _ d => ⟨rfl, .inr rfl⟩
  | cons name rest ih =>
      intro i named d
      rw [pollFrom, pollJournal]
      cases hp : i.parameter? name with
      | none => exact ih named d
      | some p =>
          have hread := read_eq_remember i p [] d
          dsimp only
          rcases hresult : i.read p [] d with ⟨(e | e) | _ | value, j, d'⟩
          all_goals
            rw [hresult] at hread
            dsimp only [readValue?] at hread
            subst hread
          · exact ih named d'
          · exact ⟨rfl, .inl rfl⟩
          · exact ih named d'
          · have named' : Named (i.remember p (some value)) := named
            obtain ⟨hmemory, hresponses⟩ := ih named' d'
            refine ⟨hmemory, ?_⟩
            -- the response is made when all is read, by an instrument of the same make
            have hprovider := (sameMake_pollFrom d' rest (i.remember p (some value))).provider
            dsimp only
            rcases hresponses with hnone | hsome
            · rw [hnone]
              exact .inl rfl
            · rw [hsome, unsolicited, hprovider, ← named name p hp]
              exact .inr rfl

/-! ## Records -/

theorem accounts_absorb (fields : List (Text × Text)) :
    ∀ i : Instrument δ,
      (i.absorb fields).1 = (fields.filterMap i.fieldStored?).map (Stored.response i.provider) ∧
      (i.absorb fields).2.memory = replay i.memory (fields.filterMap i.fieldStored?) := by
  induction fields with
  | nil => exact fun i => ⟨rfl, rfl⟩
  | cons field rest ih =>
      intro i
      obtain ⟨key, text⟩ := field
      rw [absorb, List.filterMap_cons, fieldStored?]
      cases hparameter : i.fieldParameter? key with
      | none => exact ih i
      | some p =>
          simp only [Option.bind_some]
          cases fieldValue? p text with
          | none => exact ih i
          | some value =>
              obtain ⟨hresponses, hmemory⟩ := ih (i.remember p (some value))
              obtain ⟨m, hsame⟩ := absorb_eq rest (i.remember p (some value))
              refine ⟨?_, hmemory⟩
              simp only [Option.map_some, List.map_cons, hresponses, hsame]
              rfl

theorem accounts_drain (i : Instrument δ) (a : Record.Accumulator) (d : δ) :
    Accounts i (i.drainJournal a d) (i.drain a d) ∧ ((i.drain a d).1 = none → i.drainJournal a d = []) := by
  rw [drain, drainJournal]
  rcases i.transport.readAvailable i.config d with ⟨e | bytes, d'⟩
  · dsimp only
    split
    · exact ⟨⟨rfl, .inl rfl⟩, fun _ => rfl⟩
    · exact ⟨⟨rfl, .inr rfl⟩, fun _ => rfl⟩
  · obtain ⟨hresponses, hmemory⟩ :=
      accounts_absorb ((a.push bytes).1.flatMap Record.fields) { i with worker := some (a.push bytes).2 }
    refine ⟨⟨hmemory, .inr (congrArg some hresponses)⟩, fun h => ?_⟩
    cases h

/-! ## Rounds -/

theorem accounts_round {i : Instrument δ} (named : Named i) (d : δ) :
    Accounts i (i.roundJournal d) (i.round d) := by
  have hidle : Accounts i [] (none, i, d) := ⟨rfl, .inl rfl⟩
  rw [round, roundJournal]
  cases i.worker with
  | none => exact hidle
  | some a =>
    cases i.config.cyclic with
    | none => exact hidle
    | some cyclic =>
      dsimp only
      by_cases linked : i.state = .connected ∧ i.held
      · rw [if_pos linked, if_pos linked]
        cases cyclic.mode with
        | poll => exact accounts_pollFrom _ named d
        | stream => exact (accounts_drain i a d).1
      · rw [if_neg linked, if_neg linked]
        exact hidle

/-- A round that takes what the device has sent loses the link with nothing stored. -/
theorem roundJournal_of_stream {i : Instrument δ} {cyclic : CyclicConfig}
    (configured : i.config.cyclic = some cyclic) (stream : cyclic.mode = .stream) {d : δ}
    (lost : (i.round d).1 = none) : i.roundJournal d = [] := by
  rw [round, configured] at lost
  rw [roundJournal, configured]
  cases hworker : i.worker with
  | none => rfl
  | some a =>
      rw [hworker] at lost
      dsimp only at lost ⊢
      rw [stream] at lost ⊢
      by_cases linked : i.state = .connected ∧ i.held
      · rw [if_pos linked] at lost ⊢
        exact (accounts_drain i a d).2 lost
      · rw [if_neg linked]

/-- In every round of an instrument that is accepted, whatever was done with it and whatever its devices do:
replaying the journal yields the memory, and what is handed to telemetry are the responses of the journal, in
order, exactly if the link is not lost or nothing was stored.  A round that takes what the device has sent
always publishes its journal. -/
theorem round_publishes {registry : Registry δ} {c : InstrumentConfig} {i : Instrument δ}
    (accepted : assemble registry c = .ok i) (ops : List Operation) (d : δ) :
    ∃ j d', run ops i d = (j, d') ∧
      ∃ published k d'', j.round d' = (published, k, d'') ∧
        k.memory = replay j.memory (j.roundJournal d') ∧
        (published.getD [] = (j.roundJournal d').map (Stored.response c.provider) ↔
          published ≠ none ∨ j.roundJournal d' = []) ∧
        (∀ cyclic, c.cyclic = some cyclic → cyclic.mode = .stream →
          published.getD [] = (j.roundJournal d').map (Stored.response c.provider)) ∧
        ∀ (s : Station δ) (index : Nat) (handles : List Handle),
          s.services[index]? = some ⟨j, handles⟩ → s.devices = d' →
          Station.acquire index s = Station.announce (published.getD []) (s.withInstrument index k d'') := by
  have make := sameMake_run ops i d
  have named := make.named (named_of_assemble accepted)
  have config : (run ops i d).1.config = c := by
    obtain ⟨_, _, -, -, -, rfl⟩ := assemble_eq_ok accepted
    exact make.config
  obtain ⟨j, d', hrun⟩ : ∃ j d', run ops i d = (j, d') := ⟨_, _, rfl⟩
  rw [hrun] at named config
  dsimp only at named config
  have accounts := accounts_round named d'
  have published_iff := accounts.published_iff
  have provider : j.provider = c.provider := congrArg InstrumentConfig.provider config
  obtain ⟨published, k, d'', hround⟩ : ∃ published k d'', j.round d' = (published, k, d'') := ⟨_, _, _, rfl⟩
  rw [provider, hround] at published_iff
  have hmemory := accounts.memory
  rw [hround] at hmemory
  refine ⟨j, d', hrun, published, k, d'', hround, hmemory, published_iff, ?_, ?_⟩
  · intro cyclic configured stream
    refine published_iff.mpr ?_
    by_cases lost : published = none
    · exact .inr (roundJournal_of_stream (config ▸ configured) stream (by rw [hround]; exact lost))
    · exact .inl lost
  · intro s index handles hservice hdevices
    rw [Station.acquire, hservice, hdevices]
    dsimp only
    rw [hround]

/-- The supply with two parameters of a type that are polled in turn, each given by its name and its query. -/
def polledPair (type : Text) (first second : Text × Text) : InstrumentConfig :=
  { InstrumentConfig.supply with
    cyclic := some ⟨.poll, 10, [first.1, second.1]⟩
    parameters := [first, second].map fun (name, query) =>
      (name, ⟨name, some type, none, none, some ⟨none, [⟨none, some query⟩]⟩, none⟩) }

/-- The supply with two texts. -/
def panelConfig : InstrumentConfig := polledPair "str" ("label", "L?") ("mode", "M?")

/-- A bench where the label is reported, and the mode as given. -/
def panelBench (mode : Turn) : Bench := ⟨[("psu", ⟨[], [("L?", [.ok "main"]), ("M?", [mode])], none, []⟩)]⟩

/-- The supply is opened. -/
def panelOperations : List Operation := [.execute ⟨some "psu", connectName, .set, []⟩]

/-- The second text is not given in time, and the first is published all the same. -/
theorem round_publishes_timeout :
    ∃ i : Instrument Bench, assemble Bench.registry panelConfig = .ok i ∧
      ∃ j d', run panelOperations i (panelBench (.error .timeout)) = (j, d') ∧
        ∃ published k d'', j.round d' = (published, k, d'') ∧
          published = some [⟨some "psu", "label", .get, some (.str "main")⟩] ∧
          k.memory = replay j.memory (j.roundJournal d') ∧
          published.getD [] = (j.roundJournal d').map (Stored.response panelConfig.provider) := by
  obtain ⟨i, accepted⟩ : ∃ i, assemble Bench.registry panelConfig = .ok i := ⟨_, rfl⟩
  obtain ⟨j, d', hrun, published, k, d'', hround, hmemory, hiff, -, -⟩ :=
    round_publishes accepted panelOperations (panelBench (.error .timeout))
  have hpublished : published = some [⟨some "psu", "label", .get, some (.str "main")⟩] := by
    cases accepted
    cases hrun
    exact (congrArg Prod.fst hround).symm
  refine ⟨i, accepted, j, d', hrun, published, k, d'', hround, hpublished, hmemory, hiff.mpr (.inl ?_)⟩
  rw [hpublished]
  exact nofun

/-- The supply with two numbers. -/
def gaugeConfig : InstrumentConfig := polledPair "float" ("a", "A?") ("b", "B?")

/-- A bench where the first number is 1.5, and the link is found closed on the second. -/
def gaugeBench : Bench := ⟨[("psu", ⟨[], [("A?", [.ok "1.5"]), ("B?", [.error .closed])], none, []⟩)]⟩

/-- The number 1.5. -/
def oneAndAHalf : Json := .float ⟨false, 3 * 2 ^ 51, -52⟩

theorem parse?_oneAndAHalf : ValueType.float.parse? "1.5" = some oneAndAHalf := by
  have trimmed : Text.trim "1.5" = "1.5" := by decide
  have read : Decimal.read? "1.5" = some (.finite ⟨false, 3 * 2 ^ 51, -52⟩) := by decide +kernel
  simp only [ValueType.parse?, trimmed, read, oneAndAHalf]

/-- The link is lost on the second number: the first is in the memory, and nothing is published. -/
theorem round_publishes_lossAfterStore :
    ∃ i : Instrument Bench, assemble Bench.registry gaugeConfig = .ok i ∧
      ∃ j d', run panelOperations i gaugeBench = (j, d') ∧
        ∃ published k d'', j.round d' = (published, k, d'') ∧
          j.memory.get? "a" = none ∧ k.memory.get? "a" = some oneAndAHalf ∧
          (j.roundJournal d').map (Stored.response gaugeConfig.provider) =
            [⟨some "psu", "a", .get, some oneAndAHalf⟩] ∧
          published.getD [] = [] := by
  rw [← parse?_oneAndAHalf]
  exact ⟨_, rfl, _, _, rfl, _, _, _, rfl, rfl, rfl, rfl, rfl⟩

end Instrument

end GroundStation
