/-
# How many arguments an announced entry takes

An instrument announces each of its parameters with a signature, and every request for one is checked
against it, by the reading or the writing of a parameter or by the opening of the link.  A request with
another number of arguments is answered by an error that tells both numbers, and nothing else happens.

There is one exception, the closing of the link.  What is declared for it is checked, and an unsuited request
then closes the link without the declared steps; what is built in takes any arguments.  Either way the answer
is a success (`execute_arity`).
-/
import GroundStation.Proofs.Instrument.Intact

namespace GroundStation

/-- The kind of the requests that use an accessor. -/
def Accessor.request : Accessor → RequestKind
  | get => .get
  | set => .set

/-- The request for what an entry describes. -/
def CatalogEntry.request (e : CatalogEntry) (args : List Text) : Request :=
  ⟨some e.provider, e.id, e.accessor.request, args⟩

namespace Instrument

variable {δ : Type}

/-! ## What is announced -/

/-- What an entry stands for: to read a parameter, to write one, or to open or close the link where that is
not declared. -/
inductive Announced (i : Instrument δ) : CatalogEntry → Signature → Prop
  | reading {p : Parameter} {steps : List Step} : i.parameter? p.name = some p → p.getter = some steps →
      isLifecycle p.name = false →
      Announced i ⟨i.provider, p.name, .get, p.getSignature.toJson, p.description⟩ p.getSignature
  | writing {p : Parameter} {w : Setter} : i.parameter? p.name = some p → p.setter = some w →
      Announced i ⟨i.provider, p.name, .set, w.signature.toJson, p.description⟩ w.signature
  | builtIn {name : Text} (description : Text) : isLifecycle name = true → i.parameter? name = none →
      Announced i ⟨i.provider, name, .set, Signature.empty.toJson, description⟩ .empty

variable {i : Instrument δ} {e : CatalogEntry} {s : Signature}

theorem Announced.audited (h : Announced i e s) : Announced i.audited e s := by
  cases h with
  | reading named getter hlife => exact .reading named getter hlife
  | writing named setter => exact .writing named setter
  | builtIn description hlife undeclared => exact .builtIn description hlife undeclared

/-- The signature of an entry reads back. -/
theorem Announced.read_signature (h : Announced i e s) : Signature.read e.signature = .ok s := by
  cases h <;> exact Signature.read_toJson _

theorem Announced.provider (h : Announced i e s) : e.provider = i.provider := by
  cases h <;> rfl

/-- The compiled parameters of an instrument, each under its name and under no other. -/
structure WellNamed (i : Instrument δ) : Prop where
  parameter? : ∀ name p, (name, p) ∈ i.parameters → p.name = name ∧ i.parameter? name = some p
  readable : ∀ name p, (name, p) ∈ i.parameters → p.getter ≠ none → isLifecycle p.name = false

theorem wellNamed_of_assemble {registry : Registry δ} {c : InstrumentConfig}
    (distinct : (c.parameters.map Prod.fst).Nodup) (accepted : assemble registry c = .ok i) : WellNamed i := by
  obtain ⟨_, parameters, -, hcompiled, -, rfl⟩ := assemble_eq_ok accepted
  constructor
  · intro name p hmem
    refine ⟨(mem_compileParameters hcompiled hmem).1, Keyed.get?_of_mem ?_ hmem⟩
    rw [keys_compileParameters hcompiled]
    exact distinct
  · intro name p hmem hgetter
    rw [← Bool.not_eq_true]
    exact fun hlife => hgetter (setter_of_lifecycleFault? (mem_compileParameters hcompiled hmem).2 hlife).1

theorem SameMake.wellNamed {j : Instrument δ} (h : SameMake i j) (named : WellNamed i) : WellNamed j := by
  obtain ⟨hparameter, hreadable⟩ := named
  unfold Instrument.parameter? at hparameter
  rw [← h.parameters] at hparameter hreadable
  exact ⟨hparameter, hreadable⟩

/-- What the instrument of a configuration has become: of the same make, its parameters under their names, and
nothing left half done. -/
structure Reached (c : InstrumentConfig) (i j : Instrument δ) : Prop where
  make : SameMake i j
  config : j.config = c
  named : WellNamed j
  settled : Settled j

theorem Reached.provider {c : InstrumentConfig} {j : Instrument δ} (h : Reached c i j) : j.provider = c.provider :=
  congrArg InstrumentConfig.provider h.config

/-- Whatever is done with it, an accepted instrument stays that of its configuration. -/
theorem reached_run {registry : Registry δ} {c : InstrumentConfig} (accepted : assemble registry c = .ok i)
    (distinct : (c.parameters.map Prod.fst).Nodup) (ops : List Operation) (d : δ) : Reached c i (run ops i d).1 where
  make := sameMake_run ops i d
  config := (sameMake_run ops i d).config.trans (config_of_assemble accepted)
  named := (sameMake_run ops i d).wellNamed (wellNamed_of_assemble distinct accepted)
  settled := (settled_of_assemble accepted).run ops

theorem announced_of_mem_parameterEntries {p : Parameter} (named : i.parameter? p.name = some p)
    (readable : p.getter ≠ none → isLifecycle p.name = false) (h : e ∈ parameterEntries i.provider p) :
    ∃ s, Announced i e s := by
  unfold parameterEntries at h
  rcases List.mem_append.mp h with h | h
  · cases hgetter : p.getter with
    | none =>
        rw [hgetter] at h
        exact absurd h List.not_mem_nil
    | some steps =>
        rw [hgetter] at h readable
        cases List.mem_singleton.mp h
        exact ⟨_, .reading named hgetter (readable nofun)⟩
  · cases hsetter : p.setter with
    | none =>
        rw [hsetter] at h
        exact absurd h List.not_mem_nil
    | some w =>
        rw [hsetter] at h
        cases List.mem_singleton.mp h
        exact ⟨_, .writing named hsetter⟩

theorem announced_of_mem_lifecycleEntry {name description : Text} (hlife : isLifecycle name = true)
    (h : e ∈ i.lifecycleEntry name description) : ∃ s, Announced i e s := by
  unfold lifecycleEntry at h
  cases undeclared : i.parameter? name with
  | some p =>
      rw [undeclared] at h
      exact absurd h List.not_mem_nil
  | none =>
      rw [undeclared] at h
      cases List.mem_singleton.mp h
      exact ⟨_, .builtIn description hlife undeclared⟩

theorem announced_of_mem_entries (named : WellNamed i) (h : e ∈ i.entries) : ∃ s, Announced i e s := by
  unfold entries at h
  rcases List.mem_append.mp h with h | hcloses
  · rcases List.mem_append.mp h with hdeclared | hopens
    · obtain ⟨⟨name, p⟩, hmem, he⟩ := List.mem_flatMap.mp hdeclared
      obtain ⟨hname, hparameter⟩ := named.parameter? name p hmem
      exact announced_of_mem_parameterEntries (hname ▸ hparameter) (named.readable name p hmem) he
    · exact announced_of_mem_lifecycleEntry rfl hopens
  · exact announced_of_mem_lifecycleEntry rfl hcloses

/-! ## A request with another number of arguments -/

variable {args : List Text} {d : δ}

theorem not_isEmpty_of_count (unsuited : args.length ≠ 0) : ¬args.isEmpty = true := by
  rw [List.isEmpty_iff]
  exact fun hnil => unsuited (List.length_eq_zero_iff.mpr hnil)

theorem setter?_of_declared {p : Parameter} {w : Setter} (named : i.parameter? p.name = some p)
    (setter : p.setter = some w) : i.setter? p.name = some (p, w) := by
  rw [setter?, named, Option.bind_some, setter]
  rfl

theorem setter?_of_undeclared {name : Text} (undeclared : i.parameter? name = none) : i.setter? name = none := by
  rw [setter?, undeclared]
  rfl

theorem checkArgs_of_count {p : Parameter} {w : Setter} (unsuited : args.length ≠ w.signature.arity) :
    p.checkArgs w args = .error (.wrongArgumentCount p.name w.signature.arity args.length) := by
  rw [Parameter.checkArgs, if_pos unsuited]

theorem read_of_count {p : Parameter} {steps : List Step} (getter : p.getter = some steps)
    (unsuited : args.length ≠ 0) (d : δ) : i.read p args d = (.error (.command (.wrongArgumentCount p.name 0 args.length)), i, d) := by
  rw [read, getter]
  exact if_neg (not_isEmpty_of_count unsuited)

theorem write_of_count {p : Parameter} {w : Setter} (setter : p.setter = some w)
    (unsuited : args.length ≠ w.signature.arity) (d : δ) :
    i.write p args d = (.error (.command (.wrongArgumentCount p.name w.signature.arity args.length)), i, d) := by
  rw [write, setter]
  dsimp only
  rw [checkArgs_of_count unsuited]

/-- Unless it closes the link, the request is refused for the number of its arguments. -/
theorem perform_of_count (linked : i.state = .connected ∧ i.held) (announced : Announced i e s)
    (stays : e.id ≠ disconnectName) (unsuited : args.length ≠ s.arity) (d : δ) :
    i.perform (e.request args) d = (.error (.wrongArgumentCount e.id s.arity args.length), i, d) := by
  cases announced with
  | @reading p steps named getter hlife =>
      rw [perform]
      show i.command _ d = _
      rw [command_eq_conclude named linked]
      show conclude (i.read p args d) = _
      rw [read_of_count getter unsuited]
      rfl
  | @writing p w named setter =>
      rw [perform]
      show (if p.name = connectName then i.connect args d
        else if p.name = disconnectName then _ else i.command _ d) = _
      by_cases opens : p.name = connectName
      · have hdeclared : i.setter? connectName = some (p, w) := opens ▸ setter?_of_declared named setter
        have hfault : i.connectFault? args = some (.wrongArgumentCount p.name w.signature.arity args.length) := by
          rw [connectFault?, hdeclared]
          dsimp only
          rw [checkArgs_of_count unsuited]
        rw [if_pos opens, connect, hfault]
      · rw [if_neg opens, if_neg stays, command_eq_conclude named linked]
        show conclude (i.write p args d) = _
        rw [write_of_count setter unsuited]
        rfl
  | @builtIn name description hlife undeclared =>
      have opens : name = connectName := by
        rcases of_decide_eq_true hlife with hopens | hcloses
        · exact hopens
        · exact absurd hcloses stays
      subst opens
      have hfault : i.connectFault? args = some (.wrongArgumentCount connectName 0 args.length) := by
        rw [connectFault?, setter?_of_undeclared undeclared]
        exact if_neg (not_isEmpty_of_count unsuited)
      rw [perform]
      show (if connectName = connectName then i.connect args d else _) = _
      rw [if_pos rfl, connect, hfault]
      rfl

/-- A parameter under the name that closes the link cannot be read. -/
theorem Announced.accessor_of_close (h : Announced i e s) (closes : e.id = disconnectName) : e.accessor = .set := by
  cases h with
  | @reading p steps named getter hlife =>
      dsimp only at closes
      rw [closes] at hlife
      cases hlife
  | writing => rfl
  | builtIn => rfl

/-- An unsuited request to close the link sends none of the declared steps. -/
theorem closingSteps_of_count (announced : Announced i e s) (closes : e.id = disconnectName)
    (unsuited : args.length ≠ s.arity) (d : δ) : i.closingSteps args d = d := by
  cases announced with
  | reading named getter hlife => exact nomatch (Announced.reading named getter hlife).accessor_of_close closes
  | @writing p w named setter =>
      have hdeclared : i.setter? disconnectName = some (p, w) := closes ▸ setter?_of_declared named setter
      rw [closingSteps, hdeclared]
      dsimp only
      rw [checkArgs_of_count unsuited]
  | @builtIn name description hlife undeclared =>
      dsimp only at closes
      rw [closingSteps, setter?_of_undeclared (closes ▸ undeclared)]

theorem perform_close (linked : i.state = .connected ∧ i.held) (announced : Announced i e s)
    (closes : e.id = disconnectName) (unsuited : args.length ≠ s.arity) (d : δ) :
    i.perform (e.request args) d = (.ok none, i.withoutLink .disconnected, i.transport.close i.config d) := by
  have hkind : (e.request args).kind = .set := by
    rw [CatalogEntry.request, announced.accessor_of_close closes]
    rfl
  have hopens : ¬(e.request args).id = connectName := by
    rw [CatalogEntry.request, closes]
    exact nofun
  have hcloses : (e.request args).id = disconnectName := closes
  have hdisconnect : i.disconnect args d = (i.withoutLink .disconnected, i.transport.close i.config d) := by
    rw [disconnect, if_pos linked.1, if_pos linked.2]
    dsimp only
    rw [closingSteps_of_count announced closes unsuited]
  rw [perform, hkind]
  dsimp only
  rw [if_neg hopens, if_pos hcloses]
  show (Except.ok none, i.disconnect args d) = _
  rw [hdisconnect]

/-- The answer to a request for an announced entry with another number of arguments than it takes, for every
instrument that is accepted with its parameters under different names and is connected, whatever was done with
it and whatever its devices do: unless it closes the link, an error that tells both numbers, and neither the
instrument nor its devices nor the ledger of its links see any of it.  To close the link succeeds, and nothing
is sent. -/
theorem execute_arity {registry : Registry δ} {c : InstrumentConfig} {i : Instrument δ}
    (accepted : assemble registry c = .ok i) (distinct : (c.parameters.map Prod.fst).Nodup)
    (ops : List Operation) (d : δ) (connected : (run ops i d).1.state = .connected)
    {e : CatalogEntry} (announced : e ∈ (run ops i d).1.entries) :
    ∃ j d' s, run ops i d = (j, d') ∧ Signature.read e.signature = .ok s ∧
      ∀ args, args.length ≠ s.arity →
        (e.id ≠ disconnectName →
          j.execute (e.request args) d' =
            (some (.errorFor (e.request args) (.wrongArgumentCount e.id s.arity args.length)), j, d') ∧
          ∀ ledger, (j.audited.execute (e.request args) (d', ledger)).2 = (j.audited, d', ledger)) ∧
        (e.id = disconnectName →
          j.execute (e.request args) d' = (some ⟨some c.provider, e.id, .set, none⟩,
            j.withoutLink .disconnected, j.transport.close j.config d')) := by
  obtain ⟨j, d', hrun⟩ : ∃ j d', run ops i d = (j, d') := ⟨_, _, rfl⟩
  have make := sameMake_run ops i d
  have settled : Settled (run ops i d).1 := (settled_of_assemble accepted).run ops
  have provider : i.provider = c.provider := by
    obtain ⟨_, _, -, -, -, rfl⟩ := assemble_eq_ok accepted
    rfl
  rw [hrun] at make settled connected announced
  dsimp only at make settled connected announced
  have linked : j.state = .connected ∧ j.held = true := ⟨connected, settled.held.mpr connected⟩
  have named := make.wellNamed (wellNamed_of_assemble distinct accepted)
  obtain ⟨s, hentry⟩ := announced_of_mem_entries named announced
  refine ⟨j, d', s, hrun, hentry.read_signature, fun args unsuited => ?_⟩
  have addressed : (e.request args).provider = some j.provider := congrArg some hentry.provider
  constructor
  · intro stays
    constructor
    · rw [execute_addressed addressed, perform_of_count linked hentry stays unsuited]
      rfl
    · intro ledger
      rw [execute_addressed (i := j.audited) addressed,
        perform_of_count (i := j.audited) linked hentry.audited stays unsuited]
  · intro closes
    have hprovider : e.provider = c.provider := by
      rw [hentry.provider, make.provider, provider]
    have hanswer : respond (e.request args) (.ok none) = ⟨some c.provider, e.id, .set, none⟩ := by
      rw [respond, CatalogEntry.request, hprovider, hentry.accessor_of_close closes]
      rfl
    rw [execute_addressed addressed, perform_close linked hentry closes unsuited, hanswer]

/-- The entry under which the voltage of the supply is read. -/
def voltageEntry : CatalogEntry := ⟨"psu", "volt", .get, voltage.getSignature.toJson, voltage.description⟩

/-- What closes the link of the supply is built in. -/
def closingEntry : CatalogEntry :=
  ⟨"psu", disconnectName, .set, Signature.empty.toJson, "Close the instrument link"⟩

theorem execute_arity_supply :
    assemble Bench.registry .supply = .ok supply ∧ (InstrumentConfig.supply.parameters.map Prod.fst).Nodup ∧
      (run (supplyOperations.take 2) supply .supply).1.state = .connected ∧
      voltageEntry ∈ (run (supplyOperations.take 2) supply .supply).1.entries ∧
      ∃ j d' s, run (supplyOperations.take 2) supply .supply = (j, d') ∧
        Signature.read voltageEntry.signature = .ok s ∧
        ∀ args, args.length ≠ s.arity →
          (voltageEntry.id ≠ disconnectName →
            j.execute (voltageEntry.request args) d' =
              (some (.errorFor (voltageEntry.request args) (.wrongArgumentCount voltageEntry.id s.arity args.length)),
                j, d') ∧
            ∀ ledger, (j.audited.execute (voltageEntry.request args) (d', ledger)).2 = (j.audited, d', ledger)) ∧
          (voltageEntry.id = disconnectName →
            j.execute (voltageEntry.request args) d' =
              (some ⟨some InstrumentConfig.supply.provider, voltageEntry.id, .set, none⟩,
                j.withoutLink .disconnected, j.transport.close j.config d')) := by
  have accepted : assemble Bench.registry .supply = .ok supply := rfl
  have distinct : (InstrumentConfig.supply.parameters.map Prod.fst).Nodup := by decide
  have connected : (run (supplyOperations.take 2) supply .supply).1.state = .connected := rfl
  have announced : voltageEntry ∈ (run (supplyOperations.take 2) supply .supply).1.entries := List.mem_cons_self
  exact ⟨accepted, distinct, connected, announced,
    execute_arity accepted distinct (supplyOperations.take 2) .supply connected announced⟩

/-- Asked to close its link with an argument, the supply does so. -/
theorem execute_arity_closing :
    let opened := run (supplyOperations.take 2) supply .supply
    let r := closingEntry.request ["now"]
    opened.1.state = .connected ∧ closingEntry ∈ opened.1.entries ∧
      Signature.read closingEntry.signature = .ok .empty ∧ r.args.length ≠ Signature.empty.arity ∧
      ∃ j d', opened.1.execute r opened.2 = (some ⟨some "psu", disconnectName, .set, none⟩, j, d') ∧
        j.state = .disconnected ∧
        (d'.devices.get? "psu").map Rehearsed.log = some (["close", "open", "open"] : List Text) := by
  refine ⟨rfl, ?_, Signature.read_toJson _, by decide, _, _, rfl, rfl, rfl⟩
  exact List.mem_cons_of_mem _ (List.mem_cons_of_mem _ List.mem_cons_self)

end Instrument

end GroundStation
