/-
# An instrument enters service whole or not at all

Three parts of a station change when an instrument enters service: the bus, where it listens to requests
and to the end of service, the catalog, which takes its entries, and the list of instruments.  It listens
first, then announces its entries, and is put on the list last, so an announcement that is refused comes
when the instrument is on the bus already.

The entries of an instrument have signatures of the right shape, and no two of them have one key
(`Instrument.nodup_keys_entries`).  So an announcement is refused for one reason only, that a key is taken,
be it by another instrument or by entries that were registered otherwise.  Then what has been done to the
bus is undone: every topic has the subscribers that it had (`Bus.Fresh`), only the ids that were given are
not given again, and no later configuration fares differently for it (`addInstrument_atomic`).
-/
import GroundStation.Proofs.Instrument.Arity
import GroundStation.Proofs.Station.Reach

namespace GroundStation

/-! ## What an instrument announces -/

theorem qualify_right_inj {provider id other : Text} :
    qualify provider id = qualify provider other ↔ id = other := by
  rw [qualify, qualify, List.append_cancel_left_eq, List.cons.injEq]
  exact and_iff_right rfl

namespace Instrument

variable {δ : Type}

theorem key_of_mem_parameterEntries {provider : Text} {p : Parameter} {e : CatalogEntry}
    (h : e ∈ parameterEntries provider p) : e.key.1 = qualify provider p.name := by
  unfold parameterEntries at h
  rcases List.mem_append.mp h with h | h <;> split at h
  · rw [List.mem_singleton.mp h]
    rfl
  · exact absurd h List.not_mem_nil
  · rw [List.mem_singleton.mp h]
    rfl
  · exact absurd h List.not_mem_nil

theorem nodup_keys_parameterEntries (provider : Text) (p : Parameter) :
    ((parameterEntries provider p).map CatalogEntry.key).Nodup := by
  unfold parameterEntries
  cases p.getter <;> cases p.setter <;> simp [CatalogEntry.key]

/-- The entries of parameters of different names have different keys. -/
theorem nodup_keys_declared {provider : Text} {ps : Keyed Parameter}
    (named : ∀ name p, (name, p) ∈ ps → p.name = name) (distinct : (ps.map Prod.fst).Nodup) :
    ((ps.flatMap fun x => parameterEntries provider x.2).map CatalogEntry.key).Nodup := by
  induction ps with
  | nil => exact List.nodup_nil
  | cons x rest ih =>
    obtain ⟨name, p⟩ := x
    rw [List.map_cons, List.nodup_cons] at distinct
    rw [List.flatMap_cons, List.map_append, List.nodup_append']
    refine ⟨nodup_keys_parameterEntries provider p,
      ih (fun name p hp => named name p (List.mem_cons_of_mem _ hp)) distinct.2, ?_⟩
    intro key hfirst hlater
    obtain ⟨e, he, rfl⟩ := List.mem_map.mp hfirst
    obtain ⟨f, hf, heq⟩ := List.mem_map.mp hlater
    obtain ⟨⟨other, q⟩, hq, hf⟩ := List.mem_flatMap.mp hf
    have hname : p.name = q.name := by
      refine qualify_right_inj.mp ((key_of_mem_parameterEntries he).symm.trans ?_)
      rw [← heq]
      exact key_of_mem_parameterEntries hf
    have hother : name = other := by
      rw [← named name p List.mem_cons_self, hname, named other q (List.mem_cons_of_mem _ hq)]
    exact distinct.1 (List.mem_map.mpr ⟨(other, q), hq, hother.symm⟩)

/-- The key of a built-in entry belongs to no declared parameter. -/
theorem disjoint_lifecycleEntry {i : Instrument δ} {name description : Text} {key : Text × Accessor}
    (h : key ∈ (i.lifecycleEntry name description).map CatalogEntry.key) :
    i.parameter? name = none ∧ key.1 = qualify i.provider name := by
  unfold lifecycleEntry at h
  split at h
  · cases h
  · next undeclared =>
    rw [List.map_singleton, List.mem_singleton] at h
    rw [h]
    exact ⟨undeclared, rfl⟩

theorem nodup_keys_lifecycleEntry (i : Instrument δ) (name description : Text) :
    ((i.lifecycleEntry name description).map CatalogEntry.key).Nodup := by
  unfold lifecycleEntry
  split
  · exact List.nodup_nil
  · exact List.nodup_singleton _

/-- No two entries of an instrument have one key. -/
theorem nodup_keys_entries {i : Instrument δ} (named : WellNamed i)
    (distinct : (i.parameters.map Prod.fst).Nodup) : (i.entries.map CatalogEntry.key).Nodup := by
  have apart : ∀ {name description key},
      key ∈ (i.parameters.flatMap fun x => parameterEntries i.provider x.2).map CatalogEntry.key →
      key ∉ (i.lifecycleEntry name description).map CatalogEntry.key := by
    intro name description key hdeclared hbuiltIn
    obtain ⟨undeclared, hkey⟩ := disjoint_lifecycleEntry hbuiltIn
    obtain ⟨e, he, rfl⟩ := List.mem_map.mp hdeclared
    obtain ⟨⟨other, p⟩, hp, he⟩ := List.mem_flatMap.mp he
    obtain ⟨hname, hparameter⟩ := named.parameter? other p hp
    have heq : p.name = name := qualify_right_inj.mp ((key_of_mem_parameterEntries he).symm.trans hkey)
    rw [← heq, hname, hparameter] at undeclared
    cases undeclared
  rw [entries, List.map_append, List.map_append, List.nodup_append', List.nodup_append']
  refine ⟨⟨nodup_keys_declared (fun name p hp => (named.parameter? name p hp).1) distinct,
    nodup_keys_lifecycleEntry .., fun key => apart⟩, nodup_keys_lifecycleEntry .., ?_⟩
  intro key hkey hcloses
  rcases List.mem_append.mp hkey with hdeclared | hopens
  · exact apart hdeclared hcloses
  · have heq := (disjoint_lifecycleEntry hopens).2.symm.trans (disjoint_lifecycleEntry hcloses).2
    exact absurd (qualify_right_inj.mp heq) (by decide)

/-- The entries of an accepted instrument can be stored unless a key of them is taken. -/
theorem acceptable_entries_iff {registry : Registry δ} {c : InstrumentConfig} {i : Instrument δ}
    (distinct : (c.parameters.map Prod.fst).Nodup) (assembled : assemble registry c = .ok i)
    {catalog : Catalog} :
    catalog.Acceptable i.entries ↔
      ∀ e ∈ i.entries, catalog.get? e.qualifiedId e.accessor = none := by
  have named := wellNamed_of_assemble distinct assembled
  have hkeys : (i.parameters.map Prod.fst).Nodup := by
    obtain ⟨_, parameters, -, hcompiled, -, rfl⟩ := assemble_eq_ok assembled
    exact keys_compileParameters hcompiled ▸ distinct
  refine ⟨fun h => h.fresh, fun fresh => ⟨fun e he => ?_, nodup_keys_entries named hkeys, fresh⟩⟩
  obtain ⟨signature, announced⟩ := announced_of_mem_entries named he
  exact Signature.exists_read_iff.mp ⟨signature, announced.read_signature⟩

end Instrument

namespace Station

variable {δ : Type}

/-! ## Where the controller alone hears of entries -/

section Alone

variable {s : Station δ} (alone : s.listeners .ioSignature = [.catalogKeeper])
include alone

/-- What becomes of an instrument is settled by the catalog. -/
theorem addInstrument_eq_register {c : InstrumentConfig} {i : Instrument δ}
    (assembled : Instrument.assemble s.registry c = .ok i) :
    addInstrument c s =
      match s.catalog.register i.entries with
      | .ok catalog => (.ok (), (s.withCatalog catalog).enter i)
      | .error e => (.error (.config e), s.refuse) := by
  rw [addInstrument_eq assembled, announcement_eq alone]
  cases s.catalog.register i.entries <;> rfl

theorem addInstrument_outcome {c : InstrumentConfig} {i : Instrument δ}
    (assembled : Instrument.assemble s.registry c = .ok i) :
    (addInstrument c s).1 =
      match s.catalog.register i.entries with
      | .ok _ => .ok ()
      | .error e => .error (.config e) := by
  rw [addInstrument_eq_register alone assembled]
  cases s.catalog.register i.entries <;> rfl

theorem addInstrument_ok_iff {c : InstrumentConfig} (distinct : (c.parameters.map Prod.fst).Nodup) :
    (addInstrument c s).1 = .ok () ↔
      ∃ i, Instrument.assemble s.registry c = .ok i ∧
        ∀ e ∈ i.entries, s.catalog.get? e.qualifiedId e.accessor = none := by
  cases assembled : Instrument.assemble s.registry c with
  | error e =>
    rw [addInstrument, assembled]
    refine iff_of_false ?_ ?_
    · rintro ⟨⟩
    · rintro ⟨_, ⟨⟩, -⟩
  | ok i =>
    have acceptable : s.catalog.Acceptable i.entries ↔ _ :=
      Instrument.acceptable_entries_iff distinct assembled
    rw [addInstrument_outcome alone assembled]
    cases registered : s.catalog.register i.entries with
    | ok catalog =>
      refine iff_of_true rfl ⟨i, rfl, ?_⟩
      exact acceptable.mp (Catalog.register_eq_ok_iff.mp registered).1
    | error e =>
      refine iff_of_false ?_ ?_
      · rintro ⟨⟩
      · rintro ⟨_, ⟨⟩, fresh⟩
        have accepted := Catalog.register_eq_ok_iff.mpr ⟨acceptable.mpr fresh, rfl⟩
        cases registered.symm.trans accepted

theorem entered_of_addInstrument {c : InstrumentConfig} {t : Station δ} (h : addInstrument c s = (.ok (), t)) :
    ∃ i, Instrument.assemble s.registry c = .ok i ∧
      t = (s.withCatalog ⟨s.catalog.entries ++ i.entries⟩).enter i := by
  cases assembled : Instrument.assemble s.registry c with
  | error e =>
    rw [addInstrument, assembled] at h
    cases h
  | ok i =>
    rw [addInstrument_eq_register alone assembled] at h
    cases registered : s.catalog.register i.entries with
    | error e =>
      rw [registered] at h
      cases h
    | ok catalog =>
      rw [registered] at h
      obtain ⟨-, rfl⟩ := Catalog.register_eq_ok_iff.mp registered
      cases h
      exact ⟨i, rfl, rfl⟩

/-- What does not enter service has not come, or has come and gone. -/
theorem refused_of_addInstrument {c : InstrumentConfig} {e : StationError} {t : Station δ}
    (h : addInstrument c s = (.error e, t)) : t = s ∨ t = s.refuse := by
  cases assembled : Instrument.assemble s.registry c with
  | error fault =>
    rw [addInstrument, assembled] at h
    cases h
    exact .inl rfl
  | ok i =>
    rw [addInstrument_eq_register alone assembled] at h
    split at h <;> cases h
    exact .inr rfl

end Alone

/-! ## The bus -/

/-- Two new subscribers of two topics. -/
theorem subscribers_enter (s : Station δ) (i : Instrument δ) (topic : Topic) :
    ((s.enter i).bus.channel topic).subscribers = (s.bus.channel topic).subscribers ++
      (if topic = .ioRequest then
        [⟨(s.bus.channel .ioRequest).nextId, .instrument s.services.length⟩] else []) ++
      (if topic = .quit then
        [⟨(s.bus.channel .quit).nextId, .instrumentQuit s.services.length⟩] else []) := by
  have hbus : (s.enter i).bus = ((s.bus.subscribe .ioRequest (.instrument s.services.length)).2.subscribe
      .quit (.instrumentQuit s.services.length)).2 := rfl
  rw [hbus, Bus.channel_subscribe, Bus.channel_subscribe]
  cases topic <;> simp [Channel.subscribe]

/-- An instrument that has come and gone leaves nobody behind. -/
theorem subscribers_refuse {s : Station δ} (fresh : s.bus.Fresh) (topic : Topic) :
    (s.refuse.bus.channel topic).subscribers = (s.bus.channel topic).subscribers := by
  have hquit : ((s.bus.subscribe .ioRequest (.instrument s.services.length)).2.channel .quit) =
      s.bus.channel .quit := Bus.channel_subscribe_of_ne (by decide) _ _
  have hbus : s.refuse.bus =
      (((s.bus.subscribe .ioRequest (.instrument s.services.length)).2.subscribe
        .quit (.instrumentQuit s.services.length)).2.cancel
          ⟨.ioRequest, (s.bus.channel .ioRequest).nextId⟩).cancel ⟨.quit, (s.bus.channel .quit).nextId⟩ := by
    rw [← hquit]
    rfl
  rw [hbus, Bus.channel_cancel, Bus.channel_cancel, Bus.channel_subscribe, Bus.channel_subscribe]
  cases topic with
  | ioRequest => exact fresh.subscribers_cancel_subscribe .ioRequest _
  | quit => exact fresh.subscribers_cancel_subscribe .quit _
  | _ => rfl

/-- An instrument that has come and gone bars no other, as the catalog and the registry decide. -/
theorem addInstrument_outcome_refuse {s : Station δ} (alone : s.listeners .ioSignature = [.catalogKeeper])
    (fresh : s.bus.Fresh) (c : InstrumentConfig) :
    (addInstrument c s.refuse).1 = (addInstrument c s).1 := by
  have registry : s.refuse.registry = s.registry := rfl
  have alone' : s.refuse.listeners .ioSignature = [.catalogKeeper] := by
    rw [listeners, Bus.listeners, subscribers_refuse fresh]
    exact alone
  cases assembled : Instrument.assemble s.registry c with
  | error fault => rw [addInstrument, addInstrument, registry, assembled]
  | ok i =>
    rw [addInstrument_outcome alone assembled]
    exact addInstrument_outcome alone' assembled

/-! ## Whole or not at all -/

/-- Of every station that can be reached where the controller alone hears of entries, and every
configuration: it is put into service if and only if it can be assembled and no key of its entries is
taken.  Then the catalog has just these entries more, the list of instruments and the subscribers of the two
topics one element more at their ends, and nothing else has changed.  Otherwise nothing has changed but the
ids that the bus gives next, no topic has other subscribers, and any configuration fares as it would have
fared before. -/
theorem addInstrument_atomic {registry : Registry δ} {devices : δ} {now : Binary64}
    {early : List (Topic × Option Text)} {acts : List Act} {s : Station δ}
    (reached : run acts (opened registry devices now early) = s)
    (alone : s.listeners .ioSignature = [.catalogKeeper])
    {c : InstrumentConfig} (distinct : (c.parameters.map Prod.fst).Nodup) :
    ((addInstrument c s).1 = .ok () ↔
      ∃ i, Instrument.assemble s.registry c = .ok i ∧
        ∀ e ∈ i.entries, s.catalog.get? e.qualifiedId e.accessor = none) ∧
    (∀ t, addInstrument c s = (.ok (), t) →
      ∃ i, Instrument.assemble s.registry c = .ok i ∧
        t = { s with
          bus := t.bus
          controller := { s.controller with catalog := ⟨s.catalog.entries ++ i.entries⟩ }
          services := s.services ++ [⟨i, [⟨.ioRequest, (s.bus.channel .ioRequest).nextId⟩,
            ⟨.quit, (s.bus.channel .quit).nextId⟩]⟩] } ∧
        ∀ topic, (t.bus.channel topic).subscribers = (s.bus.channel topic).subscribers ++
          (if topic = .ioRequest then
            [⟨(s.bus.channel .ioRequest).nextId, .instrument s.services.length⟩] else []) ++
          (if topic = .quit then
            [⟨(s.bus.channel .quit).nextId, .instrumentQuit s.services.length⟩] else [])) ∧
    (∀ e t, addInstrument c s = (.error e, t) →
      t = { s with bus := t.bus } ∧
      (∀ topic, (t.bus.channel topic).subscribers = (s.bus.channel topic).subscribers) ∧
      ∀ later, (addInstrument later t).1 = (addInstrument later s).1) := by
  have fresh : s.bus.Fresh := reached ▸ fresh_run acts
  refine ⟨addInstrument_ok_iff alone distinct, ?_, ?_⟩
  · intro t ht
    obtain ⟨i, assembled, rfl⟩ := entered_of_addInstrument alone ht
    exact ⟨i, assembled, enter_eq _ i, subscribers_enter _ i⟩
  · intro e t ht
    rcases refused_of_addInstrument alone ht with rfl | rfl
    · exact ⟨rfl, fun _ => rfl, fun _ => rfl⟩
    · exact ⟨rfl, subscribers_refuse fresh, addInstrument_outcome_refuse alone fresh⟩

/-- A station with the supply in service. -/
def supplyInService : Station Bench := run [.add .supply] (opened Bench.registry .supply .nan [])

/-- The supply is refused when it comes again, and under another name it is taken afterwards. -/
theorem addInstrument_atomic_supply :
    ∃ s : Station Bench, run [.add .supply] (opened Bench.registry .supply .nan []) = s ∧
      s.listeners .ioSignature = [.catalogKeeper] ∧
      (InstrumentConfig.supply.parameters.map Prod.fst).Nodup ∧
      (addInstrument .supply s).1 = .error (.config (.duplicateParameter "psu_volt" .get)) ∧
      (∀ topic, ((addInstrument .supply s).2.bus.channel topic).subscribers =
        (s.bus.channel topic).subscribers) ∧
      (addInstrument { InstrumentConfig.supply with provider := "spare" }
        (addInstrument .supply s).2).1 = .ok () := by
  have alone : supplyInService.listeners .ioSignature = [.catalogKeeper] := by decide
  have distinct : (InstrumentConfig.supply.parameters.map Prod.fst).Nodup := by decide
  obtain ⟨-, -, refused⟩ := addInstrument_atomic (s := supplyInService) rfl alone distinct
  have outcome : (addInstrument .supply supplyInService).1 =
      .error (.config (.duplicateParameter "psu_volt" .get)) := by decide
  obtain ⟨-, same, later⟩ := refused _ _ (Prod.ext outcome rfl)
  refine ⟨supplyInService, rfl, alone, distinct, outcome, same, (later _).trans ?_⟩
  decide

end Station

end GroundStation
