/-
# An instrument that is accepted can enter service alone

What an instrument announces is put together from its compiled parameters and two built-in entries, while what
a catalog accepts is a matter of keys and of the shape of signatures.  That the first always suits the second
rests on checks in three places: a parameter compiles under its own name and with a signature that reads back;
the names that open and close the link are for writing, so each is announced once, declared or built in; and
a name that is polled can be read.

The entries are told here by what they serve, a name and an accessor (`Instrument.served`).  A name is served
for reading if and only if a getter is declared for it, and for writing if and only if a setter is, or it opens
or closes the link (`entries_suit`).
-/
import GroundStation.Proofs.Instrument.Sequence
import GroundStation.Proofs.Station.Admission

namespace GroundStation

namespace Instrument

variable {δ : Type}

/-- What an instrument announces that it serves: names of parameters, each with an accessor. -/
def served (i : Instrument δ) : List (Text × Accessor) := i.entries.map fun e => (e.id, e.accessor)

/-! ## Declarations and parameters -/

section Assembled

variable {registry : Registry δ} {c : InstrumentConfig} {i : Instrument δ}

/-- Every declaration is compiled to the parameter of its name. -/
theorem parameter?_of_declared (accepted : assemble registry c = .ok i)
    (distinct : (c.parameters.map Prod.fst).Nodup) {name : Text} {d : ParameterDeclaration}
    (declared : (name, d) ∈ c.parameters) :
    ∃ p, i.parameter? name = some p ∧ Parameter.compile name d = .ok p := by
  have named := wellNamed_of_assemble distinct accepted
  obtain ⟨_, parameters, -, hcompiled, -, rfl⟩ := assemble_eq_ok accepted
  have hname : name ∈ parameters.map Prod.fst := keys_compileParameters hcompiled ▸ List.mem_map_of_mem declared
  obtain ⟨⟨_, p⟩, hmem, rfl⟩ := List.mem_map.mp hname
  obtain ⟨d', hd', hp⟩ := (mem_compileParameters_iff hcompiled).mp hmem
  have hsame : some d' = some d :=
    (Keyed.get?_of_mem distinct hd').symm.trans (Keyed.get?_of_mem distinct declared)
  cases hsame
  exact ⟨p, (named.parameter? _ p hmem).2, hp⟩

/-- A parameter has been declared. -/
theorem exists_declared (accepted : assemble registry c = .ok i) {name : Text} {p : Parameter}
    (found : i.parameter? name = some p) :
    ∃ d, (name, d) ∈ c.parameters ∧ Parameter.compile name d = .ok p := by
  obtain ⟨_, parameters, -, hcompiled, -, rfl⟩ := assemble_eq_ok accepted
  exact (mem_compileParameters_iff hcompiled).mp (Keyed.mem_of_get? found)

theorem compileOptional_ne_none_iff {α β : Type} {f : α → Except ConfigError β} {declared : Option α}
    {compiled : Option β} (h : Parameter.compileOptional f declared = .ok compiled) :
    compiled ≠ none ↔ declared ≠ none := by
  cases Parameter.compileOptional_eq_ok_iff.mp h with
  | none => exact iff_of_false (fun hne => hne rfl) fun hne => hne rfl
  | some => exact iff_of_true nofun nofun

/-- A parameter has the accessors that are declared for it. -/
theorem accessors_of_compile {name : Text} {d : ParameterDeclaration} {p : Parameter}
    (h : Parameter.compile name d = .ok p) : (p.getter ≠ none ↔ d.get ≠ none) ∧ (p.setter ≠ none ↔ d.set ≠ none) := by
  obtain ⟨_, _, _, -, hgetter, hsetter, rfl⟩ := Parameter.compile_eq_ok h
  exact ⟨compileOptional_ne_none_iff hgetter, compileOptional_ne_none_iff hsetter⟩

/-- What holds of the accessors of a parameter is declared of them. -/
theorem exists_parameter_iff (accepted : assemble registry c = .ok i)
    (distinct : (c.parameters.map Prod.fst).Nodup) {name : Text} {compiled : Parameter → Prop}
    {declared : ParameterDeclaration → Prop}
    (same : ∀ d p, Parameter.compile name d = .ok p → (compiled p ↔ declared d)) :
    (∃ p, i.parameter? name = some p ∧ compiled p) ↔ ∃ d, (name, d) ∈ c.parameters ∧ declared d := by
  constructor
  · rintro ⟨p, hp, hcompiled⟩
    obtain ⟨d, hd, hcompile⟩ := exists_declared accepted hp
    exact ⟨d, hd, (same d p hcompile).mp hcompiled⟩
  · rintro ⟨d, hd, hdeclared⟩
    obtain ⟨p, hp, hcompile⟩ := parameter?_of_declared accepted distinct hd
    exact ⟨p, hp, (same d p hcompile).mpr hdeclared⟩

end Assembled

/-! ## Entries -/

variable {i : Instrument δ} {name : Text}

theorem mem_served_of_declared {p : Parameter} (found : i.parameter? name = some p) {e : CatalogEntry}
    (h : e ∈ parameterEntries i.provider p) : (e.id, e.accessor) ∈ i.served := by
  refine List.mem_map_of_mem (f := fun e : CatalogEntry => (e.id, e.accessor)) ?_
  refine List.mem_append_left _ (List.mem_append_left _ (List.mem_flatMap.mpr ?_))
  exact ⟨(name, p), Keyed.mem_of_get? found, h⟩

/-- The names that are served for reading are those of the parameters with a getter. -/
theorem get_mem_served_iff (named : WellNamed i) :
    (name, .get) ∈ i.served ↔ ∃ p, i.parameter? name = some p ∧ p.getter ≠ none := by
  constructor
  · intro h
    obtain ⟨e, he, heq⟩ := List.mem_map.mp h
    obtain ⟨s, announced⟩ := announced_of_mem_entries named he
    cases announced with
    | reading found getter =>
      cases heq
      exact ⟨_, found, by rw [getter]; exact nofun⟩
    | writing => cases heq
    | builtIn => cases heq
  · rintro ⟨p, found, hgetter⟩
    obtain ⟨steps, getter⟩ := Option.ne_none_iff_exists'.mp hgetter
    obtain ⟨rfl, -⟩ := named.parameter? name p (Keyed.mem_of_get? found)
    refine mem_served_of_declared (e := ⟨i.provider, p.name, .get, p.getSignature.toJson, p.description⟩) found ?_
    rw [parameterEntries, getter]
    exact List.mem_cons_self

/-- What opens or closes the link, where it is declared, is for writing. -/
theorem setter_of_lifecycle {registry : Registry δ} {c : InstrumentConfig}
    (accepted : assemble registry c = .ok i) {p : Parameter} (found : i.parameter? name = some p)
    (lifecycle : name = connectName ∨ name = disconnectName) : p.getter = none ∧ p.setter ≠ none := by
  obtain ⟨_, parameters, -, hcompiled, -, rfl⟩ := assemble_eq_ok accepted
  obtain ⟨rfl, hfault⟩ := mem_compileParameters hcompiled (Keyed.mem_of_get? found)
  obtain ⟨getter, w, setter⟩ := setter_of_lifecycleFault? hfault (decide_eq_true lifecycle)
  exact ⟨getter, by rw [setter]; exact nofun⟩

theorem mem_served_of_undeclared (undeclared : i.parameter? name = none)
    (lifecycle : name = connectName ∨ name = disconnectName) : (name, .set) ∈ i.served := by
  have builtIn : ∀ description,
      ⟨i.provider, name, .set, Signature.empty.toJson, description⟩ ∈ i.lifecycleEntry name description := by
    intro description
    rw [lifecycleEntry, undeclared]
    exact List.mem_cons_self
  rcases lifecycle with rfl | rfl
  · exact List.mem_map.mpr ⟨_, List.mem_append_left _ (List.mem_append_right _ (builtIn _)), rfl⟩
  · exact List.mem_map.mpr ⟨_, List.mem_append_right _ (builtIn _), rfl⟩

/-- The names that are served for writing are those of the parameters with a setter, and those that open and
close the link. -/
theorem set_mem_served_iff {registry : Registry δ} {c : InstrumentConfig}
    (accepted : assemble registry c = .ok i) (named : WellNamed i) :
    (name, .set) ∈ i.served ↔
      (∃ p, i.parameter? name = some p ∧ p.setter ≠ none) ∨ name = connectName ∨ name = disconnectName := by
  have declared : ∀ p, i.parameter? name = some p → p.setter ≠ none → (name, .set) ∈ i.served := by
    intro p found hsetter
    obtain ⟨w, setter⟩ := Option.ne_none_iff_exists'.mp hsetter
    obtain ⟨rfl, -⟩ := named.parameter? name p (Keyed.mem_of_get? found)
    refine mem_served_of_declared (e := ⟨i.provider, p.name, .set, w.signature.toJson, p.description⟩) found ?_
    rw [parameterEntries, setter]
    exact List.mem_append_right _ List.mem_cons_self
  constructor
  · intro h
    obtain ⟨e, he, heq⟩ := List.mem_map.mp h
    obtain ⟨s, announced⟩ := announced_of_mem_entries named he
    cases announced with
    | reading => cases heq
    | writing found setter =>
      cases heq
      exact .inl ⟨_, found, by rw [setter]; exact nofun⟩
    | builtIn _ lifecycle _ =>
      cases heq
      exact .inr (of_decide_eq_true lifecycle)
  · rintro (⟨p, found, hsetter⟩ | lifecycle)
    · exact declared p found hsetter
    · cases found : i.parameter? name with
      | some p => exact declared p found (setter_of_lifecycle accepted found lifecycle).2
      | none => exact mem_served_of_undeclared found lifecycle

/-- Nothing is served twice. -/
theorem nodup_served (named : WellNamed i) (distinct : (i.parameters.map Prod.fst).Nodup) : i.served.Nodup := by
  have keys : i.entries.map CatalogEntry.key = i.served.map fun x => (qualify i.provider x.1, x.2) := by
    rw [served, List.map_map]
    refine List.map_congr_left fun e he => ?_
    show (qualify e.provider e.id, e.accessor) = _
    rw [provider_of_mem_entries he]
    rfl
  have hkeys := nodup_keys_entries named distinct
  rw [keys] at hkeys
  exact hkeys.of_map

/-- Names that are polled can be read. -/
theorem getter_of_polled {registry : Registry δ} {c : InstrumentConfig} (accepted : assemble registry c = .ok i)
    {cyclic : CyclicConfig} (configured : c.cyclic = some cyclic) (poll : cyclic.mode = .poll)
    (polled : name ∈ cyclic.parameters) : ∃ p, i.parameter? name = some p ∧ p.getter ≠ none := by
  obtain ⟨_, parameters, -, -, hfault, rfl⟩ := assemble_eq_ok accepted
  rw [cyclicFault?, configured] at hfault
  dsimp only at hfault
  rw [Option.map_eq_none_iff, List.find?_eq_none] at hfault
  have hacquire : canAcquire parameters cyclic.mode name = true := by simpa using hfault name polled
  rw [poll, canAcquire, Option.any_eq_true] at hacquire
  obtain ⟨p, hp, hgetter⟩ := hacquire
  exact ⟨p, hp, Option.isSome_iff_ne_none.mp hgetter⟩

/-- Every accepted instrument whose parameters have different names can enter service alone.  It serves nothing
twice; its entries bear its provider and signatures of the right shape; what opens and what closes the link is
served once for writing and never for reading.  A name is served for reading if and only if a getter is declared
for it, and for writing if and only if a setter is, or it opens or closes the link.  What is polled is served for
reading, and a catalog without entries takes them all. -/
theorem entries_suit {registry : Registry δ} {c : InstrumentConfig} {i : Instrument δ}
    (accepted : assemble registry c = .ok i) (distinct : (c.parameters.map Prod.fst).Nodup) :
    i.served.Nodup ∧
    (∀ e ∈ i.entries, e.provider = c.provider ∧ ∃ s, Signature.parse e.qualifiedId e.signature = .ok s) ∧
    (∀ name, name = connectName ∨ name = disconnectName →
      i.served.count (name, .set) = 1 ∧ i.served.count (name, .get) = 0) ∧
    (∀ name, (name, .get) ∈ i.served ↔ ∃ d, (name, d) ∈ c.parameters ∧ d.get ≠ none) ∧
    (∀ name, (name, .set) ∈ i.served ↔
      (∃ d, (name, d) ∈ c.parameters ∧ d.set ≠ none) ∨ name = connectName ∨ name = disconnectName) ∧
    (∀ cyclic, c.cyclic = some cyclic → cyclic.mode = .poll →
      ∀ name ∈ cyclic.parameters, (name, .get) ∈ i.served) ∧
    Catalog.empty.register i.entries = .ok ⟨i.entries⟩ := by
  have named := wellNamed_of_assemble distinct accepted
  have acceptable : Catalog.empty.Acceptable i.entries :=
    (acceptable_entries_iff distinct accepted).mpr fun _ _ => rfl
  have unique : i.served.Nodup := nodup_served named (keys_of_assemble accepted ▸ distinct)
  refine ⟨unique, ?_, ?_, ?_, ?_, ?_, ?_⟩
  · intro e he
    obtain ⟨s, announced⟩ := announced_of_mem_entries named he
    refine ⟨?_, s, Signature.parse_of_read announced.read_signature⟩
    rw [announced.provider, provider, config_of_assemble accepted]
  · intro name lifecycle
    refine ⟨List.count_eq_one_of_mem unique ((set_mem_served_iff accepted named).mpr (.inr lifecycle)), ?_⟩
    refine List.count_eq_zero_of_not_mem fun hget => ?_
    obtain ⟨p, found, hgetter⟩ := (get_mem_served_iff named).mp hget
    exact hgetter (setter_of_lifecycle accepted found lifecycle).1
  · intro name
    rw [get_mem_served_iff named]
    exact exists_parameter_iff accepted distinct fun _ _ hcompile => (accessors_of_compile hcompile).1
  · intro name
    rw [set_mem_served_iff accepted named]
    exact or_congr_left
      (exists_parameter_iff accepted distinct fun _ _ hcompile => (accessors_of_compile hcompile).2)
  · intro cyclic configured poll name polled
    exact (get_mem_served_iff named).mpr (getter_of_polled accepted configured poll polled)
  · exact Catalog.register_eq_ok_iff.mpr ⟨acceptable, rfl⟩

/-- The supply with its voltage polled, and with a step for the opening of its link. -/
def greetedConfig : InstrumentConfig :=
  { InstrumentConfig.supply with
    cyclic := some ⟨.poll, 1000, ["volt"]⟩
    parameters := ("connect", ⟨"greet it", none, none, none, none, some ⟨none, [⟨some "HELLO", none⟩]⟩⟩) ::
      InstrumentConfig.supply.parameters }

theorem entries_suit_greeted :
    ∃ i : Instrument Bench, assemble Bench.registry greetedConfig = .ok i ∧
      (greetedConfig.parameters.map Prod.fst).Nodup ∧
      i.served = ([("connect", .set), ("volt", .get), ("disconnect", .set)] : List (Text × Accessor)) ∧
      i.served.count (connectName, .set) = 1 ∧ ("volt".toList, Accessor.get) ∈ i.served ∧
      Catalog.empty.register i.entries = .ok ⟨i.entries⟩ := by
  obtain ⟨i, accepted⟩ : ∃ i, assemble Bench.registry greetedConfig = .ok i := ⟨_, rfl⟩
  have distinct : (greetedConfig.parameters.map Prod.fst).Nodup := by decide
  obtain ⟨-, -, once, -, -, polls, registered⟩ := entries_suit accepted distinct
  refine ⟨i, accepted, distinct, ?_, (once connectName (.inl rfl)).1, polls _ rfl rfl "volt" List.mem_cons_self,
    registered⟩
  cases accepted
  rfl

end Instrument

end GroundStation
