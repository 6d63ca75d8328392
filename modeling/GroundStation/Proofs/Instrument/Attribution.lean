/-
# Which parameter a field of a record is taken for

A field names a parameter by its name or by its memory key, and these may clash: a parameter that is written
under one name and read under another keeps both under one key, which is the name of one of them.  Parameters
are asked in the order of their names, each for both, and the first takes the field.  So a field with the name
of a parameter reaches this parameter if and only if no parameter of an earlier name has that name as its memory
key (`fieldParameter?_eq_some_iff`).

What that means for telemetry is said of a single field within all that a round takes: what is stored and
published before it and behind it is whatever it is, and in its place stands its own value, under its own name,
or not (`drain_attributes`).
-/
import GroundStation.Proofs.Instrument.Advertised

namespace GroundStation

namespace Text

/-- No two texts come before each other. -/
theorem not_before_of_before : ∀ {s t : Text}, before s t = true → before t s ≠ true
  | [], _ :: _, _ => nofun
  | a :: s, b :: t, h => by
      rw [before] at h ⊢
      by_cases heq : a = b
      · rw [if_pos heq] at h
        rw [if_pos heq.symm]
        exact not_before_of_before h
      · rw [if_neg heq, decide_eq_true_eq] at h
        rw [if_neg (Ne.symm heq), ne_eq, decide_eq_true_eq]
        omega

theorem ne_of_before {s t : Text} (h : before s t = true) : s ≠ t := by
  rintro rfl
  exact not_before_of_before h h

end Text

namespace Instrument

variable {δ : Type} {i : Instrument δ} {p : Parameter} {key : Text}

/-- The parameters stand in the order of their names. -/
def Ordered (i : Instrument δ) : Prop :=
  i.parameters.Pairwise fun x y => Text.before x.1 y.1 = true

theorem ordered_of_assemble {registry : Registry δ} {c : InstrumentConfig} (accepted : assemble registry c = .ok i)
    (ordered : (c.parameters.map Prod.fst).Pairwise fun s t => Text.before s t = true) : i.Ordered := by
  rw [← keys_of_assemble accepted] at ordered
  exact List.pairwise_map.mp ordered

/-- A field with the name of a parameter is taken for it unless an earlier parameter has that name as its memory
key. -/
theorem fieldParameter?_eq_some_iff (ordered : i.Ordered) (named : WellNamed i)
    (found : i.parameter? key = some p) :
    i.fieldParameter? key = some p ↔
      ∀ name q, i.parameter? name = some q → Text.before name key = true → q.memoryKey ≠ key := by
  have hmem : (key, p) ∈ i.parameters := Keyed.mem_of_get? found
  have hname : p.name = key := (named.parameter? key p hmem).1
  constructor
  · intro hfirst name q hq earlier
    obtain ⟨⟨other, p'⟩, hfind, heq⟩ := Option.map_eq_some_iff.mp hfirst
    dsimp only at heq
    subst heq
    obtain ⟨-, front, back, hsplit, hpassed⟩ := List.find?_eq_some_iff_append.mp hfind
    obtain rfl : p'.name = other := (named.parameter? other p' (List.mem_of_find?_eq_some hfind)).1
    have hq' : (name, q) ∈ front ++ (p'.name, p') :: back := hsplit ▸ Keyed.mem_of_get? hq
    rw [Ordered, hsplit, List.pairwise_append, List.pairwise_cons] at ordered
    rcases List.mem_append.mp hq' with hfront | hback
    · have hnot := hpassed _ hfront
      simp only [Bool.not_eq_true', decide_eq_false_iff_not, not_or] at hnot
      exact hnot.1
    · rcases List.mem_cons.mp hback with hsame | hlater
      · cases hsame
        exact absurd hname (Text.ne_of_before earlier)
      · have hlate := ordered.2.1.1 _ hlater
        rw [hname] at hlate
        exact absurd earlier (Text.not_before_of_before hlate)
  · intro unhidden
    obtain ⟨front, back, hsplit⟩ := List.append_of_mem hmem
    have hfind : i.parameters.find? (fun x => decide (x.2.memoryKey = key ∨ x.2.name = key)) = some (key, p) := by
      refine List.find?_eq_some_iff_append.mpr ⟨decide_eq_true (.inr hname), front, back, hsplit, ?_⟩
      rintro ⟨name, q⟩ hq
      have hmem' : (name, q) ∈ i.parameters := hsplit ▸ List.mem_append_left _ hq
      obtain ⟨hname', hfound'⟩ := named.parameter? name q hmem'
      rw [Ordered, hsplit, List.pairwise_append] at ordered
      have earlier : Text.before name key = true := ordered.2.2 _ hq _ List.mem_cons_self
      simp only [Bool.not_eq_true', decide_eq_false_iff_not, not_or]
      exact ⟨unhidden name q hfound' earlier, hname' ▸ Text.ne_of_before earlier⟩
    rw [fieldParameter?]
    exact congrArg (Option.map Prod.snd) hfind

/-- A field with the name of a parameter and a value of it is stored for this parameter, if it is taken for
it. -/
theorem fieldStored?_of_parameter {type : ValueType} {raw : Text} {v : Json}
    (taken : i.fieldParameter? key = some p) (typed : p.valueType = some type)
    (denotes : type.parse? raw = some v) : i.fieldStored? (key, raw) = some ⟨p, v⟩ := by
  have hreply : p.parseReply raw = .ok (some v) := (Parameter.parseReply_eq_ok_iff typed).mpr ⟨v, rfl, denotes⟩
  rw [fieldStored?, taken, Option.bind_some, fieldValue?, hreply]
  rfl

/-- A field with the name of a parameter and a value of it brings the reading of this parameter exactly if it is
taken for it. -/
theorem response_of_field_iff (named : WellNamed i) (found : i.parameter? key = some p) {type : ValueType}
    {raw : Text} {v : Json} (typed : p.valueType = some type) (denotes : type.parse? raw = some v)
    (provider : Text) :
    (i.fieldStored? (key, raw)).toList.map (Stored.response provider) = [⟨some provider, key, .get, some v⟩] ↔
      i.fieldParameter? key = some p := by
  constructor
  · intro h
    cases hstored : i.fieldStored? (key, raw) with
    | none =>
      rw [hstored] at h
      cases h
    | some s =>
      rw [hstored] at h
      injection (List.cons.inj h).1 with _ hid
      obtain ⟨q, hq, hs⟩ := Option.bind_eq_some_iff.mp hstored
      obtain ⟨_, -, rfl⟩ := Option.map_eq_some_iff.mp hs
      have declared := (sound_of_fieldStored? named hstored).declared
      rw [hid, found] at declared
      rw [hq, declared]
  · intro taken
    rw [fieldStored?_of_parameter taken typed denotes, ← (named.parameter? key p (Keyed.mem_of_get? found)).1]
    rfl

/-- A round that takes what the device has sent: its responses and the memory behind it, told around one of the
fields. -/
theorem round_around {j : Instrument δ} {d d' : δ} {a : Record.Accumulator} {cyclic : CyclicConfig} {bytes : Bytes}
    (settled : Settled j) (working : j.worker = some a) (configured : j.config.cyclic = some cyclic)
    (stream : cyclic.mode = .stream) (sent : j.transport.readAvailable j.config d = (.ok bytes, d')) :
    ∃ updates k, j.round d = (some updates, k, d') ∧
      ∀ before field after, (a.push bytes).1.flatMap Record.fields = before ++ field :: after →
        let journal := before.filterMap j.fieldStored? ++ (j.fieldStored? field).toList ++
          after.filterMap j.fieldStored?
        updates = journal.map (Stored.response j.provider) ∧ k.memory = replay j.memory journal := by
  have connected : j.state = .connected := settled.worker (by rw [working]; rfl)
  have linked : j.state = .connected ∧ j.held = true := ⟨connected, settled.held.mpr connected⟩
  let k : Instrument δ := { j with worker := some (a.push bytes).2 }
  have hround : j.round d = (some (k.absorb ((a.push bytes).1.flatMap Record.fields)).1,
      (k.absorb ((a.push bytes).1.flatMap Record.fields)).2, d') := by
    rw [round, working, configured]
    dsimp only
    rw [if_pos linked, stream]
    dsimp only
    rw [drain, sent]
  obtain ⟨hresponses, hmemory⟩ := accounts_absorb ((a.push bytes).1.flatMap Record.fields) k
  refine ⟨_, _, hround, fun before field after hsplit => ?_⟩
  have journal : ((a.push bytes).1.flatMap Record.fields).filterMap k.fieldStored? =
      before.filterMap j.fieldStored? ++ (j.fieldStored? field).toList ++ after.filterMap j.fieldStored? := by
    have same : k.fieldStored? = j.fieldStored? := rfl
    rw [hsplit, same, List.filterMap_append, List.filterMap_cons, List.append_assoc]
    cases j.fieldStored? field <;> rfl
  rw [journal] at hresponses hmemory
  exact ⟨hresponses, hmemory⟩

/-- In every round of an instrument in stream mode that is accepted, whatever was done with it and whatever its
devices do, with a field of a complete record that has the name of a parameter and denotes a value of its type:
between what the fields before it and behind it bring, the value is stored under the memory key of this parameter
and published as a reading of it, if and only if no parameter of an earlier name has that name as its memory
key. -/
theorem drain_attributes {registry : Registry δ} {c : InstrumentConfig} {i : Instrument δ}
    (accepted : assemble registry c = .ok i)
    (ordered : (c.parameters.map Prod.fst).Pairwise fun s t => Text.before s t = true)
    (ops : List Operation) (d : δ) {j : Instrument δ} {d' : δ} (reached : run ops i d = (j, d'))
    {a : Record.Accumulator} (working : j.worker = some a) {cyclic : CyclicConfig}
    (configured : c.cyclic = some cyclic) (stream : cyclic.mode = .stream) {bytes : Bytes} {d'' : δ}
    (sent : j.transport.readAvailable j.config d' = (.ok bytes, d'')) :
    ∃ updates k, j.round d' = (some updates, k, d'') ∧
      ∀ before key raw after, (a.push bytes).1.flatMap Record.fields = before ++ (key, raw) :: after →
        ∀ p type v, i.parameter? key = some p → p.valueType = some type → type.parse? raw = some v →
          ((updates = (before.filterMap i.fieldStored?).map (Stored.response c.provider) ++
                ⟨some c.provider, key, .get, some v⟩ ::
                (after.filterMap i.fieldStored?).map (Stored.response c.provider) ∧
              k.memory = replay ((replay j.memory (before.filterMap i.fieldStored?)).store p.memoryKey v)
                (after.filterMap i.fieldStored?)) ↔
            ∀ name q, i.parameter? name = some q → Text.before name key = true → q.memoryKey ≠ key) := by
  have distinct : (c.parameters.map Prod.fst).Nodup := ordered.imp Text.ne_of_before
  have named := wellNamed_of_assemble distinct accepted
  have standing := reached_run accepted distinct ops d
  rw [reached] at standing
  dsimp only at standing
  have taken : j.fieldStored? = i.fieldStored? := by
    funext field
    rw [fieldStored?, fieldStored?, fieldParameter?, fieldParameter?, standing.make.parameters]
  obtain ⟨updates, k, hround, haround⟩ :=
    round_around standing.settled working (standing.config ▸ configured) stream sent
  refine ⟨updates, k, hround, fun before key raw after hfields p type v found typed denotes => ?_⟩
  obtain ⟨hupdates, hmemory⟩ := haround before (key, raw) after hfields
  rw [standing.provider, taken] at hupdates
  rw [taken] at hmemory
  rw [← fieldParameter?_eq_some_iff (ordered_of_assemble accepted ordered) named found,
    ← response_of_field_iff named found typed denotes c.provider]
  constructor
  · rintro ⟨hpublished, -⟩
    -- what stands before and behind is the same, so what stands between is
    rwa [hupdates, List.map_append, List.map_append, List.append_assoc, List.append_cancel_left_eq,
      ← List.singleton_append, List.append_cancel_right_eq] at hpublished
  · intro hresponse
    have hparameter := (response_of_field_iff named found typed denotes c.provider).mp hresponse
    refine ⟨?_, ?_⟩
    · rw [hupdates, List.map_append, List.map_append, hresponse, List.append_assoc]
      rfl
    · rw [hmemory, fieldStored?_of_parameter hparameter typed denotes, List.append_assoc]
      exact replay_append_cons j.memory _ _ _

/-- A voltage that is written and read under different names and kept under the one that it is read by. -/
def setPoint : ParameterDeclaration :=
  ⟨"set point", some "float", none, some "volt", none,
    some ⟨some (.arr [.arr [.str "float"], .null]), [⟨some "VOLT {0}", none⟩]⟩⟩

/-- How it is read. -/
def measured : ParameterDeclaration :=
  ⟨"voltage", some "float", none, none, some ⟨none, [⟨none, some "V?"⟩]⟩, none⟩

/-- A supply that sends its voltage on its own, each with a line feed behind it. -/
def splitConfig (parameters : Keyed ParameterDeclaration) : InstrumentConfig :=
  { InstrumentConfig.supply with
    readTermination := "\n"
    cyclic := some ⟨.stream, 1000, ["volt"]⟩
    parameters }

/-- The record `volt=5`. -/
def voltRecord : Bytes := [0x76, 0x6F, 0x6C, 0x74, 0x3D, 0x35, 0x0A]

/-- A bench where it is sent once. -/
def splitBench : Bench := ⟨[("psu", ⟨[], [], some [.ok voltRecord], []⟩)]⟩

/-- Where the name that it is written under comes later, the voltage reaches the name it was sent for. -/
theorem drain_attributes_later :
    let c := splitConfig [("volt", measured), ("volt_set", setPoint)]
    ∃ (i j : Instrument Bench) (d' d'' : Bench) (a : Record.Accumulator) (p : Parameter) (v : Json),
      assemble Bench.registry c = .ok i ∧
      ((c.parameters.map Prod.fst).Pairwise fun s t => Text.before s t = true) ∧
      run panelOperations i splitBench = (j, d') ∧ j.worker = some a ∧
      j.transport.readAvailable j.config d' = (.ok voltRecord, d'') ∧
      i.parameter? "volt" = some p ∧ p.valueType = some .float ∧ ValueType.parse? .float "5" = some v ∧
      ∃ k, j.round d' = (some [⟨some "psu", "volt", .get, some v⟩], k, d'') ∧
        k.memory = j.memory.store "volt" v := by
  intro c
  obtain ⟨i, accepted⟩ : ∃ i, assemble Bench.registry c = .ok i := ⟨_, rfl⟩
  have ordered : (c.parameters.map Prod.fst).Pairwise fun s t => Text.before s t = true := by decide
  obtain ⟨j, d', a, d'', reached, working, sent⟩ : ∃ j d' a d'', run panelOperations i splitBench = (j, d') ∧
      j.worker = some a ∧ j.transport.readAvailable j.config d' = (.ok voltRecord, d'') := by
    cases accepted
    exact ⟨_, _, _, _, rfl, rfl, rfl⟩
  obtain ⟨v, denotes⟩ : ∃ v, ValueType.parse? .float "5" = some v := ⟨_, rfl⟩
  obtain ⟨p, found, typed, hkey⟩ :
      ∃ p, i.parameter? "volt" = some p ∧ p.valueType = some .float ∧ p.memoryKey = "volt".toList := by
    cases accepted
    exact ⟨_, rfl, rfl, rfl⟩
  obtain ⟨updates, k, hround, haround⟩ := drain_attributes accepted ordered panelOperations splitBench reached
    working rfl rfl sent
  have fields : (a.push voltRecord).1.flatMap Record.fields = [("volt".toList, "5".toList)] := by
    cases accepted
    cases reached
    cases working
    decide
  have unhidden : ∀ name q, i.parameter? name = some q → Text.before name "volt" = true →
      q.memoryKey ≠ "volt".toList := by
    intro name q hq earlier
    obtain ⟨d, hd, -⟩ := exists_declared accepted hq
    have later : ∀ x ∈ c.parameters, Text.before x.1 "volt" ≠ true := by decide
    exact absurd earlier (later _ hd)
  obtain ⟨hupdates, hmemory⟩ := (haround [] "volt" "5" [] fields p .float v found typed denotes).mpr unhidden
  refine ⟨i, j, d', d'', a, p, v, accepted, ordered, reached, working, sent, found, typed, denotes, k, ?_, ?_⟩
  · rw [hround, hupdates]
    rfl
  · rw [hmemory, hkey]
    rfl

/-- Where it comes first, the voltage is published as a reading of it, which is not announced. -/
theorem drain_attributes_hidden :
    let c := splitConfig [("set_volt", setPoint), ("volt", measured)]
    ∃ (i j : Instrument Bench) (d' d'' : Bench) (a : Record.Accumulator) (p : Parameter) (v : Json),
      assemble Bench.registry c = .ok i ∧
      ((c.parameters.map Prod.fst).Pairwise fun s t => Text.before s t = true) ∧
      run panelOperations i splitBench = (j, d') ∧ j.worker = some a ∧
      j.transport.readAvailable j.config d' = (.ok voltRecord, d'') ∧
      (a.push voltRecord).1.flatMap Record.fields = [("volt".toList, "5".toList)] ∧
      i.parameter? "volt" = some p ∧ p.valueType = some .float ∧ ValueType.parse? .float "5" = some v ∧
      ∃ k, j.round d' = (some [⟨some "psu", "set_volt", .get, some v⟩], k, d'') ∧
        ("volt".toList, Accessor.get) ∈ i.served ∧ ("set_volt".toList, Accessor.get) ∉ i.served := by
  refine ⟨_, _, _, _, _, _, _, rfl, by decide, rfl, rfl, rfl, by decide, rfl, rfl, rfl, _, rfl, ?_, ?_⟩
  · decide
  · decide

end Instrument

end GroundStation
