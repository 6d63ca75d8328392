/-
# Readings are of the type that they are announced with

Who reads a parameter is told its type beforehand, by the signature of its entry.  At run time nothing insists
on that type: a reply without one is taken for no value, a reply that has not come for an empty text, and a
field without one is kept as it is.  None of the three is met by a parameter that can be read, for it does not
compile without a type and a query.

A request stores one value and answers with it.  A round stores several, perhaps under one key, and publishes
them in the end, so what the memory holds right after one of them is not what it holds behind the round.
`Midway` are the instruments in the middle of a round, after some of the names or of the fields, and behind each
value of the journal stands one that remembers it (`midway_of_roundJournal`).
-/
import GroundStation.Proofs.Instrument.Entries
import GroundStation.Proofs.Instrument.Publication
import GroundStation.Proofs.Parameter.Values

namespace GroundStation

namespace Instrument

variable {δ : Type} {i : Instrument δ} {p : Parameter} {d : δ}

/-! ## Reading -/

/-- A read that succeeds, of a parameter with a type and a query: the device has replied, and the value is what
its last reply denotes. -/
theorem read_eq_ok {type : ValueType} {steps : List Step} {args : List Text} {value : Option Json}
    {k : Instrument δ} {d' : δ} (getter : p.getter = some steps) (queries : steps.any Step.isQuery = true)
    (typed : p.valueType = some type) (h : i.read p args d = (.ok value, k, d')) :
    ∃ log reply v, value = some v ∧ k = i.remember p (some v) ∧
      (∀ before, i.recorded.read p args (d, before) = (.ok value, k.recorded, d', before ++ log)) ∧
      (log.filterMap Transmission.reply?).getLast? = some reply ∧ type.parse? reply = some v := by
  obtain ⟨log, whole, course, hrecorded, hok, herror⟩ := runSteps_recorded (i := i) p.name args steps none d
  simp only [read, getter] at h
  split at h
  case isFalse => cases h
  next hempty =>
  rcases hrun : i.runSteps p.name args steps none d with ⟨outcome, d₁⟩
  rw [hrun] at h hok herror hrecorded
  cases whole with
  | false =>
    obtain ⟨f, rfl⟩ := herror rfl
    cases h
  | true =>
    have hreply := hok rfl
    rw [Option.or_none] at hreply
    dsimp only at hreply
    subst hreply
    obtain ⟨reply, hlast⟩ : ∃ reply, (log.filterMap Transmission.reply?).getLast? = some reply := by
      refine Option.ne_none_iff_exists'.mp fun hnone => ?_
      rw [(course.reply_eq_none_iff rfl).mp hnone] at queries
      cases queries
    rw [hlast] at h hrecorded
    dsimp only [Option.getD_some] at h
    cases hparse : p.parseReply reply with
    | error e =>
      rw [hparse] at h
      cases h
    | ok parsed =>
      obtain ⟨v, rfl, hv⟩ := (Parameter.parseReply_eq_ok_iff typed).mp hparse
      rw [hparse] at h
      cases h
      refine ⟨log, reply, v, rfl, rfl, fun before => ?_, hlast, hv⟩
      simp only [read, getter, hempty, hrecorded, Option.getD_some, hparse, if_true]
      exact settle_recorded p _ (before ++ log) (.ok (some v))

/-- A request to read that is not answered by an error: the link is open, and the read succeeds. -/
theorem read_of_execute {name : Text} {args : List Text} {response : Response} {k : Instrument δ} {d' : δ}
    (found : i.parameter? name = some p)
    (h : i.execute ⟨some i.provider, name, .get, args⟩ d = (some response, k, d'))
    (succeeds : response.isError = false) :
    (i.state = .connected ∧ i.held) ∧
      ∃ value, response = ⟨some i.provider, name, .get, value⟩ ∧ i.read p args d = (.ok value, k, d') := by
  rw [execute_addressed rfl] at h
  by_cases linked : i.state = .connected ∧ i.held
  · refine ⟨linked, ?_⟩
    rw [perform] at h
    dsimp only at h
    rw [command_eq_conclude found linked, if_pos rfl] at h
    rcases hread : i.read p args d with ⟨(e | e) | value, j, d₁⟩ <;> rw [hread] at h <;> cases h
    · cases succeeds
    · cases succeeds
    · exact ⟨value, rfl, rfl⟩
  · rw [perform] at h
    dsimp only at h
    rw [command, found] at h
    dsimp only at h
    rw [if_neg linked] at h
    cases h
    cases succeeds

theorem execute_recorded_of_read {name : Text} {args : List Text} {value : Option Json} {k : Instrument δ}
    {d' : δ} {log : List Transmission} (linked : i.state = .connected ∧ i.held)
    (found : i.parameter? name = some p)
    (recorded : ∀ before, i.recorded.read p args (d, before) = (.ok value, k.recorded, d', before ++ log))
    (before : List Transmission) :
    i.recorded.execute ⟨some i.provider, name, .get, args⟩ (d, before) =
      (some ⟨some i.provider, name, .get, value⟩, k.recorded, d', before ++ log) := by
  let r : Request := ⟨some i.provider, name, .get, args⟩
  have hcommand : i.recorded.command r (d, before) = conclude (i.recorded.read p args (d, before)) :=
    command_eq_conclude (i := i.recorded) (r := r) found linked (d, before)
  rw [execute_addressed (i := i.recorded) rfl]
  show (some (respond r (i.recorded.command r (d, before)).1), (i.recorded.command r (d, before)).2) = _
  rw [hcommand, recorded]
  rfl

/-! ## Rounds -/

/-- A stored value is one of a parameter of the instrument, and of the type of this parameter if it has one. -/
structure Stored.Sound (i : Instrument δ) (s : Stored) : Prop where
  declared : i.parameter? s.parameter.name = some s.parameter
  typed : ∀ type, s.parameter.valueType = some type → type.Admits s.value

theorem admits_of_parseReply {type : ValueType} {reply : Text} {v : Json} (typed : p.valueType = some type)
    (h : p.parseReply reply = .ok (some v)) : type.Admits v := by
  obtain ⟨_, ⟨⟩, hparse⟩ := (Parameter.parseReply_eq_ok_iff typed).mp h
  exact ValueType.admits_of_parse? hparse

theorem admits_of_read {type : ValueType} {args : List Text} {v : Json} {k : Instrument δ} {d' : δ}
    (typed : p.valueType = some type) (h : i.read p args d = (.ok (some v), k, d')) : type.Admits v := by
  unfold read at h
  split at h
  · cases h
  · split at h
    · split at h
      · cases h
      · next reply _ _ =>
        cases hparse : p.parseReply (reply.getD []) with
        | error e =>
          rw [hparse] at h
          cases h
        | ok parsed =>
          rw [hparse] at h
          cases h
          exact admits_of_parseReply typed hparse
    · cases h

theorem sound_of_mem_pollJournal (names : List Text) :
    ∀ {i : Instrument δ} {d : δ}, Named i → ∀ s ∈ i.pollJournal names d, s.Sound i := by
  induction names with
  | nil => exact fun _ s hs => absurd hs List.not_mem_nil
  | cons name rest ih =>
    intro i d named s hs
    rw [pollJournal] at hs
    cases found : i.parameter? name with
    | none =>
      rw [found] at hs
      exact ih named s hs
    | some p =>
      rw [found] at hs
      dsimp only at hs
      have hread := read_eq_remember i p [] d
      rcases hresult : i.read p [] d with ⟨(e | e) | _ | value, j, d'⟩
      all_goals
        rw [hresult] at hread hs
        dsimp only [readValue?] at hread hs
        subst hread
      · exact ih named s hs
      · exact absurd hs List.not_mem_nil
      · exact ih named s hs
      · rcases List.mem_cons.mp hs with rfl | hlater
        · refine ⟨?_, fun type typed => admits_of_read typed hresult⟩
          rw [named name p found]
          exact found
        · obtain ⟨declared, typed⟩ := ih (i := i.remember p (some value)) named s hlater
          exact ⟨declared, typed⟩

theorem sound_of_fieldStored? (named : WellNamed i) {field : Text × Text} {s : Stored}
    (h : i.fieldStored? field = some s) : s.Sound i := by
  obtain ⟨p, hp, hv⟩ := Option.bind_eq_some_iff.mp h
  obtain ⟨v, hvalue, rfl⟩ := Option.map_eq_some_iff.mp hv
  obtain ⟨⟨name, q⟩, hfound, rfl⟩ := Option.map_eq_some_iff.mp hp
  obtain ⟨hname, hparameter⟩ := named.parameter? name q (List.mem_of_find?_eq_some hfound)
  refine ⟨hname ▸ hparameter, fun type typed => ?_⟩
  unfold fieldValue? at hvalue
  split at hvalue
  · next value hparse =>
    cases hvalue
    exact admits_of_parseReply typed hparse
  · next hparse => cases ((Parameter.parseReply_eq_ok_iff typed).mp hparse).choose_spec.1
  · cases hvalue

theorem WellNamed.named (named : WellNamed i) : Named i :=
  fun name p found => (named.parameter? name p (Keyed.mem_of_get? found)).1

/-- Whatever is stored in a round is sound. -/
theorem sound_of_mem_roundJournal (named : WellNamed i) : ∀ s ∈ i.roundJournal d, s.Sound i := by
  intro s hs
  unfold roundJournal at hs
  split at hs
  · split at hs
    · split at hs
      · exact sound_of_mem_pollJournal _ named.named s hs
      · unfold drainJournal at hs
        split at hs
        · obtain ⟨field, -, hfield⟩ := List.mem_filterMap.mp hs
          exact sound_of_fieldStored? named hfield
        · cases hs
    · cases hs
  · cases hs

/-- The instrument in the middle of a round: the first names that are polled have been read, or the first fields
that have come have been taken. -/
inductive Midway (i : Instrument δ) (d : δ) : Instrument δ → Prop
  | polling {cyclic : CyclicConfig} {names rest : List Text} : i.config.cyclic = some cyclic →
      cyclic.mode = .poll → cyclic.parameters = names ++ rest → Midway i d (i.pollFrom names d).2.1
  | draining {cyclic : CyclicConfig} {a : Record.Accumulator} {bytes : Bytes} {d' : δ}
      {fields rest : List (Text × Text)} : i.config.cyclic = some cyclic → cyclic.mode = .stream →
      i.worker = some a → i.transport.readAvailable i.config d = (.ok bytes, d') →
      (a.push bytes).1.flatMap Record.fields = fields ++ rest →
      Midway i d (absorb { i with worker := some (a.push bytes).2 } fields).2

/-- The first name that is polled loses the link, or it stores a value or none and the rest is polled. -/
theorem pollJournal_cons (i : Instrument δ) (name : Text) (d : δ) :
    (∀ rest, i.pollJournal (name :: rest) d = []) ∨
      ∃ (first : Option Stored) (j : Instrument δ) (d' : δ),
        ∀ rest, i.pollJournal (name :: rest) d = first.toList ++ j.pollJournal rest d' := by
  simp only [pollJournal]
  cases i.parameter? name with
  | none => exact .inr ⟨none, i, d, fun _ => rfl⟩
  | some p =>
    dsimp only
    rcases i.read p [] d with ⟨(e | e) | _ | value, j, d'⟩
    · exact .inr ⟨none, j, d', fun _ => rfl⟩
    · exact .inl fun _ => rfl
    · exact .inr ⟨none, j, d', fun _ => rfl⟩
    · exact .inr ⟨some ⟨p, value⟩, j, d', fun _ => rfl⟩

/-- A journal of polling up to some value is the journal of the names up to the one that the value was read
for. -/
theorem exists_pollJournal_eq (names : List Text) :
    ∀ {i : Instrument δ} {d : δ} {before after : List Stored} {s : Stored},
      i.pollJournal names d = before ++ s :: after →
      ∃ first rest, names = first ++ rest ∧ i.pollJournal first d = before ++ [s] := by
  induction names with
  | nil => exact fun h => absurd h.symm (List.append_ne_nil_of_right_ne_nil _ (List.cons_ne_nil _ _))
  | cons name names ih =>
    intro i d before after s h
    rcases pollJournal_cons i name d with lost | ⟨first, j, d', step⟩
    · rw [lost] at h
      exact absurd h.symm (List.append_ne_nil_of_right_ne_nil _ (List.cons_ne_nil _ _))
    · rw [step] at h
      cases first with
      | none =>
        obtain ⟨read, rest, rfl, hread⟩ := ih h
        exact ⟨name :: read, rest, rfl, (step read).trans hread⟩
      | some t =>
        cases before with
        | nil =>
          obtain ⟨rfl, -⟩ := List.cons.inj h
          exact ⟨[name], names, rfl, step []⟩
        | cons u before =>
          obtain ⟨rfl, hlater⟩ := List.cons.inj h
          obtain ⟨read, rest, rfl, hread⟩ := ih hlater
          exact ⟨name :: read, rest, rfl, (step read).trans (congrArg (t :: ·) hread)⟩

/-- Right after a value of the journal the instrument remembers what has been stored up to it. -/
theorem midway_of_roundJournal (named : Named i) {before after : List Stored} {s : Stored}
    (h : i.roundJournal d = before ++ s :: after) :
    ∃ m, Midway i d m ∧ m.memory = replay i.memory (before ++ [s]) := by
  have nonempty : before ++ s :: after ≠ [] := List.append_ne_nil_of_right_ne_nil _ (List.cons_ne_nil _ _)
  unfold roundJournal at h
  split at h
  case h_2 => exact absurd h.symm nonempty
  next a cyclic worker configured =>
  split at h
  case isFalse => exact absurd h.symm nonempty
  split at h
  · next poll =>
    obtain ⟨first, rest, hnames, hfirst⟩ := exists_pollJournal_eq _ h
    refine ⟨_, .polling configured poll hnames, ?_⟩
    rw [(accounts_pollFrom first named d).memory, hfirst]
  · next stream =>
    unfold drainJournal at h
    split at h
    case h_2 => exact absurd h.symm nonempty
    next bytes hread =>
    rw [List.append_cons] at h
    obtain ⟨fields, rest, hfields, hbefore, -⟩ := List.filterMap_eq_append_iff.mp h
    refine ⟨_, .draining configured stream worker (Prod.ext hread rfl) hfields, ?_⟩
    rw [(accounts_absorb fields { i with worker := some (a.push bytes).2 }).2, ← hbefore]
    rfl

theorem replay_append_cons (m : Memory) (front back : List Stored) (s : Stored) :
    replay m (front ++ s :: back) = replay ((replay m front).store s.parameter.memoryKey s.value) back :=
  List.foldl_append ..

theorem get?_replay_append (m : Memory) (journal : List Stored) (s : Stored) :
    (replay m (journal ++ [s])).get? s.parameter.memoryKey = some s.value := by
  rw [replay_append_cons]
  exact (Memory.get?_store ..).trans (if_pos rfl)

/-! ## What is announced is what is published -/

/-- What compiling says of a parameter that can be read, of an accepted instrument. -/
theorem announced_of_getter {registry : Registry δ} {c : InstrumentConfig} (accepted : assemble registry c = .ok i)
    {name : Text} (found : i.parameter? name = some p) {steps : List Step} (getter : p.getter = some steps) :
    p.name = name ∧ steps.any Step.isQuery = true ∧ ∃ type, p.valueType = some type ∧
      ⟨i.provider, name, .get, (Signature.mk [] (some type.name)).toJson, p.description⟩ ∈ i.entries := by
  obtain ⟨declaration, -, hcompile⟩ := exists_declared accepted found
  obtain ⟨queries, type, typed⟩ := Parameter.getter_of_compile hcompile getter
  have hname := Parameter.name_of_compile hcompile
  refine ⟨hname, queries, type, typed, ?_⟩
  have signature : p.getSignature = ⟨[], some type.name⟩ := by rw [Parameter.getSignature, typed]; rfl
  refine List.mem_append_left _ (List.mem_append_left _ (List.mem_flatMap.mpr ⟨(name, p), ?_, ?_⟩))
  · exact Keyed.mem_of_get? found
  · dsimp only
    rw [parameterEntries, getter, hname, signature]
    exact List.mem_cons_self

/-- For every parameter with a getter of an accepted instrument, whatever was done with it and whatever its
devices do: it is announced with a type, and what a request for it or a round of acquisition stores and answers
are values of that type.  A request that is not answered by an error is answered by the value that the last
reply of the device denotes, and this value is remembered.  A round publishes its journal or loses the link;
each value of the journal is remembered right after it is stored. -/
theorem advertised_honoured {registry : Registry δ} {c : InstrumentConfig} {i : Instrument δ}
    (accepted : assemble registry c = .ok i) (distinct : (c.parameters.map Prod.fst).Nodup)
    {name : Text} {p : Parameter} (found : i.parameter? name = some p) (readable : p.getter ≠ none)
    (ops : List Operation) (d : δ) :
    ∃ type, p.valueType = some type ∧
      ⟨c.provider, name, .get, (Signature.mk [] (some type.name)).toJson, p.description⟩ ∈ i.entries ∧
      ∃ j d', run ops i d = (j, d') ∧
        (∀ args response k d'', j.execute ⟨some c.provider, name, .get, args⟩ d' = (some response, k, d'') →
          response.isError = false →
          ∃ v, response = ⟨some c.provider, name, .get, some v⟩ ∧ type.Admits v ∧
            k.memory.get? p.memoryKey = some v ∧
            ∃ log reply, (∀ before, j.recorded.execute ⟨some c.provider, name, .get, args⟩ (d', before) =
                (some response, k.recorded, d'', before ++ log)) ∧
              (log.filterMap Transmission.reply?).getLast? = some reply ∧ type.parse? reply = some v) ∧
        ∃ published k d'', j.round d' = (published, k, d'') ∧
          (published = none ∨ published = some ((j.roundJournal d').map (Stored.response c.provider))) ∧
          k.memory = replay j.memory (j.roundJournal d') ∧
          ∀ before s after, j.roundJournal d' = before ++ s :: after → s.parameter.name = name →
            type.Admits s.value ∧ ∃ m, Midway j d' m ∧ m.memory = replay j.memory (before ++ [s]) ∧
              m.memory.get? p.memoryKey = some s.value := by
  obtain ⟨steps, getter⟩ := Option.ne_none_iff_exists'.mp readable
  obtain ⟨rfl, queries, type, typed, announced⟩ := announced_of_getter accepted found getter
  obtain ⟨j, d', hrun⟩ : ∃ j d', run ops i d = (j, d') := ⟨_, _, rfl⟩
  have reached := reached_run accepted distinct ops d
  rw [hrun] at reached
  dsimp only at reached
  have provider : j.provider = c.provider := reached.provider
  have found' : j.parameter? p.name = some p := by
    rw [parameter?, reached.make.parameters]
    exact found
  rw [← reached.make.provider, provider] at announced
  refine ⟨type, typed, announced, j, d', hrun, ?_, ?_⟩
  · intro args response k d'' h succeeds
    rw [← provider] at h ⊢
    obtain ⟨linked, value, rfl, hread⟩ := read_of_execute found' h succeeds
    obtain ⟨log, reply, v, rfl, rfl, recorded, hlast, hv⟩ := read_eq_ok getter queries typed hread
    refine ⟨v, rfl, ValueType.admits_of_parse? hv, ?_, log, reply, ?_, hlast, hv⟩
    · rw [get?_remember, if_pos rfl]
      rfl
    · exact execute_recorded_of_read linked found' recorded
  · have accounts := accounts_round reached.named.named d'
    have responses := accounts.responses
    rw [provider] at responses
    refine ⟨_, _, _, rfl, responses, accounts.memory, fun before s after h hname => ?_⟩
    have sound := sound_of_mem_roundJournal reached.named s (h ▸ List.mem_append_right _ List.mem_cons_self)
    obtain rfl : s.parameter = p := by
      have declared := sound.declared
      rw [hname, found'] at declared
      exact (Option.some.inj declared).symm
    obtain ⟨m, midway, hmemory⟩ := midway_of_roundJournal reached.named.named h
    refine ⟨sound.typed type typed, m, midway, hmemory, ?_⟩
    rw [hmemory]
    exact get?_replay_append j.memory before s

/-- The mode of the panel is reported with blanks around it: asked for and polled, it is trimmed. -/
theorem advertised_honoured_panel :
    ∃ (i : Instrument Bench) (p : Parameter), assemble Bench.registry panelConfig = .ok i ∧
      (panelConfig.parameters.map Prod.fst).Nodup ∧ i.parameter? "mode" = some p ∧ p.getter ≠ none ∧
      p.valueType = some .str ∧
      ∃ j d', run panelOperations i (panelBench (.ok " on ")) = (j, d') ∧
        (∃ response k d'', j.execute ⟨some panelConfig.provider, "mode", .get, []⟩ d' = (some response, k, d'') ∧
          response = ⟨some "psu", "mode", .get, some (.str "on")⟩ ∧
          ValueType.Admits .str (.str "on") ∧ k.memory.get? p.memoryKey = some (.str "on")) ∧
        ∃ first last m, j.roundJournal d' = [first] ++ last :: [] ∧ last.parameter.name = "mode".toList ∧
          ValueType.Admits .str last.value ∧ Midway j d' m ∧ m.memory.get? p.memoryKey = some last.value := by
  obtain ⟨i, accepted⟩ : ∃ i, assemble Bench.registry panelConfig = .ok i := ⟨_, rfl⟩
  have distinct : (panelConfig.parameters.map Prod.fst).Nodup := by decide
  obtain ⟨p, found, readable⟩ : ∃ p, i.parameter? "mode" = some p ∧ p.getter ≠ none := by
    cases accepted
    exact ⟨_, rfl, nofun⟩
  obtain ⟨type, typed, -, j, d', hrun, asked, -, -, -, -, -, -, polled⟩ :=
    advertised_honoured accepted distinct found readable panelOperations (panelBench (.ok " on "))
  obtain ⟨response, k, d'', hexecute, hresponse⟩ : ∃ response k d'',
      j.execute ⟨some panelConfig.provider, "mode", .get, []⟩ d' = (some response, k, d'') ∧
      response = ⟨some "psu", "mode", .get, some (.str "on")⟩ := by
    cases accepted
    cases hrun
    exact ⟨_, _, _, rfl, rfl⟩
  obtain ⟨first, last, hjournal, hname⟩ : ∃ first last,
      j.roundJournal d' = [first] ++ last :: [] ∧ last.parameter.name = "mode".toList := by
    cases accepted
    cases hrun
    exact ⟨_, _, rfl, rfl⟩
  obtain rfl : type = .str := by
    cases accepted
    cases found
    exact (Option.some.inj typed).symm
  obtain ⟨v, hanswer, admits, remembered, -⟩ := asked [] response k d'' hexecute (by rw [hresponse]; rfl)
  obtain rfl : v = .str "on" := by
    rw [hresponse] at hanswer
    injection hanswer with _ _ _ hv
    exact (Option.some.inj hv).symm
  obtain ⟨admits', m, midway, -, remembered'⟩ := polled [first] last [] hjournal hname
  exact ⟨i, p, accepted, distinct, found, readable, typed, j, d', hrun,
    ⟨response, k, d'', hexecute, hresponse, admits, remembered⟩,
    first, last, m, hjournal, hname, admits', midway, remembered'⟩

end Instrument

end GroundStation
