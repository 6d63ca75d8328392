/-
# The declarations that compile

A declaration is compiled where nothing is wrong with it, and what that means is said here of the declaration
alone: of the names of types in it, the shape of its signatures, and its steps, each of which is one write or
one query of a template that can be scanned (`ParameterDeclaration.WellFormed`).

Compiling is many checks one after another.  Each stage is told by a relation between what it is given and what
it yields, in both directions, so that nothing good is refused and nothing bad gets through; the accessors and
the whole declaration are put together from these (`compile_accepts`).  A compiled accessor has the steps that
were declared, in their order, and for each argument of its signature one slot with the type that the argument
names, if it names one (`Compiles`).
-/
import GroundStation.Proofs.Catalog.Batch
import GroundStation.Proofs.Instrument.Assembly
import GroundStation.Proofs.Template.Soundness
import Mathlib.Data.Set.List

namespace GroundStation

/-! ## Names of types -/

namespace ValueType

/-- The names of types. -/
def names : List Text :=
  ["int", "integer", "float", "double", "real", "bool", "boolean", "str", "string", "hex", "bytes"]

/-- A name of a type, in any letter case. -/
def Known (name : Text) : Prop := Text.lower name ∈ names

instance : DecidablePred Known := fun name => inferInstanceAs (Decidable (Text.lower name ∈ names))

theorem exists_named?_iff {name : Text} : (∃ type, named? name = some type) ↔ Known name := by
  rw [Known, names]
  unfold named?
  generalize Text.lower name = t
  constructor
  · rintro ⟨type, h⟩
    dsimp only at h
    simp only [List.mem_cons, List.not_mem_nil, or_false]
    split_ifs at h with hint hfloat hbool hstr hhex
    · exact hint.imp_right .inl
    · exact .inr (.inr (hfloat.imp_right (Or.imp_right .inl)))
    · exact .inr (.inr (.inr (.inr (.inr (hbool.imp_right .inl)))))
    · exact .inr (.inr (.inr (.inr (.inr (.inr (.inr (hstr.imp_right .inl)))))))
    · exact .inr (.inr (.inr (.inr (.inr (.inr (.inr (.inr (.inr hhex))))))))
  · intro hknown
    simp only [List.mem_cons, List.not_mem_nil, or_false] at hknown
    rcases hknown with rfl | rfl | rfl | rfl | rfl | rfl | rfl | rfl | rfl | rfl | rfl <;> exact ⟨_, rfl⟩

end ValueType

/-! ## Signatures -/

theorem Signature.read_eq_ok_iff {raw : Json} {s : Signature} : read raw = .ok s ↔ raw = s.toJson := by
  constructor
  · intro h
    unfold read at h
    split at h
    · split at h
      · split at h
        · cases h
          rfl
        · cases h
          rfl
        · cases h
      · cases h
    · cases h
    · cases h
  · rintro rfl
    exact read_toJson s

theorem Signature.parse_eq_ok_iff {id : Text} {raw : Json} {s : Signature} :
    parse id raw = .ok s ↔ raw = s.toJson := by
  rw [← read_eq_ok_iff, parse]
  cases read raw <;> simp

/-- The signature of an accessor: the one declared, or none, which is without arguments. -/
inductive AccessorDeclaration.Signed (a : AccessorDeclaration) : Signature → Prop
  | declared {s : Signature} : a.signature = some s.toJson → Signed a s
  | absent : a.signature = none → Signed a .empty

/-- The specification of an argument names a type: it is the name, or an object with it under `type`. -/
inductive NamesType : Json → Text → Prop
  | name (n : Text) : NamesType (.str n) n
  | member {members : List (Text × Json)} {n : Text} : Keyed.get? "type" members = some (.str n) →
      NamesType (.obj members) n

/-- The slot of an argument: the type that it names, or nothing where it names none. -/
inductive ArgumentSlot (spec : Json) : Option ValueType → Prop
  | typed {name : Text} {type : ValueType} : NamesType spec name → ValueType.named? name = some type →
      ArgumentSlot spec (some type)
  | untyped : (∀ name, ¬NamesType spec name) → ArgumentSlot spec none

/-! ## Steps -/

namespace Template

/-- A template that is scanned, and whose placeholders name positions below `arity`. -/
def Scans (arity : Nat) (template : Text) : Prop :=
  ∃ segments, template = writeAll segments ∧ (∀ s ∈ segments, s.WellFormed) ∧
    ∀ body, .placeholder body ∈ segments → ∃ n, position? body = some n ∧ n < arity

/-- A template without placeholders: characters alone, the braces among them doubled. -/
def Plain (template : Text) : Prop := ∃ t : Text, template = writeAll (t.map .literal)

/-- Without arguments to name there are no placeholders. -/
theorem scans_zero_iff {template : Text} : Scans 0 template ↔ Plain template := by
  constructor
  · rintro ⟨segments, rfl, -, hbodies⟩
    have hliteral : ∀ s ∈ segments, ∃ c, Segment.literal c = s := by
      intro s hs
      cases s with
      | literal c => exact ⟨c, rfl⟩
      | placeholder body =>
        obtain ⟨n, -, hn⟩ := hbodies body hs
        exact absurd hn n.not_lt_zero
    obtain ⟨t, rfl⟩ := (Set.ext_iff.mp (Set.range_list_map Segment.literal) segments).mpr hliteral
    exact ⟨t, rfl⟩
  · rintro ⟨t, rfl⟩
    refine ⟨_, rfl, ?_, ?_⟩
    · intro s hs
      obtain ⟨c, -, rfl⟩ := List.mem_map.mp hs
      trivial
    · intro body hbody
      obtain ⟨c, -, hc⟩ := List.mem_map.mp hbody
      cases hc

/-- The templates that are scanned with positions below `arity`. -/
theorem scans_iff {arity : Nat} {template : Text} :
    Scans arity template ↔ ∃ indices, positions template = .ok indices ∧ ∀ i ∈ indices, i < arity := by
  constructor
  · rintro ⟨segments, rfl, hwell, hbodies⟩
    -- every placeholder names a position, so the positions of all of them form a list
    have hnamed : ∀ body ∈ segments.filterMap Segment.body?, ∃ n, position? body = some n ∧ n < arity := by
      intro body hbody
      obtain ⟨s, hs, hsome⟩ := List.mem_filterMap.mp hbody
      cases s with
      | literal c => cases hsome
      | placeholder body' =>
        cases hsome
        exact hbodies body hs
    obtain ⟨indices, hindices⟩ := (Set.ext_iff.mp (Set.range_list_map some)
      ((segments.filterMap Segment.body?).map position?)).mpr (by
        intro o ho
        obtain ⟨body, hbody, rfl⟩ := List.mem_map.mp ho
        obtain ⟨n, hn, -⟩ := hnamed body hbody
        exact ⟨n, hn.symm⟩)
    refine ⟨indices, positionsFrom_write _ hwell hindices.symm, fun i hi => ?_⟩
    have hmem : some i ∈ (segments.filterMap Segment.body?).map position? := by
      rw [← hindices]
      exact List.mem_map_of_mem hi
    obtain ⟨body, hbody, hi'⟩ := List.mem_map.mp hmem
    obtain ⟨n, hn, hlt⟩ := hnamed body hbody
    rw [hi', Option.some.injEq] at hn
    exact hn ▸ hlt
  · rintro ⟨indices, hindices, hlt⟩
    obtain ⟨segments, rfl, hwell, hpositions⟩ := positions_eq_ok hindices
    refine ⟨segments, rfl, hwell, fun body hbody => ?_⟩
    have hmem : position? body ∈ indices.map some := by
      rw [← hpositions]
      exact List.mem_map_of_mem (List.mem_filterMap.mpr ⟨_, hbody, rfl⟩)
    obtain ⟨n, hn, hposition⟩ := List.mem_map.mp hmem
    exact ⟨n, hposition.symm, hlt n hn⟩

end Template

/-- A step as it is declared. -/
def Step.declaration : Step → StepDeclaration
  | write template => ⟨some template, none⟩
  | query template => ⟨none, some template⟩

/-- A declared step is one write or one query, of a template with a property. -/
inductive StepDeclaration.Sends (P : Text → Prop) : StepDeclaration → Prop
  | write {template : Text} : P template → Sends P ⟨some template, none⟩
  | query {template : Text} : P template → Sends P ⟨none, some template⟩

theorem StepDeclaration.step?_eq_some_iff {s : StepDeclaration} {step : Step} :
    s.step? = some step ↔ s = step.declaration := by
  obtain ⟨write, query⟩ := s
  cases write <;> cases query <;> cases step <;> simp [step?, Step.declaration]

theorem mapM_step?_eq_some_iff : ∀ {declared : List StepDeclaration} {steps : List Step},
    declared.mapM StepDeclaration.step? = some steps ↔ declared = steps.map Step.declaration
  | [], steps => by
      cases steps <;> simp
  | s :: rest, steps => by
      simp only [List.mapM_cons, Option.bind_eq_bind, Option.bind_eq_some_iff, Option.pure_def,
        Option.some.injEq, mapM_step?_eq_some_iff, StepDeclaration.step?_eq_some_iff]
      constructor
      · rintro ⟨step, rfl, steps, rfl, rfl⟩
        rfl
      · intro h
        cases steps with
        | nil => cases h
        | cons step steps =>
          obtain ⟨rfl, rfl⟩ := List.cons.inj h
          exact ⟨step, rfl, steps, rfl, rfl⟩

/-- Declared steps that are each one write or one query are the declarations of steps. -/
theorem forall_sends_iff {P : Text → Prop} {declared : List StepDeclaration} :
    (∀ s ∈ declared, s.Sends P) ↔
      ∃ steps : List Step, declared = steps.map Step.declaration ∧ ∀ step ∈ steps, P step.template := by
  constructor
  · intro h
    induction declared with
    | nil => exact ⟨[], rfl, nofun⟩
    | cons s rest ih =>
      obtain ⟨hs, hrest⟩ := List.forall_mem_cons.mp h
      obtain ⟨steps, rfl, hsteps⟩ := ih hrest
      cases hs with
      | @write template ht => exact ⟨.write template :: steps, rfl, List.forall_mem_cons.mpr ⟨ht, hsteps⟩⟩
      | @query template ht => exact ⟨.query template :: steps, rfl, List.forall_mem_cons.mpr ⟨ht, hsteps⟩⟩
  · rintro ⟨steps, rfl, hsteps⟩ s hs
    obtain ⟨step, hstep, rfl⟩ := List.mem_map.mp hs
    cases step with
    | write template => exact .write (hsteps _ hstep)
    | query template => exact .query (hsteps _ hstep)

/-- One of the declared steps queries. -/
def AccessorDeclaration.Queries (a : AccessorDeclaration) : Prop := ∃ s ∈ a.steps, s.query ≠ none

theorem queries_iff {a : AccessorDeclaration} {steps : List Step}
    (declared : a.steps = steps.map Step.declaration) : a.Queries ↔ steps.any Step.isQuery = true := by
  simp only [AccessorDeclaration.Queries, declared, List.any_eq_true, List.mem_map, exists_exists_and_eq_and]
  refine exists_congr fun step => and_congr_right fun _ => ?_
  cases step <;> simp [Step.declaration, Step.isQuery]

namespace Parameter

variable (id : Text) {arity : Nat}

/-! ## The stages -/

theorem stepFault?_eq_none_iff {steps : List Step} :
    stepFault? arity steps = none ↔ ∀ step ∈ steps, Template.Scans arity step.template := by
  constructor
  · intro h step hstep
    exact Template.scans_iff.mpr (Template.positions_of_stepFault? h hstep)
  · intro h
    induction steps with
    | nil => rfl
    | cons step rest ih =>
      obtain ⟨hstep, hrest⟩ := List.forall_mem_cons.mp h
      obtain ⟨indices, hindices, hlt⟩ := Template.scans_iff.mp hstep
      have hfind : indices.find? (arity ≤ ·) = none := by
        refine List.find?_eq_none.mpr fun i hi => ?_
        simpa using hlt i hi
      rw [stepFault?, hindices]
      dsimp only
      rw [hfind]
      exact ih hrest

theorem compileSteps_eq_ok_iff {a : AccessorDeclaration} {steps : List Step} :
    compileSteps id a arity = .ok steps ↔
      a.steps = steps.map Step.declaration ∧ ∀ step ∈ steps, Template.Scans arity step.template := by
  rw [← mapM_step?_eq_some_iff, ← stepFault?_eq_none_iff, compileSteps]
  cases a.steps.mapM StepDeclaration.step? with
  | none => simp
  | some steps' =>
    dsimp only
    rw [Option.some.injEq]
    cases hfault : stepFault? arity steps' with
    | none =>
      rw [Except.ok.injEq]
      exact ⟨fun h => ⟨h, h ▸ hfault⟩, And.left⟩
    | some fault =>
      refine iff_of_false nofun ?_
      rintro ⟨rfl, h⟩
      rw [hfault] at h
      cases h

theorem argTypeName?_eq_some_iff {spec : Json} {name : Text} :
    argTypeName? spec = some name ↔ NamesType spec name := by
  constructor
  · intro h
    unfold argTypeName? at h
    split at h
    · cases h
      exact .name name
    · obtain ⟨member, hmember, hname⟩ := Option.bind_eq_some_iff.mp h
      cases member <;> cases hname
      exact .member hmember
    · cases h
  · intro h
    cases h with
    | name => rfl
    | member hmember =>
      rw [argTypeName?, hmember]
      rfl

theorem argType_eq_ok_iff {spec : Json} {slot : Option ValueType} :
    argType id spec = .ok slot ↔ ArgumentSlot spec slot := by
  rw [argType]
  cases hname : argTypeName? spec with
  | none =>
    have hnone : ∀ name, ¬NamesType spec name := by
      intro name h
      rw [← argTypeName?_eq_some_iff, hname] at h
      cases h
    constructor
    · intro h
      cases h
      exact .untyped hnone
    · intro h
      cases h with
      | typed hnamed => exact absurd hnamed (hnone _)
      | untyped => rfl
  | some name =>
    have hnamed := argTypeName?_eq_some_iff.mp hname
    dsimp only
    constructor
    · intro h
      split at h
      · next type htype =>
        cases h
        exact .typed hnamed htype
      · cases h
    · intro h
      cases h with
      | typed hnamed' htype =>
        rw [← argTypeName?_eq_some_iff, hname, Option.some.injEq] at hnamed'
        rw [hnamed', htype]
      | untyped hnone => exact absurd hnamed (hnone name)

theorem argTypes_eq_ok_iff {specs : List Json} :
    ∀ {slots : List (Option ValueType)},
      argTypes id specs = .ok slots ↔ List.Forall₂ ArgumentSlot specs slots := by
  induction specs with
  | nil =>
    intro slots
    rw [argTypes, List.forall₂_nil_left_iff, Except.ok.injEq, eq_comm]
  | cons spec rest ih =>
    intro slots
    rw [argTypes, List.forall₂_cons_left_iff]
    simp only [← ih, ← argType_eq_ok_iff id, Except.bind_eq_ok_iff, pure, Except.pure, Except.ok.injEq]
    constructor
    · rintro ⟨slot, hslot, slots, hslots, rfl⟩
      exact ⟨slot, slots, hslot, hslots, rfl⟩
    · rintro ⟨slot, slots, hslot, hslots, rfl⟩
      exact ⟨slot, hslot, slots, hslots, rfl⟩

/-- An argument has a slot if and only if the type that it names, if it names one, is known. -/
theorem exists_slot_iff {spec : Json} :
    (∃ slot, ArgumentSlot spec slot) ↔ ∀ name, NamesType spec name → ValueType.Known name := by
  simp only [← argType_eq_ok_iff [], ← argTypeName?_eq_some_iff, argType]
  cases argTypeName? spec with
  | none => simp
  | some name =>
    simp only [Option.some.injEq, forall_eq', ← ValueType.exists_named?_iff]
    cases ValueType.named? name <;> simp

theorem exists_forall₂_slot_iff {specs : List Json} :
    (∃ slots, List.Forall₂ ArgumentSlot specs slots) ↔
      ∀ spec ∈ specs, ∀ name, NamesType spec name → ValueType.Known name := by
  induction specs with
  | nil => exact iff_of_true ⟨[], .nil⟩ nofun
  | cons spec rest ih =>
    rw [List.forall_mem_cons, ← ih, ← exists_slot_iff]
    constructor
    · rintro ⟨_, hslots⟩
      cases hslots with
      | cons hslot hrest => exact ⟨⟨_, hslot⟩, _, hrest⟩
    · rintro ⟨⟨slot, hslot⟩, slots, hrest⟩
      exact ⟨slot :: slots, .cons hslot hrest⟩

theorem compileType_eq_ok_iff {declared : Option Text} {type : Option ValueType} :
    compileType id declared = .ok type ↔ declared.map ValueType.named? = type.map some := by
  unfold compileType
  cases declared with
  | none => cases type <;> simp
  | some name =>
    dsimp only [Option.map_some]
    cases ValueType.named? name <;> cases type <;> simp

theorem compileOptional_eq_ok_iff {α β : Type} {f : α → Except ConfigError β} {declared : Option α}
    {compiled : Option β} :
    compileOptional f declared = .ok compiled ↔ Option.Rel (fun a b => f a = .ok b) declared compiled := by
  constructor
  · intro h
    unfold compileOptional at h
    split at h
    · cases h
      exact .none
    · split at h
      · next hb =>
        cases h
        exact .some hb
      · cases h
  · intro h
    cases h with
    | none => rfl
    | some hb => rw [compileOptional, hb]

/-! ## Accessors -/

theorem signed_iff (id : Text) {a : AccessorDeclaration} {s : Signature} :
    a.Signed s ↔ (match a.signature with
      | none => pure Signature.empty
      | some raw => Signature.parse id raw) = .ok s := by
  constructor
  · intro h
    cases h with
    | declared h =>
      rw [h]
      exact Signature.parse_toJson id s
    | absent h =>
      rw [h]
      rfl
  · intro h
    split at h
    · next hnone =>
      cases h
      exact .absent hnone
    · next raw hraw =>
      rw [Signature.parse_eq_ok_iff] at h
      exact .declared (h ▸ hraw)

theorem compileGetter_eq_ok_iff {type : Option ValueType} {a : AccessorDeclaration} {steps : List Step} :
    compileGetter id type a = .ok steps ↔
      (∃ s : Signature, a.Signed s ∧ s.arguments = []) ∧
        (a.steps = steps.map Step.declaration ∧ ∀ step ∈ steps, Template.Scans 0 step.template) ∧
        steps.any Step.isQuery = true ∧ type ≠ none := by
  simp only [signed_iff id, ← compileSteps_eq_ok_iff id]
  unfold compileGetter
  cases a.signature with
  | none =>
    simp only [Except.bind_eq_ok_iff, Except.check_eq_ok_iff, Bool.not_eq_true', Bool.not_eq_false,
      Option.isNone_iff_eq_none]
    constructor
    · rintro ⟨_, hsteps, hquery, htype, ⟨⟩⟩
      exact ⟨⟨.empty, rfl, rfl⟩, hsteps, hquery, htype⟩
    · rintro ⟨-, hsteps, hquery, htype⟩
      exact ⟨steps, hsteps, hquery, htype, rfl⟩
  | some raw =>
    simp only [Except.bind_eq_ok_iff, Except.check_eq_ok_iff, Bool.not_eq_true', Bool.not_eq_false,
      Option.isNone_iff_eq_none, Signature.arity, List.length_pos_iff, not_not]
    constructor
    · rintro ⟨s, hs, harguments, _, hsteps, hquery, htype, ⟨⟩⟩
      exact ⟨⟨s, hs, harguments⟩, hsteps, hquery, htype⟩
    · rintro ⟨⟨s, hs, harguments⟩, hsteps, hquery, htype⟩
      exact ⟨s, hs, harguments, steps, hsteps, hquery, htype, rfl⟩

theorem compileSetter_eq_ok_iff {type : Option ValueType} {a : AccessorDeclaration} {w : Setter} :
    compileSetter id type a = .ok w ↔
      a.Signed w.signature ∧ List.Forall₂ ArgumentSlot w.signature.arguments w.argTypes ∧
        (a.steps = w.steps.map Step.declaration ∧
          ∀ step ∈ w.steps, Template.Scans w.signature.arity step.template) ∧
        (w.steps ≠ [] ∨ isLifecycle id = true) ∧ (w.steps.any Step.isQuery = true → type ≠ none) := by
  have hempty : ∀ steps : List Step, ¬(steps.isEmpty && !isLifecycle id) = true ↔
      steps ≠ [] ∨ isLifecycle id = true := by
    intro steps
    simp only [Bool.and_eq_true, List.isEmpty_iff, Bool.not_eq_true', not_and_or, Bool.not_eq_false, ne_eq]
  have hquery : ∀ steps : List Step, ¬(steps.any Step.isQuery && type.isNone) = true ↔
      (steps.any Step.isQuery = true → type ≠ none) := by
    intro steps
    simp only [Bool.and_eq_true, Option.isNone_iff_eq_none, not_and, ne_eq]
  simp only [signed_iff id, ← compileSteps_eq_ok_iff id, ← argTypes_eq_ok_iff id]
  unfold compileSetter
  cases a.signature
  all_goals
    simp only [Except.bind_eq_ok_iff, Except.check_eq_ok_iff, hempty, hquery]
    constructor
    · rintro ⟨s, hs, types, htypes, steps, hsteps, hempty, hquery, ⟨⟩⟩
      exact ⟨hs, htypes, hsteps, hempty, hquery⟩
    · rintro ⟨hs, htypes, hsteps, hempty, hquery⟩
      exact ⟨w.signature, hs, w.argTypes, htypes, w.steps, hsteps, hempty, hquery, rfl⟩

end Parameter

/-! ## Well-formed declarations -/

/-- What reads a parameter of a declared type: without arguments, by steps without placeholders that query. -/
structure AccessorDeclaration.Reads (type : Option Text) (a : AccessorDeclaration) : Prop where
  signature : ∃ s : Signature, a.Signed s ∧ s.arguments = []
  steps : ∀ step ∈ a.steps, step.Sends Template.Plain
  queries : a.Queries
  typed : type ≠ none

/-- What writes a parameter, under a signature: by steps that refer to its arguments.  Only the link may be
opened or closed without steps. -/
structure AccessorDeclaration.Writes (name : Text) (type : Option Text) (s : Signature)
    (a : AccessorDeclaration) : Prop where
  signature : a.Signed s
  known : ∀ spec ∈ s.arguments, ∀ n, NamesType spec n → ValueType.Known n
  steps : ∀ step ∈ a.steps, step.Sends (Template.Scans s.arguments.length)
  nonempty : a.steps ≠ [] ∨ name = connectName ∨ name = disconnectName
  typed : a.Queries → type ≠ none

/-- Nothing is wrong with a declaration of a name. -/
structure ParameterDeclaration.WellFormed (name : Text) (d : ParameterDeclaration) : Prop where
  accessible : d.get ≠ none ∨ d.set ≠ none
  type : ∀ n, d.valueType = some n → ValueType.Known n
  get : ∀ a, d.get = some a → a.Reads d.valueType
  set : ∀ a, d.set = some a → ∃ s, a.Writes name d.valueType s

/-- What a declaration is compiled to: the declared steps in their order, and one slot for each argument. -/
structure ParameterDeclaration.Compiles (name : Text) (d : ParameterDeclaration) (p : Parameter) : Prop where
  name : p.name = name
  type : d.valueType.map ValueType.named? = p.valueType.map some
  get : Option.Rel (fun a steps => a.steps = steps.map Step.declaration) d.get p.getter
  set : Option.Rel (fun a w => a.steps = w.steps.map Step.declaration ∧ a.Signed w.signature ∧
    List.Forall₂ ArgumentSlot w.signature.arguments w.argTypes) d.set p.setter

namespace Parameter

theorem exists_compileType_iff (id : Text) {declared : Option Text} :
    (∃ type, compileType id declared = .ok type) ↔ ∀ n, declared = some n → ValueType.Known n := by
  simp only [compileType_eq_ok_iff, ← ValueType.exists_named?_iff]
  cases declared with
  | none => exact iff_of_true ⟨none, rfl⟩ nofun
  | some n =>
    cases hnamed : ValueType.named? n with
    | none => simp [hnamed]
    | some type =>
      refine iff_of_true ⟨some type, ?_⟩ ?_
      · rw [Option.map_some, hnamed, Option.map_some]
      · rintro _ ⟨⟩
        exact ⟨type, hnamed⟩

theorem ne_none_of_compileType {id : Text} {declared : Option Text} {type : Option ValueType}
    (h : compileType id declared = .ok type) : type ≠ none ↔ declared ≠ none := by
  rw [compileType_eq_ok_iff] at h
  cases declared <;> cases type <;> simp_all

theorem exists_compileGetter_iff {id : Text} {declared : Option Text} {type : Option ValueType}
    (htype : compileType id declared = .ok type) {a : AccessorDeclaration} :
    (∃ steps, compileGetter id type a = .ok steps) ↔ a.Reads declared := by
  have hnone := ne_none_of_compileType htype
  constructor
  · rintro ⟨steps, h⟩
    obtain ⟨hsigned, ⟨hsteps, hscans⟩, hquery, htyped⟩ := (compileGetter_eq_ok_iff _).mp h
    refine ⟨hsigned, forall_sends_iff.mpr ⟨steps, hsteps, ?_⟩, (queries_iff hsteps).mpr hquery,
      hnone.mp htyped⟩
    exact fun step hstep => Template.scans_zero_iff.mp (hscans step hstep)
  · rintro ⟨hsigned, hsends, hqueries, htyped⟩
    obtain ⟨steps, hsteps, hplain⟩ := forall_sends_iff.mp hsends
    refine ⟨steps, (compileGetter_eq_ok_iff _).mpr ⟨hsigned, ⟨hsteps, ?_⟩, (queries_iff hsteps).mp hqueries,
      hnone.mpr htyped⟩⟩
    exact fun step hstep => Template.scans_zero_iff.mpr (hplain step hstep)

theorem exists_compileSetter_iff {id : Text} {declared : Option Text} {type : Option ValueType}
    (htype : compileType id declared = .ok type) {a : AccessorDeclaration} :
    (∃ w, compileSetter id type a = .ok w) ↔ ∃ s, a.Writes id declared s := by
  have hnone := ne_none_of_compileType htype
  have hlifecycle : isLifecycle id = true ↔ id = connectName ∨ id = disconnectName := decide_eq_true_iff
  constructor
  · rintro ⟨w, h⟩
    obtain ⟨hsigned, hslots, ⟨hsteps, hscans⟩, hempty, hquery⟩ := (compileSetter_eq_ok_iff _).mp h
    refine ⟨w.signature, hsigned, exists_forall₂_slot_iff.mp ⟨_, hslots⟩,
      forall_sends_iff.mpr ⟨_, hsteps, hscans⟩, ?_,
      fun hqueries => hnone.mp (hquery ((queries_iff hsteps).mp hqueries))⟩
    rw [hsteps, ← hlifecycle, ne_eq, List.map_eq_nil_iff]
    exact hempty
  · rintro ⟨s, hsigned, hknown, hsends, hempty, htyped⟩
    obtain ⟨slots, hslots⟩ := exists_forall₂_slot_iff.mpr hknown
    obtain ⟨steps, hsteps, hscans⟩ := forall_sends_iff.mp hsends
    refine ⟨⟨s, slots, steps⟩, (compileSetter_eq_ok_iff _).mpr ⟨hsigned, hslots, ⟨hsteps, hscans⟩, ?_,
      fun hquery => hnone.mpr (htyped ((queries_iff hsteps).mpr hquery))⟩⟩
    rw [hsteps, ← hlifecycle, ne_eq, List.map_eq_nil_iff] at hempty
    exact hempty

theorem exists_compileOptional_iff {α β : Type} {f : α → Except ConfigError β} {P : α → Prop}
    (h : ∀ a, (∃ b, f a = .ok b) ↔ P a) {declared : Option α} :
    (∃ compiled, compileOptional f declared = .ok compiled) ↔ ∀ a, declared = some a → P a := by
  simp only [compileOptional_eq_ok_iff]
  cases declared with
  | none => exact iff_of_true ⟨none, .none⟩ nofun
  | some a =>
    constructor
    · rintro ⟨_, hrel⟩ _ ⟨⟩
      cases hrel with
      | some hb => exact (h a).mp ⟨_, hb⟩
    · intro hall
      obtain ⟨b, hb⟩ := (h a).mpr (hall a rfl)
      exact ⟨some b, .some hb⟩

theorem rel_of_compileOptional {α β : Type} {f : α → Except ConfigError β} {R : α → β → Prop}
    (h : ∀ a b, f a = .ok b → R a b) {declared : Option α} {compiled : Option β}
    (hcompiled : compileOptional f declared = .ok compiled) : Option.Rel R declared compiled := by
  cases compileOptional_eq_ok_iff.mp hcompiled with
  | none => exact .none
  | some hb => exact .some (h _ _ hb)

/-- A declaration compiles if and only if it is well-formed, and to a parameter that has its steps and the
slots of its arguments. -/
theorem compile_accepts (name : Text) (d : ParameterDeclaration) :
    ((∃ p, compile name d = .ok p) ↔ d.WellFormed name) ∧ ∀ p, compile name d = .ok p → d.Compiles name p := by
  constructor
  · constructor
    · rintro ⟨p, h⟩
      obtain ⟨haccessible, type, getter, setter, htype, hgetter, hsetter, -⟩ := compile_eq_ok_iff.mp h
      exact ⟨haccessible, (exists_compileType_iff name).mp ⟨_, htype⟩,
        (exists_compileOptional_iff fun _ => exists_compileGetter_iff htype).mp ⟨_, hgetter⟩,
        (exists_compileOptional_iff fun _ => exists_compileSetter_iff htype).mp ⟨_, hsetter⟩⟩
    · rintro ⟨haccessible, hknown, hget, hset⟩
      obtain ⟨type, htype⟩ := (exists_compileType_iff name).mpr hknown
      obtain ⟨getter, hgetter⟩ := (exists_compileOptional_iff fun _ => exists_compileGetter_iff htype).mpr hget
      obtain ⟨setter, hsetter⟩ := (exists_compileOptional_iff fun _ => exists_compileSetter_iff htype).mpr hset
      exact ⟨_, compile_eq_ok_iff.mpr ⟨haccessible, type, getter, setter, htype, hgetter, hsetter, rfl⟩⟩
  · intro p h
    obtain ⟨-, type, getter, setter, htype, hgetter, hsetter, rfl⟩ := compile_eq_ok_iff.mp h
    refine ⟨rfl, (compileType_eq_ok_iff _).mp htype, ?_, ?_⟩
    · exact rel_of_compileOptional (fun a steps h => ((compileGetter_eq_ok_iff _).mp h).2.1.1) hgetter
    · refine rel_of_compileOptional (fun a w h => ?_) hsetter
      obtain ⟨hsigned, hslots, ⟨hsteps, -⟩, -⟩ := (compileSetter_eq_ok_iff _).mp h
      exact ⟨hsteps, hsigned, hslots⟩

/-- A gain that is written to one of several channels, the reply being the gain that the device has set. -/
def gain : ParameterDeclaration where
  description := "gain"
  valueType := some "Double"
  default := none
  memory := none
  get := none
  set := some ⟨some (.arr [.arr [.obj [("type", .str "INTEGER")], .null], .null]),
    [⟨some "CH {0}{{main}}", none⟩, ⟨none, some "G {1:>6};G?"⟩]⟩

/-- It is compiled, so it is well-formed, and the first of its two slots has a type. -/
theorem compile_accepts_gain :
    gain.WellFormed "gain" ∧ ∃ p, compile "gain" gain = .ok p ∧ gain.Compiles "gain" p ∧
      p.setter.map Setter.argTypes = some [some .int, none] ∧
      p.setter.map Setter.steps = some [.write "CH {0}{{main}}", .query "G {1:>6};G?"] := by
  obtain ⟨haccepts, hcompiles⟩ := compile_accepts "gain" gain
  have hcompile : compile "gain" gain = .ok _ := rfl
  exact ⟨haccepts.mp ⟨_, hcompile⟩, _, hcompile, hcompiles _ hcompile, rfl, rfl⟩

end Parameter

end GroundStation
