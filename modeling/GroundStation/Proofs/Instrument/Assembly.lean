/-
# What assembling an instrument yields

An instrument that `assemble` accepts is told here by its parts (`assemble_eq_ok`): the transport that
the registry resolves, the parameters that the declarations compile to, the memory of their defaults, and
a link that is not open.

A compiled parameter stands under the name it was compiled for, and the names that open and close the
link have a setter and no getter.  So whatever the configuration declares, the instrument announces that
its link can be opened, under its provider and as something to be set (`connect_mem_keys`): no two
instruments of one provider fit into one catalog.
-/
import GroundStation.Catalog
import GroundStation.Instrument.Basic
import GroundStation.Link.Bench

namespace GroundStation

/-! ## Checks one after another -/

theorem Except.bind_eq_ok_iff {ε α β : Type} {x : Except ε α} {f : α → Except ε β} {b : β} :
    (x >>= f) = .ok b ↔ ∃ a, x = .ok a ∧ f a = .ok b := by
  cases x <;> simp [bind, Except.bind]

/-- A check in front of the rest. -/
theorem Except.check_eq_ok_iff {ε α : Type} {c : Prop} [Decidable c] {e : ε} {rest : Unit → Except ε α}
    {a : α} : (if c then throw e >>= rest else rest ()) = .ok a ↔ ¬c ∧ rest () = .ok a := by
  by_cases h : c
  · rw [if_pos h]
    exact iff_of_false nofun fun hnot => hnot.1 h
  · rw [if_neg h]
    exact (and_iff_right h).symm

/-! ## Parameters -/

/-- A parameter is compiled where an accessor is declared and the parts of the declaration compile. -/
theorem Parameter.compile_eq_ok_iff {name : Text} {d : ParameterDeclaration} {p : Parameter} :
    compile name d = .ok p ↔ (d.get ≠ none ∨ d.set ≠ none) ∧
      ∃ valueType getter setter,
        compileType name d.valueType = .ok valueType ∧
        compileOptional (compileGetter name valueType) d.get = .ok getter ∧
        compileOptional (compileSetter name valueType) d.set = .ok setter ∧
        p = ⟨name, d.description, valueType, d.memory.getD name, d.default, getter, setter⟩ := by
  have haccessor : ¬(d.get.isNone && d.set.isNone) = true ↔ d.get ≠ none ∨ d.set ≠ none := by
    simp only [Bool.and_eq_true, Option.isNone_iff_eq_none, Decidable.not_and_iff_not_or_not, ne_eq]
  unfold compile
  simp only [Except.bind_eq_ok_iff, Except.check_eq_ok_iff, haccessor]
  constructor
  · rintro ⟨hsome, type, htype, getter, hgetter, setter, hsetter, ⟨⟩⟩
    exact ⟨hsome, type, getter, setter, htype, hgetter, hsetter, rfl⟩
  · rintro ⟨hsome, type, getter, setter, htype, hgetter, hsetter, rfl⟩
    exact ⟨hsome, type, htype, getter, hgetter, setter, hsetter, rfl⟩

/-- The parts of a compiled parameter. -/
theorem Parameter.compile_eq_ok {name : Text} {d : ParameterDeclaration} {p : Parameter}
    (h : compile name d = .ok p) :
    ∃ valueType getter setter,
      compileType name d.valueType = .ok valueType ∧
      compileOptional (compileGetter name valueType) d.get = .ok getter ∧
      compileOptional (compileSetter name valueType) d.set = .ok setter ∧
      p = ⟨name, d.description, valueType, d.memory.getD name, d.default, getter, setter⟩ :=
  (compile_eq_ok_iff.mp h).2

theorem Parameter.name_of_compile {name : Text} {d : ParameterDeclaration} {p : Parameter}
    (h : compile name d = .ok p) : p.name = name := by
  obtain ⟨_, _, _, _, _, _, rfl⟩ := compile_eq_ok h
  rfl

theorem Keyed.mem_of_get? {α : Type} {key : Text} {a : α} :
    ∀ {l : Keyed α}, Keyed.get? key l = some a → (key, a) ∈ l
  | [], h => nomatch h
  | (k, v) :: rest, h => by
      rw [Keyed.get?] at h
      split at h
      · next hk =>
        cases h
        subst hk
        exact List.mem_cons_self
      · exact List.mem_cons_of_mem _ (Keyed.mem_of_get? h)

theorem Keyed.get?_of_mem {α : Type} {key : Text} {a : α} :
    ∀ {l : Keyed α}, (l.map Prod.fst).Nodup → (key, a) ∈ l → Keyed.get? key l = some a
  | (k, v) :: rest, distinct, hmem => by
      rw [List.map_cons, List.nodup_cons] at distinct
      rw [Keyed.get?]
      rcases List.mem_cons.mp hmem with heq | hrest
      · cases heq
        exact if_pos rfl
      · rw [if_neg]
        · exact Keyed.get?_of_mem distinct.2 hrest
        · intro hk
          exact distinct.1 (List.mem_map.mpr ⟨(key, a), hrest, hk.symm⟩)

namespace Instrument

variable {δ : Type}

theorem keys_compileParameters {provider : Text} :
    ∀ {ds : Keyed ParameterDeclaration} {ps : Keyed Parameter},
      compileParameters provider ds = .ok ps → ps.map Prod.fst = ds.map Prod.fst
  | [], ps, h => by
      cases h
      rfl
  | (n, d) :: rest, ps, h => by
      rw [compileParameters] at h
      split at h
      · cases h
      · split at h
        · cases h
        · split at h
          · cases h
          · next hrest =>
            cases h
            exact congrArg (n :: ·) (keys_compileParameters hrest)

/-- Compiled parameters stand under their names and pass the check of the names that open and close the
link. -/
theorem mem_compileParameters {provider name : Text} {p : Parameter} :
    ∀ {ds : Keyed ParameterDeclaration} {ps : Keyed Parameter},
      compileParameters provider ds = .ok ps → (name, p) ∈ ps →
      p.name = name ∧ lifecycleFault? provider p = none
  | [], ps, h, hmem => by
      cases h
      exact absurd hmem List.not_mem_nil
  | (n, d) :: rest, ps, h, hmem => by
      rw [compileParameters] at h
      split at h
      · cases h
      · next q hq =>
        split at h
        · cases h
        · next hfault =>
          split at h
          · cases h
          · next qs hqs =>
            cases h
            rcases List.mem_cons.mp hmem with heq | hrest
            · cases heq
              exact ⟨Parameter.name_of_compile hq, hfault⟩
            · exact mem_compileParameters hqs hrest

/-- The compiled parameters are those that the declarations compile to. -/
theorem mem_compileParameters_iff {provider name : Text} {p : Parameter} :
    ∀ {ds : Keyed ParameterDeclaration} {ps : Keyed Parameter}, compileParameters provider ds = .ok ps →
      ((name, p) ∈ ps ↔ ∃ d, (name, d) ∈ ds ∧ Parameter.compile name d = .ok p)
  | [], ps, h => by
      cases h
      refine iff_of_false List.not_mem_nil ?_
      rintro ⟨d, hd, -⟩
      cases hd
  | (n, declared) :: rest, ps, h => by
      rw [compileParameters] at h
      split at h
      · cases h
      · next q hq =>
        split at h
        · cases h
        · split at h
          · cases h
          · next qs hqs =>
            cases h
            simp only [List.mem_cons, mem_compileParameters_iff hqs, Prod.mk.injEq]
            constructor
            · rintro (⟨rfl, rfl⟩ | ⟨d, hd, hp⟩)
              · exact ⟨declared, .inl ⟨rfl, rfl⟩, hq⟩
              · exact ⟨d, .inr hd, hp⟩
            · rintro ⟨d, ⟨rfl, rfl⟩ | hd, hp⟩
              · rw [hq] at hp
                cases hp
                exact .inl ⟨rfl, rfl⟩
              · exact .inr ⟨d, hd, hp⟩

/-- A parameter that opens or closes the link is for writing only. -/
theorem setter_of_lifecycleFault? {provider : Text} {p : Parameter}
    (h : lifecycleFault? provider p = none) (hp : isLifecycle p.name = true) :
    p.getter = none ∧ ∃ w, p.setter = some w := by
  unfold lifecycleFault? at h
  split at h
  · cases h
  · next hnot =>
    rw [hp, Bool.true_and, Bool.or_eq_true, not_or] at hnot
    obtain ⟨hg, hs⟩ := hnot
    exact ⟨Option.not_isSome_iff_eq_none.mp hg,
      Option.isSome_iff_exists.mp (Option.isSome_iff_ne_none.mpr fun hnone => hs (by rw [hnone]; rfl))⟩

/-! ## The whole instrument -/

/-- The parts of an accepted instrument. -/
theorem assemble_eq_ok {registry : Registry δ} {c : InstrumentConfig} {i : Instrument δ}
    (h : assemble registry c = .ok i) :
    ∃ transport parameters,
      registry.resolve c = .ok transport ∧
      compileParameters c.provider c.parameters = .ok parameters ∧
      cyclicFault? c parameters = none ∧
      i = ⟨c, parameters, transport, .seeded (defaults parameters), .disconnected, false, none⟩ := by
  unfold assemble at h
  simp only [bind, Except.bind] at h
  split at h
  · cases h
  · next transport ht =>
    split at h
    · cases h
    · next parameters hp =>
      split at h
      · cases h
      · next hcyclic =>
        cases h
        exact ⟨transport, parameters, ht, hp, hcyclic, rfl⟩

theorem config_of_assemble {registry : Registry δ} {c : InstrumentConfig} {i : Instrument δ}
    (h : assemble registry c = .ok i) : i.config = c := by
  obtain ⟨_, _, -, -, -, rfl⟩ := assemble_eq_ok h
  rfl

/-- Parameters stand under the names that are declared, in their order. -/
theorem keys_of_assemble {registry : Registry δ} {c : InstrumentConfig} {i : Instrument δ}
    (h : assemble registry c = .ok i) : i.parameters.map Prod.fst = c.parameters.map Prod.fst := by
  obtain ⟨_, _, -, hcompiled, -, rfl⟩ := assemble_eq_ok h
  exact keys_compileParameters hcompiled

/-! ## Entries -/

theorem provider_of_mem_parameterEntries {provider : Text} {p : Parameter} {e : CatalogEntry}
    (h : e ∈ parameterEntries provider p) : e.provider = provider := by
  unfold parameterEntries at h
  rcases List.mem_append.mp h with h | h <;> split at h
  · rw [List.mem_singleton.mp h]
  · exact absurd h List.not_mem_nil
  · rw [List.mem_singleton.mp h]
  · exact absurd h List.not_mem_nil

theorem provider_of_mem_lifecycleEntry {i : Instrument δ} {name description : Text} {e : CatalogEntry}
    (h : e ∈ i.lifecycleEntry name description) : e.provider = i.provider := by
  unfold lifecycleEntry at h
  split at h
  · exact absurd h List.not_mem_nil
  · rw [List.mem_singleton.mp h]

/-- What an instrument announces bears its provider. -/
theorem provider_of_mem_entries {i : Instrument δ} {e : CatalogEntry} (h : e ∈ i.entries) :
    e.provider = i.provider := by
  unfold entries at h
  rcases List.mem_append.mp h with h | h
  · rcases List.mem_append.mp h with h | h
    · obtain ⟨⟨_, p⟩, _, he⟩ := List.mem_flatMap.mp h
      exact provider_of_mem_parameterEntries he
    · exact provider_of_mem_lifecycleEntry h
  · exact provider_of_mem_lifecycleEntry h

/-- Every instrument announces that its link can be opened. -/
theorem connect_mem_keys {registry : Registry δ} {c : InstrumentConfig} {i : Instrument δ}
    (h : assemble registry c = .ok i) :
    (qualify i.provider connectName, Accessor.set) ∈ i.entries.map CatalogEntry.key := by
  obtain ⟨transport, parameters, -, hp, -, rfl⟩ := assemble_eq_ok h
  rw [List.mem_map]
  unfold entries
  cases hc : Keyed.get? connectName parameters with
  | none =>
      refine ⟨⟨c.provider, connectName, .set, Signature.empty.toJson, "Open the instrument link"⟩, ?_, rfl⟩
      refine List.mem_append_left _ (List.mem_append_right _ ?_)
      simp only [lifecycleEntry, parameter?, hc, provider, List.mem_singleton]
  | some p =>
      have hmem := Keyed.mem_of_get? hc
      obtain ⟨hname, hfault⟩ := mem_compileParameters hp hmem
      have hlife : isLifecycle p.name = true := by rw [hname]; rfl
      obtain ⟨-, w, hw⟩ := setter_of_lifecycleFault? hfault hlife
      refine ⟨⟨c.provider, p.name, .set, w.signature.toJson, p.description⟩, ?_, ?_⟩
      · refine List.mem_append_left _ (List.mem_append_left _ (List.mem_flatMap.mpr ⟨_, hmem, ?_⟩))
        refine List.mem_append_right _ ?_
        simp only [hw, provider, List.mem_singleton]
      · simp only [CatalogEntry.key, CatalogEntry.qualifiedId, hname, provider]

end Instrument

/-! ## A specimen

An instrument small enough to be run by hand: a supply whose voltage is read by the query `V?`, behind
the transport to a bench. -/

/-- The configuration of a supply. -/
def InstrumentConfig.supply : InstrumentConfig where
  provider := "psu"
  transport := "fake"
  address := none
  port := none
  encoding := .ascii
  writeTermination := []
  readTermination := []
  timeoutMs := 1000
  simulation := none
  script := none
  rmap := .standard
  cyclic := none
  parameters := [("volt",
    ⟨"voltage", some "float", none, none, some ⟨none, [⟨none, some "V?"⟩]⟩, none⟩)]

/-- The registry that knows the transport to a bench. -/
def Bench.registry : Registry Bench := ⟨[("fake", ⟨[], Bench.transport⟩)]⟩

/-- A bench where the supply cannot be opened at first, and hangs up on the second query. -/
def Bench.supply : Bench :=
  ⟨[("psu", ⟨[.error .timeout], [("V?", [.ok "5", .error .closed])], none, []⟩)]⟩

end GroundStation
