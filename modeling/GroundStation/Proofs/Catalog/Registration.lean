/-
# Batches are registered whole or not at all

A controller offers its catalog one batch after another.  Whatever batches came before, and whichever of
them were refused, the next is stored exactly if it is acceptable, and one that is refused changes nothing
(`registerAll_allOrNothing`).  So the catalog has one entry for each key and keeps every entry for good.
-/
import GroundStation.Proofs.Catalog.Batch
import GroundStation.Station.Publish

namespace GroundStation

namespace Station

variable {δ : Type}

/-- Takes batches one after another, whatever becomes of each. -/
def registerAll : List (List CatalogEntry) → Station δ → Station δ
  | [], s => s
  | batch :: rest, s => registerAll rest (s.register batch).2

variable {s : Station δ} {batch : List CatalogEntry}

/-- The controller takes a batch into its catalog, or does nothing. -/
theorem register_cases (batch : List CatalogEntry) (s : Station δ) :
    (∃ c, s.catalog.register batch = .ok c ∧ s.register batch = (.ok (), s.withCatalog c)) ∨
      ∃ error, s.catalog.register batch = .error error ∧ s.register batch = (.error error, s) := by
  unfold register
  cases h : s.catalog.register batch with
  | ok c => exact .inl ⟨c, rfl, rfl⟩
  | error error => exact .inr ⟨error, rfl, rfl⟩

theorem nodup_keys_register (unique : s.catalog.keys.Nodup) (batch : List CatalogEntry) :
    (s.register batch).2.catalog.keys.Nodup := by
  rcases register_cases batch s with ⟨c, hc, heq⟩ | ⟨error, -, heq⟩
  · rw [heq]
    exact Catalog.nodup_keys_of_register unique hc
  · rw [heq]
    exact unique

theorem nodup_keys_registerAll (history : List (List CatalogEntry)) :
    ∀ {s : Station δ}, s.catalog.keys.Nodup → (registerAll history s).catalog.keys.Nodup := by
  induction history with
  | nil => exact fun unique => unique
  | cons batch rest ih => exact fun unique => ih (nodup_keys_register unique batch)

theorem found_register {id : Text} {accessor : Accessor} {e : CatalogEntry}
    (found : s.catalog.get? id accessor = some e) (unique : s.catalog.keys.Nodup)
    (batch : List CatalogEntry) : (s.register batch).2.catalog.get? id accessor = some e := by
  rcases register_cases batch s with ⟨c, hc, heq⟩ | ⟨error, -, heq⟩
  · rw [heq]
    exact ((Catalog.extends_of_register unique hc).found id accessor e).mpr (.inl found)
  · rw [heq]
    exact found

/-- What is found stays, whatever batches follow. -/
theorem found_registerAll {id : Text} {accessor : Accessor} {e : CatalogEntry}
    (later : List (List CatalogEntry)) :
    ∀ {s : Station δ}, s.catalog.get? id accessor = some e → s.catalog.keys.Nodup →
      (registerAll later s).catalog.get? id accessor = some e := by
  induction later with
  | nil => exact fun found _ => found
  | cons batch rest ih =>
      exact fun found unique => ih (found_register found unique batch) (nodup_keys_register unique batch)

/-- Whatever batches came before, beginning with an empty catalog: a batch is accepted exactly if it is
acceptable, and then it is stored beside what is there; a batch that is refused changes nothing, and the
first entry that spoils it is named.  Each entry is found under its own key, what is found under a key
has that key, and it is found there for good. -/
theorem registerAll_allOrNothing {s₀ : Station δ} {history : List (List CatalogEntry)}
    (empty : s₀.catalog = .empty) (reached : registerAll history s₀ = s) :
    (∀ batch,
      ((s.register batch).1 = .ok () ↔ s.catalog.Acceptable batch) ∧
      ((s.register batch).1 = .ok () →
        ∃ c, (s.register batch).2 = s.withCatalog c ∧ s.catalog.Extends batch c) ∧
      (∀ error, (s.register batch).1 = .error error →
        (s.register batch).2 = s ∧ s.catalog.FirstOffence batch error)) ∧
    (∀ e ∈ s.catalog.entries, s.catalog.get? e.qualifiedId e.accessor = some e) ∧
    (∀ id accessor e, s.catalog.get? id accessor = some e →
      (e.qualifiedId = id ∧ e.accessor = accessor) ∧
      ∀ later, (registerAll later s).catalog.get? id accessor = some e) := by
  have unique : s.catalog.keys.Nodup := by
    rw [← reached]
    refine nodup_keys_registerAll history ?_
    rw [empty]
    exact List.nodup_nil
  refine ⟨fun batch => ?_, fun e he => (Catalog.get?_eq_some_iff unique).mpr ⟨he, rfl⟩, ?_⟩
  · rcases register_cases batch s with ⟨c, hc, heq⟩ | ⟨error, herror, heq⟩
    · rw [heq]
      exact ⟨iff_of_true rfl (Catalog.register_eq_ok_iff.mp hc).1,
        fun _ => ⟨c, rfl, Catalog.extends_of_register unique hc⟩, nofun⟩
    · rw [heq]
      refine ⟨iff_of_false nofun fun hacceptable => ?_, nofun, ?_⟩
      · cases herror.symm.trans (Catalog.register_eq_ok_iff.mpr ⟨hacceptable, rfl⟩)
      · intro error' h
        cases h
        exact ⟨rfl, Catalog.firstOffence_of_register herror⟩
  · intro id accessor e found
    refine ⟨?_, fun later => found_registerAll later found unique⟩
    exact Prod.mk.inj (Catalog.key_of_get? found)

def pumpSwitch : CatalogEntry := ⟨"cooling", "pump_on", .set, Signature.empty.toJson, "pump"⟩

/-- A fan and, under the qualified id of the switch of the pump, another switch. -/
def coolingPump : List CatalogEntry :=
  [⟨"cooling_pump", "fan", .get, Signature.empty.toJson, "fan"⟩,
    ⟨"cooling_pump", "on", .set, Signature.empty.toJson, "other pump"⟩]

/-- The second provider is refused for its second entry, and then no part of its batch is there. -/
theorem registerAll_allOrNothing_coinciding :
    ∃ s₀ s : Station Unit, s₀.catalog = .empty ∧ registerAll [[pumpSwitch]] s₀ = s ∧
      (s.register coolingPump).1 = .error (.duplicateParameter "cooling_pump_on" .set) ∧
      (s.register coolingPump).2 = s ∧
      s.catalog.FirstOffence coolingPump (.duplicateParameter "cooling_pump_on" .set) ∧
      s.catalog.get? "cooling_pump_fan" .get = none ∧
      ∀ later, (registerAll later s).catalog.get? "cooling_pump_on" .set = some pumpSwitch := by
  have empty : (bare .empty () .nan : Station Unit).catalog = .empty := rfl
  refine ⟨_, _, empty, rfl, ?_⟩
  obtain ⟨batches, -, found⟩ := registerAll_allOrNothing empty (Eq.refl (registerAll [[pumpSwitch]] _))
  obtain ⟨-, -, refused⟩ := batches coolingPump
  obtain ⟨same, first⟩ := refused (.duplicateParameter "cooling_pump_on" .set) rfl
  exact ⟨rfl, same, first, rfl, (found _ _ pumpSwitch rfl).2⟩

end Station

end GroundStation
