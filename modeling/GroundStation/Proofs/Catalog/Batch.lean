/-
# What makes a batch of entries acceptable

A batch of entries is checked entry by entry before anything is stored.  An entry can be refused for two
reasons, its signature or its key, and a key can be taken in two places, in the catalog and further up in
the batch; that two providers differ does not help, since their parameters may have one qualified id.

The check is told here without its order: it finds nothing wrong with a batch exactly if the batch is
`Acceptable`, and what it finds otherwise is about the first entry that spoils the batch
(`FirstOffence`).
-/
import GroundStation.Catalog
import Mathlib.Data.List.Nodup

namespace GroundStation

/-! ## Signatures -/

namespace Signature

/-- A value of the form `[[argument, …], name]` or `[[argument, …], null]`. -/
def Shaped (raw : Json) : Prop :=
  ∃ arguments returns, raw = .arr [.arr arguments, returns] ∧
    (returns = .null ∨ ∃ name, returns = .str name)

/-- The values of this form are those that a signature is read from. -/
theorem exists_read_iff {raw : Json} : (∃ signature, read raw = .ok signature) ↔ Shaped raw := by
  constructor
  · rintro ⟨signature, h⟩
    unfold read at h
    split at h
    · split at h
      · next arguments =>
        split at h
        · exact ⟨arguments, .null, rfl, .inl rfl⟩
        · next name => exact ⟨arguments, .str name, rfl, .inr ⟨name, rfl⟩⟩
        · cases h
      · cases h
    · cases h
    · cases h
  · rintro ⟨arguments, returns, rfl, rfl | ⟨name, rfl⟩⟩
    · exact ⟨⟨arguments, none⟩, rfl⟩
    · exact ⟨⟨arguments, some name⟩, rfl⟩

theorem parse_of_read {id : Text} {raw : Json} {signature : Signature} (h : read raw = .ok signature) :
    parse id raw = .ok signature := by
  rw [parse, h]

theorem parse_of_read_error {id : Text} {raw : Json} {fault : SignatureFault}
    (h : read raw = .error fault) : parse id raw = .error (.malformedSignature id fault) := by
  rw [parse, h]

end Signature

namespace Catalog

/-! ## The check of a batch -/

/-- An entry that cannot be stored where the keys `taken` are in use, and what is said of it. -/
inductive Offence (taken : List (Text × Accessor)) (e : CatalogEntry) : ConfigError → Prop
  | malformed {fault : SignatureFault} : Signature.read e.signature = .error fault →
      Offence taken e (.malformedSignature e.qualifiedId fault)
  | duplicate : Signature.Shaped e.signature → e.key ∈ taken →
      Offence taken e (.duplicateParameter e.qualifiedId e.accessor)

/-- One step of the check: the first entry is an offence, or the rest is checked with its key taken. -/
theorem fault?_cons (known : List (Text × Accessor)) (e : CatalogEntry) (rest : List CatalogEntry) :
    (∃ error, Offence known e error ∧ fault? known (e :: rest) = some error) ∨
      (Signature.Shaped e.signature ∧ e.key ∉ known ∧
        fault? known (e :: rest) = fault? (e.key :: known) rest) := by
  cases hread : Signature.read e.signature with
  | error fault =>
      refine .inl ⟨_, .malformed hread, ?_⟩
      rw [fault?, Signature.parse_of_read_error hread]
  | ok signature =>
      have hshaped := Signature.exists_read_iff.mp ⟨signature, hread⟩
      by_cases hkey : e.key ∈ known
      · refine .inl ⟨_, .duplicate hshaped hkey, ?_⟩
        rw [fault?, Signature.parse_of_read hread]
        exact if_pos (List.contains_iff_mem.mpr hkey)
      · refine .inr ⟨hshaped, hkey, ?_⟩
        rw [fault?, Signature.parse_of_read hread]
        exact if_neg fun h => hkey (List.contains_iff_mem.mp h)

theorem not_offence {known : List (Text × Accessor)} {e : CatalogEntry} {error : ConfigError}
    (shaped : Signature.Shaped e.signature) (fresh : e.key ∉ known) : ¬Offence known e error := by
  intro h
  cases h with
  | malformed hread =>
      obtain ⟨signature, hok⟩ := Signature.exists_read_iff.mpr shaped
      cases hread.symm.trans hok
  | duplicate _ hmem => exact fresh hmem

/-- Nothing is wrong with a batch of new and distinct keys and of well shaped signatures, and with no
other. -/
theorem fault?_eq_none_iff {batch : List CatalogEntry} :
    ∀ {known : List (Text × Accessor)},
      fault? known batch = none ↔
        (∀ e ∈ batch, Signature.Shaped e.signature) ∧ (batch.map CatalogEntry.key).Nodup ∧
          ∀ e ∈ batch, e.key ∉ known := by
  induction batch with
  | nil =>
      intro known
      exact iff_of_true rfl ⟨nofun, List.nodup_nil, nofun⟩
  | cons e rest ih =>
      intro known
      rw [List.map_cons, List.nodup_cons, List.forall_mem_cons, List.forall_mem_cons]
      rcases fault?_cons known e rest with ⟨error, hoffence, hfault⟩ | ⟨hshaped, hkey, hfault⟩
      · rw [hfault]
        refine iff_of_false nofun ?_
        rintro ⟨⟨hshaped, -⟩, -, hkey, -⟩
        exact not_offence hshaped hkey hoffence
      · rw [hfault, ih]
        constructor
        · rintro ⟨hshapes, hnodup, hfresh⟩
          refine ⟨⟨hshaped, hshapes⟩, ⟨?_, hnodup⟩, hkey, ?_⟩
          · -- the key of `e` counts as known for the rest, so no later entry has it
            intro hmem
            obtain ⟨f, hf, heq⟩ := List.mem_map.mp hmem
            exact hfresh f hf (heq ▸ List.mem_cons_self)
          · exact fun f hf hknown => hfresh f hf (List.mem_cons_of_mem _ hknown)
        · rintro ⟨⟨-, hshapes⟩, ⟨hnew, hnodup⟩, -, hfresh⟩
          refine ⟨hshapes, hnodup, fun f hf hknown => ?_⟩
          rcases List.mem_cons.mp hknown with heq | hknown
          · exact hnew (heq ▸ List.mem_map_of_mem hf)
          · exact hfresh f hf hknown

/-- What is wrong with a batch is wrong with the first entry that does not go with those before it. -/
theorem fault?_eq_some {error : ConfigError} {batch : List CatalogEntry} :
    ∀ {known : List (Text × Accessor)}, fault? known batch = some error →
      ∃ before e after, batch = before ++ e :: after ∧ fault? known before = none ∧
        Offence (before.map CatalogEntry.key ++ known) e error := by
  induction batch with
  | nil =>
      intro known h
      cases h
  | cons e rest ih =>
      intro known h
      rcases fault?_cons known e rest with ⟨error', hoffence, hfault⟩ | ⟨hshaped, hkey, hfault⟩
      · rw [hfault] at h
        cases h
        exact ⟨[], e, rest, rfl, rfl, hoffence⟩
      · rw [hfault] at h
        obtain ⟨before, f, after, rfl, hbefore, hoffence⟩ := ih h
        refine ⟨e :: before, f, after, rfl, ?_, ?_⟩
        · rcases fault?_cons known e before with ⟨error', hoffence', -⟩ | ⟨-, -, hrest⟩
          · exact absurd hoffence' (not_offence hshaped hkey)
          · exact hrest.trans hbefore
        · -- the keys in use are the same, in another order
          have hmem : ∀ key, key ∈ before.map CatalogEntry.key ++ e.key :: known →
              key ∈ (e :: before).map CatalogEntry.key ++ known := by
            intro key h
            simp only [List.mem_append, List.mem_cons, List.map_cons] at h ⊢
            rcases h with h | h | h
            · exact .inl (.inr h)
            · exact .inl (.inl h)
            · exact .inr h
          cases hoffence with
          | malformed hread => exact .malformed hread
          | duplicate hshaped htaken => exact .duplicate hshaped (hmem _ htaken)

/-! ## What is found -/

variable {c c' : Catalog} {id : Text} {accessor : Accessor} {e : CatalogEntry}
  {batch : List CatalogEntry}

theorem get?_eq_none_iff : c.get? id accessor = none ↔ (id, accessor) ∉ c.keys := by
  unfold get? keys
  rw [List.find?_eq_none, List.mem_map]
  constructor
  · rintro h ⟨e, he, hkey⟩
    exact h e he (decide_eq_true hkey)
  · intro h e he hkey
    exact h ⟨e, he, of_decide_eq_true hkey⟩

theorem mem_of_get? (h : c.get? id accessor = some e) : e ∈ c.entries := List.mem_of_find?_eq_some h

/-- Where no key repeats, every entry is found. -/
theorem get?_eq_some_iff (unique : c.keys.Nodup) :
    c.get? id accessor = some e ↔ e ∈ c.entries ∧ e.key = (id, accessor) := by
  constructor
  · exact fun h => ⟨mem_of_get? h, key_of_get? h⟩
  · rintro ⟨hmem, hkey⟩
    cases hfound : c.get? id accessor with
    | none =>
        refine absurd ?_ (get?_eq_none_iff.mp hfound)
        exact hkey ▸ List.mem_map_of_mem hmem
    | some f =>
        have heq : f.key = e.key := (key_of_get? hfound).trans hkey.symm
        rw [List.inj_on_of_nodup_map unique (mem_of_get? hfound) hmem heq]

/-! ## Registration -/

/-- A batch that can be stored: its signatures are well shaped, and its keys distinct and new. -/
structure Acceptable (c : Catalog) (batch : List CatalogEntry) : Prop where
  shaped : ∀ e ∈ batch, Signature.Shaped e.signature
  distinct : (batch.map CatalogEntry.key).Nodup
  fresh : ∀ e ∈ batch, c.get? e.qualifiedId e.accessor = none

/-- The catalog `c` with a batch stored: what was found is found, and the entries of the batch besides. -/
structure Extends (c : Catalog) (batch : List CatalogEntry) (c' : Catalog) : Prop where
  found : ∀ id accessor e, c'.get? id accessor = some e ↔
    c.get? id accessor = some e ∨ e ∈ batch ∧ e.qualifiedId = id ∧ e.accessor = accessor
  size : c'.size = c.size + batch.length

/-- The first entry of a batch that cannot be stored after those before it, and what is said of it. -/
def FirstOffence (c : Catalog) (batch : List CatalogEntry) (error : ConfigError) : Prop :=
  ∃ before e after, batch = before ++ e :: after ∧ c.Acceptable before ∧
    Offence (before.map CatalogEntry.key ++ c.keys) e error

theorem fault?_keys_eq_none_iff : fault? c.keys batch = none ↔ c.Acceptable batch := by
  rw [fault?_eq_none_iff]
  constructor
  · rintro ⟨hshaped, hdistinct, hfresh⟩
    exact ⟨hshaped, hdistinct, fun e he => get?_eq_none_iff.mpr (hfresh e he)⟩
  · rintro ⟨hshaped, hdistinct, hfresh⟩
    exact ⟨hshaped, hdistinct, fun e he => get?_eq_none_iff.mp (hfresh e he)⟩

/-- Acceptable batches are stored behind what is there, and no others. -/
theorem register_eq_ok_iff :
    c.register batch = .ok c' ↔ c.Acceptable batch ∧ c' = ⟨c.entries ++ batch⟩ := by
  constructor
  · intro h
    unfold register at h
    split at h
    · cases h
    · next hfault =>
      cases h
      exact ⟨fault?_keys_eq_none_iff.mp hfault, rfl⟩
  · rintro ⟨hacceptable, rfl⟩
    rw [register, fault?_keys_eq_none_iff.mpr hacceptable]

/-- A batch that is refused is refused for the first entry that spoils it. -/
theorem firstOffence_of_register {error : ConfigError} (h : c.register batch = .error error) :
    c.FirstOffence batch error := by
  unfold register at h
  split at h
  · next hfault =>
    cases h
    obtain ⟨before, e, after, rfl, hbefore, hoffence⟩ := fault?_eq_some hfault
    exact ⟨before, e, after, rfl, fault?_keys_eq_none_iff.mp hbefore, hoffence⟩
  · cases h

/-- A stored batch leaves no key twice. -/
theorem nodup_keys_of_register (unique : c.keys.Nodup) (h : c.register batch = .ok c') :
    c'.keys.Nodup := by
  obtain ⟨⟨-, hdistinct, hfresh⟩, rfl⟩ := register_eq_ok_iff.mp h
  rw [keys, List.map_append]
  refine List.nodup_append'.mpr ⟨unique, hdistinct, ?_⟩
  rintro key hkey hbatch
  obtain ⟨e, he, rfl⟩ := List.mem_map.mp hbatch
  exact get?_eq_none_iff.mp (hfresh e he) hkey

theorem extends_of_register (unique : c.keys.Nodup) (h : c.register batch = .ok c') :
    c.Extends batch c' where
  found := fun id accessor e => by
    rw [get?_eq_some_iff (nodup_keys_of_register unique h), get?_eq_some_iff unique,
      entries_of_register h, List.mem_append, CatalogEntry.key, Prod.mk.injEq]
    exact or_and_right
  size := by
    rw [size, size, entries_of_register h, List.length_append]

end Catalog

end GroundStation
