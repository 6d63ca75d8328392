/-
# The parameter catalog

The catalog maps a qualified id and an accessor to the entry that describes them.  Entries arrive in
batches, one for each instrument.  A batch is checked as a whole before anything is stored: every
signature must have the right shape and every key must be new, to the catalog and within the batch.  So
a refused batch leaves the catalog as it was, and an entry once stored is never replaced.
-/
import GroundStation.Message

namespace GroundStation

/-- What an entry is found by: the qualified id and the accessor. -/
def CatalogEntry.key (e : CatalogEntry) : Text × Accessor := (e.qualifiedId, e.accessor)

/-- The entries known so far, in the order in which they were stored. -/
structure Catalog where
  entries : List CatalogEntry
  deriving DecidableEq

namespace Catalog

/-- The catalog without entries. -/
def empty : Catalog := ⟨[]⟩

/-- The keys in use. -/
def keys (c : Catalog) : List (Text × Accessor) := c.entries.map CatalogEntry.key

/-- The entry of a qualified id and accessor. -/
def get? (c : Catalog) (id : Text) (accessor : Accessor) : Option CatalogEntry :=
  c.entries.find? fun e => decide (e.key = (id, accessor))

/-- Whether a qualified id is known under either accessor. -/
def containsId (c : Catalog) (id : Text) : Bool :=
  (c.get? id .get).isSome || (c.get? id .set).isSome

/-- The number of entries. -/
def size (c : Catalog) : Nat := c.entries.length

/-- The first thing wrong with a batch where the keys `known` are taken. -/
def fault? (known : List (Text × Accessor)) : List CatalogEntry → Option ConfigError
  | [] => none
  | e :: rest =>
    match Signature.parse e.qualifiedId e.signature with
    | .error error => some error
    | .ok _ =>
      if known.contains e.key then some (.duplicateParameter e.qualifiedId e.accessor)
      else fault? (e.key :: known) rest

/-- Stores a whole batch, or nothing of it. -/
def register (c : Catalog) (batch : List CatalogEntry) : Except ConfigError Catalog :=
  match fault? c.keys batch with
  | some error => .error error
  | none => .ok ⟨c.entries ++ batch⟩

/-! ## Small lemmas -/

@[simp] theorem keys_empty : empty.keys = [] := rfl

/-- An accepted batch is appended as it is. -/
theorem entries_of_register {c c' : Catalog} {batch : List CatalogEntry}
    (h : c.register batch = .ok c') : c'.entries = c.entries ++ batch := by
  unfold register at h
  split at h
  · exact nomatch h
  · cases h; rfl

/-- What is found under a key has that key. -/
theorem key_of_get? {c : Catalog} {id : Text} {accessor : Accessor} {e : CatalogEntry}
    (h : c.get? id accessor = some e) : e.key = (id, accessor) := by
  simpa using List.find?_some h

end Catalog

end GroundStation
