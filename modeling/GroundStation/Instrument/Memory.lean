/-
# The memory of an instrument

Each instrument remembers the latest value under each memory key.  Two parameters that name the same key
share the value.  The memory starts from the declared defaults, a later default of a key counting.
-/
import GroundStation.Json.Basic

namespace GroundStation

/-- The latest values, by memory key. -/
structure Memory where
  values : Keyed Json
  deriving DecidableEq

namespace Memory

/-- Nothing remembered. -/
def empty : Memory := ⟨[]⟩

/-- The memory that starts from values. -/
def seeded (values : List (Text × Json)) : Memory := ⟨Keyed.ofPairs values⟩

/-- The latest value of a key. -/
def get? (m : Memory) (key : Text) : Option Json := Keyed.get? key m.values

/-- Remembers a value. -/
def store (m : Memory) (key : Text) (value : Json) : Memory := ⟨Keyed.insert key value m.values⟩

/-- The number of keys that have a value. -/
def size (m : Memory) : Nat := m.values.length

/-! ## Small lemmas -/

/-- A stored value is found, and nothing else changes. -/
theorem get?_store (m : Memory) (key other : Text) (value : Json) :
    (m.store key value).get? other = if key = other then some value else m.get? other :=
  Keyed.get?_insert key other value m.values

end Memory

end GroundStation
