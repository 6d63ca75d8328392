/-
# Values under texts, in the order of the texts

A keyed list holds each key once and its keys in the order of `Text.before`.  `insert` keeps this: a new
key goes to its place and a known key takes the new value.
-/
import GroundStation.Text.Basic

namespace GroundStation

/-- Values under distinct texts. -/
abbrev Keyed (α : Type) := List (Text × α)

namespace Keyed

variable {α : Type}

/-- The value under a key. -/
def get? (key : Text) : Keyed α → Option α
  | [] => none
  | (k, v) :: rest => if k = key then some v else get? key rest

/-- The list with `value` under `key`. -/
def insert (key : Text) (value : α) : Keyed α → Keyed α
  | [] => [(key, value)]
  | (k, v) :: rest =>
    if k = key then (key, value) :: rest
    else if Text.before key k then (key, value) :: (k, v) :: rest
    else (k, v) :: insert key value rest

/-- The list of a sequence of pairs, the last value under a repeated key counting. -/
def ofPairs (pairs : List (Text × α)) : Keyed α :=
  pairs.foldl (fun acc (k, v) => insert k v acc) []

/-! ## Small lemmas -/

@[simp] theorem get?_nil (key : Text) : get? key ([] : Keyed α) = none := rfl

/-- What was inserted is found, and nothing else changes. -/
theorem get?_insert (key other : Text) (value : α) (l : Keyed α) :
    get? other (insert key value l) = if key = other then some value else get? other l := by
  induction l with
  | nil => simp [insert, get?]
  | cons m rest ih =>
    obtain ⟨k, v⟩ := m
    rw [insert]
    split
    · next h =>
      subst h
      by_cases ho : k = other <;> simp [get?, ho]
    · split
      · simp [get?]
      · next h _ =>
        by_cases ho : k = other
        · subst ho
          simp [get?, Ne.symm h]
        · simp [get?, ho, ih]

@[simp] theorem get?_insert_self (key : Text) (value : α) (l : Keyed α) :
    get? key (insert key value l) = some value := by
  simp [get?_insert]

end Keyed

end GroundStation
