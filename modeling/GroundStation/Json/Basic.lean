/-
# JSON values

Parameter values, signatures, defaults and advertised descriptions are JSON values.  Integers and
binary floating point are told apart, so `5` and `5.0` differ.  The members of an object are kept in
the order of their keys, each key once.
-/
import GroundStation.Number.Decimal
import GroundStation.Text.Keyed

namespace GroundStation

/-- A JSON value. -/
inductive Json where
  | null
  | bool (b : Bool)
  | int (n : Int)
  | float (x : Finite64)
  | str (t : Text)
  | arr (items : List Json)
  | obj (members : List (Text × Json))
  deriving Inhabited, Repr

namespace Json

mutual

/-- Whether two values are the same. -/
def same : Json → Json → Bool
  | null, null => true
  | bool a, bool b => a == b
  | int a, int b => a == b
  | float a, float b => decide (a = b)
  | str a, str b => decide (a = b)
  | arr a, arr b => sameItems a b
  | obj a, obj b => sameMembers a b
  | _, _ => false

/-- Whether two lists of values are the same. -/
def sameItems : List Json → List Json → Bool
  | [], [] => true
  | a :: as, b :: bs => same a b && sameItems as bs
  | _, _ => false

/-- Whether two lists of members are the same. -/
def sameMembers : List (Text × Json) → List (Text × Json) → Bool
  | [], [] => true
  | (k, a) :: as, (l, b) :: bs => decide (k = l) && same a b && sameMembers as bs
  | _, _ => false

end

mutual

theorem same_iff : ∀ {a b : Json}, same a b = true ↔ a = b
  | null, b => by cases b <;> simp [same]
  | bool x, b => by cases b <;> simp [same]
  | int x, b => by cases b <;> simp [same]
  | float x, b => by cases b <;> simp [same]
  | str x, b => by cases b <;> simp [same]
  | arr x, b => by cases b <;> simp [same, sameItems_iff]
  | obj x, b => by cases b <;> simp [same, sameMembers_iff]

theorem sameItems_iff : ∀ {as bs : List Json}, sameItems as bs = true ↔ as = bs
  | [], bs => by cases bs <;> simp [sameItems]
  | a :: as, bs => by cases bs <;> simp [sameItems, same_iff, sameItems_iff]

theorem sameMembers_iff : ∀ {as bs : List (Text × Json)}, sameMembers as bs = true ↔ as = bs
  | [], bs => by cases bs <;> simp [sameMembers]
  | (k, a) :: as, bs => by
    cases bs with
    | nil => simp [sameMembers]
    | cons m bs =>
      obtain ⟨l, b⟩ := m
      simp [sameMembers, same_iff, sameMembers_iff, and_assoc]

end

instance : DecidableEq Json := fun _ _ => decidable_of_iff _ same_iff

/-- The object of a list of members, the last value of a repeated key counting. -/
def ofMembers (members : List (Text × Json)) : Json :=
  obj (Keyed.ofPairs members)

/-- The member of an object under `key`. -/
def field? (key : Text) : Json → Option Json
  | obj members => Keyed.get? key members
  | _ => none

/-- The item of an array at `index`. -/
def item? (index : Nat) : Json → Option Json
  | arr items => items[index]?
  | _ => none

/-- The text of a string. -/
def text? : Json → Option Text
  | str t => some t
  | _ => none

/-- The items of an array. -/
def items? : Json → Option (List Json)
  | arr items => some items
  | _ => none

/-- The value is given unless it is missing or `null`. -/
def given : Option Json → Option Json
  | none => none
  | some null => none
  | some v => some v

end Json

end GroundStation
