/-
# Channels

A channel has subscribers, in the order in which they came.  Each has an id that the channel never gives
again, so a cancelled subscription stays cancelled and a handle of it does no harm.  Ids are natural
numbers here where the program counts in 64 bits, so what is said of them holds for fewer than 2^64
subscriptions to one topic.

Beside the list every subscription has a flag, which is up until it is cancelled.  The list says who is
there when a publish begins.  It is the flag that is tested before a call, since the publish goes through
a copy of the list and no longer sees who leaves it.  To cancel is to put the flag down and to leave the
list; whoever does only one of the two breaks the agreement of flags and list (`Agree`).

`deliver` is one publish: it goes through the subscribers that were there when the publish began, skips
those that have been cancelled before their turn, and stops at the first that fails.  What the subscribers
do meanwhile, to the channel too, is up to the state they act on.
-/
import GroundStation.Bus.Topic

namespace GroundStation

/-- One subscription. -/
structure Subscriber (κ : Type) where
  id : Nat
  listener : κ

/-- The subscribers of a topic. -/
structure Channel (κ : Type) where
  /-- The id of the next subscription. -/
  nextId : Nat
  subscribers : List (Subscriber κ)
  /-- The ids of the subscriptions whose flag is up. -/
  active : List Nat

namespace Channel

variable {κ : Type}

/-- A channel without subscribers. -/
def empty : Channel κ := ⟨1, [], []⟩

/-- The channel with one more subscriber, who gets the id `nextId` and a flag that is up. -/
def subscribe (c : Channel κ) (listener : κ) : Channel κ :=
  ⟨c.nextId + 1, c.subscribers ++ [⟨c.nextId, listener⟩], c.active ++ [c.nextId]⟩

/-- Whether the subscription of an id stands: its flag is up. -/
def holds (c : Channel κ) (id : Nat) : Bool := decide (id ∈ c.active)

/-- The channel with the flag of an id put down. -/
def lower (c : Channel κ) (id : Nat) : Channel κ := { c with active := c.active.filter (· != id) }

/-- The channel whose list lacks the subscriber of an id. -/
def unlist (c : Channel κ) (id : Nat) : Channel κ :=
  { c with subscribers := c.subscribers.filter fun s => s.id != id }

/-- The channel with the subscription of an id cancelled.  Where the flag is down already, the list is not
looked at. -/
def cancel (c : Channel κ) (id : Nat) : Channel κ := if c.holds id then (c.lower id).unlist id else c

/-- The number of subscribers. -/
def size (c : Channel κ) : Nat := c.subscribers.length

/-- The flags that are up are those of the subscribers on the list. -/
def Agree (c : Channel κ) : Prop := c.active = c.subscribers.map Subscriber.id

end Channel

/-- Calls the subscribers of a list in order, as far as they still stand.  The outcome is the number of
calls, or the first failure. -/
def deliver {κ σ ε : Type} (stands : Nat → σ → Bool) (call : κ → σ → Except ε Unit × σ) :
    List (Subscriber κ) → σ → Except ε Nat × σ
  | [], s => (.ok 0, s)
  | sub :: rest, s =>
    if stands sub.id s then
      match call sub.listener s with
      | (.error e, s) => (.error e, s)
      | (.ok (), s) =>
        match deliver stands call rest s with
        | (.error e, s) => (.error e, s)
        | (.ok n, s) => (.ok (n + 1), s)
    else deliver stands call rest s

/-! ## Small lemmas -/

namespace Channel

variable {κ : Type}

theorem holds_eq_true_iff {c : Channel κ} {id : Nat} : c.holds id = true ↔ id ∈ c.active :=
  decide_eq_true_iff

/-- To cancel what does not stand is to do nothing. -/
theorem cancel_of_not_holds {c : Channel κ} {id : Nat} (h : c.holds id = false) : c.cancel id = c := by
  rw [cancel, h, if_neg Bool.false_ne_true]

/-- A subscription stands behind a cancellation if it stood and is another one. -/
theorem holds_cancel_iff {c : Channel κ} {id other : Nat} :
    (c.cancel other).holds id = true ↔ c.holds id = true ∧ id ≠ other := by
  by_cases h : c.holds other = true
  · rw [cancel, if_pos h, holds_eq_true_iff, holds_eq_true_iff]
    simp [lower, unlist]
  · rw [cancel, if_neg h]
    exact ⟨fun stands => ⟨stands, fun same => h (same ▸ stands)⟩, And.left⟩

/-- A cancelled subscription does not stand. -/
theorem holds_cancel (c : Channel κ) (id : Nat) : (c.cancel id).holds id = false :=
  Bool.eq_false_iff.mpr fun stands => (holds_cancel_iff.mp stands).2 rfl

/-- Cancelling twice is cancelling once. -/
theorem cancel_cancel (c : Channel κ) (id : Nat) : (c.cancel id).cancel id = c.cancel id :=
  cancel_of_not_holds (c.holds_cancel id)

@[simp] theorem nextId_cancel (c : Channel κ) (id : Nat) : (c.cancel id).nextId = c.nextId := by
  rw [cancel]
  split <;> rfl

/-! ## Flags and list -/

namespace Agree

variable {c : Channel κ} {id : Nat}

theorem empty : (empty : Channel κ).Agree := rfl

theorem subscribe (agree : c.Agree) (l : κ) : (c.subscribe l).Agree := by
  rw [Agree, Channel.subscribe, List.map_append, ← agree]
  rfl

/-- Flags and list lose the same subscription. -/
theorem cancel (agree : c.Agree) (id : Nat) : (c.cancel id).Agree := by
  rw [Channel.cancel]
  split
  · show c.active.filter (· != id) = (c.subscribers.filter fun s => s.id != id).map Subscriber.id
    rw [agree, List.filter_map]
    rfl
  · exact agree

/-- A flag is up exactly if its subscriber is on the list. -/
theorem holds_iff (agree : c.Agree) : c.holds id = true ↔ ∃ s ∈ c.subscribers, s.id = id := by
  rw [holds_eq_true_iff, agree, List.mem_map]

/-- Who does not stand is not on the list. -/
theorem unlist_of_not_holds (agree : c.Agree) (down : c.holds id = false) : c.unlist id = c := by
  have hkept : c.subscribers.filter (fun s => s.id != id) = c.subscribers := by
    refine List.filter_eq_self.mpr fun s hs => bne_iff_ne.mpr fun same => ?_
    exact Bool.eq_false_iff.mp down (agree.holds_iff.mpr ⟨s, hs, same⟩)
  rw [unlist, hkept]

/-- Cancelling leaves the others on the list, in their order. -/
theorem subscribers_cancel (agree : c.Agree) (id : Nat) :
    (c.cancel id).subscribers = c.subscribers.filter fun s => s.id != id := by
  rw [Channel.cancel]
  split
  · rfl
  · next down =>
    exact (congrArg Channel.subscribers (agree.unlist_of_not_holds (Bool.eq_false_iff.mpr down))).symm

/-- To put the flag down and stay on the list breaks the agreement, if the subscription stood. -/
theorem lower_iff (agree : c.Agree) : (c.lower id).Agree ↔ c.holds id = false := by
  constructor
  · intro kept
    refine Bool.eq_false_iff.mpr fun up => ?_
    have still : (c.lower id).holds id = true := kept.holds_iff.mpr (agree.holds_iff.mp up)
    rw [holds_eq_true_iff, lower, List.mem_filter] at still
    exact bne_iff_ne.mp still.2 rfl
  · intro down
    have hkept : c.active.filter (· != id) = c.active := by
      refine List.filter_eq_self.mpr fun other up => bne_iff_ne.mpr fun same => ?_
      exact Bool.eq_false_iff.mp down (holds_eq_true_iff.mpr (same ▸ up))
    rw [lower, hkept]
    exact agree

/-- To leave the list with the flag up breaks it as well. -/
theorem unlist_iff (agree : c.Agree) : (c.unlist id).Agree ↔ c.holds id = false := by
  constructor
  · intro kept
    refine Bool.eq_false_iff.mpr fun up => ?_
    obtain ⟨s, hs, same⟩ := kept.holds_iff.mp (show (c.unlist id).holds id = true from up)
    exact bne_iff_ne.mp (List.mem_filter.mp hs).2 same
  · intro down
    rw [agree.unlist_of_not_holds down]
    exact agree

end Agree

end Channel

end GroundStation
