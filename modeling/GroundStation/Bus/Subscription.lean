/-
# Subscriptions that somebody keeps

A subscription can be asked whether it is active, and can be cancelled, also when its bus is gone.  Then
nobody is called on its behalf any more, and all it knows is whether it has been cancelled.
-/
import GroundStation.Bus.Basic

namespace GroundStation

/-- A subscription, on a bus or left over from one that is gone. -/
inductive Subscription where
  | standing (handle : Handle)
  | orphan (id : Nat) (active : Bool)
  deriving DecidableEq, Repr

namespace Subscription

variable {κ : Type}

/-- The id on the channel. -/
def id : Subscription → Nat
  | standing handle => handle.id
  | orphan id _ => id

/-- Whether a subscription has not been cancelled. -/
def isActive (b : Bus κ) : Subscription → Bool
  | standing handle => b.holds handle
  | orphan _ active => active

/-- Cancels a subscription. -/
def cancel (b : Bus κ) : Subscription → Subscription × Bus κ
  | standing handle => (standing handle, b.cancel handle)
  | orphan id _ => (orphan id false, b)

/-- What is left of a subscription when its bus goes. -/
def outlive (b : Bus κ) (s : Subscription) : Subscription := orphan s.id (s.isActive b)

/-- A subscription in words. -/
def describe (b : Bus κ) (s : Subscription) : Text :=
  "Subscription \x7b id: " ++ Text.ofNat s.id ++ ", active: " ++
    (if s.isActive b then "true" else "false") ++ " \x7d"

/-- A cancelled subscription is not active. -/
theorem isActive_cancel (b : Bus κ) (s : Subscription) :
    (s.cancel b).1.isActive (s.cancel b).2 = false := by
  cases s with
  | standing handle => exact Bus.holds_cancel b handle
  | orphan id active => rfl

end Subscription

end GroundStation
