/-
# Callbacks that act on the bus

A subscriber may use the bus while it is being called: subscribe, cancel anybody, publish again.  Here a
callback is a program of such acts, over a state of its own that all callbacks share.  A program is a
tree: where an act has an outcome, it goes on by the outcome.

Publishing runs the programs of the subscribers.  Since they may publish in turn, a bound on the depth is
given; a run that stays within it does not depend on it.
-/
import GroundStation.Bus.Basic

namespace GroundStation

/-- What a callback does.  `σ` is the state that callbacks share, `μ` the type of messages and `ε` the type
of errors. -/
inductive Program (σ μ ε : Type) where
  | done
  | fail (error : ε)
  | read (next : σ → Program σ μ ε)
  | write (change : σ → σ) (next : Program σ μ ε)
  | subscribe (topic : Topic) (callback : μ → Program σ μ ε) (next : Handle → Program σ μ ε)
  | cancel (handle : Handle) (next : Program σ μ ε)
  | publish (topic : Topic) (message : μ) (next : Except ε Nat → Program σ μ ε)

instance {σ μ ε : Type} : Inhabited (Program σ μ ε) := ⟨.done⟩

/-- A bus whose subscribers are programs, and the state that they share. -/
structure Hub (σ μ ε : Type) where
  bus : Bus (μ → Program σ μ ε)
  state : σ

/-- Why a run ends early. -/
inductive Halt (ε : Type) where
  /-- A callback failed. -/
  | failed (error : ε)
  /-- Publishes are nested beyond the bound. -/
  | tooDeep
  deriving DecidableEq

namespace Program

variable {σ μ ε : Type}

/-- Runs a program, given what publishing does. -/
def run (publish : Topic → μ → Hub σ μ ε → Except (Halt ε) Nat × Hub σ μ ε) :
    Program σ μ ε → Hub σ μ ε → Except (Halt ε) Unit × Hub σ μ ε
  | .done, h => (.ok (), h)
  | .fail e, h => (.error (.failed e), h)
  | .read next, h => run publish (next h.state) h
  | .write change next, h => run publish next { h with state := change h.state }
  | .subscribe topic callback next, h =>
    let (handle, bus) := h.bus.subscribe topic callback
    run publish (next handle) { h with bus }
  | .cancel handle next, h => run publish next { h with bus := h.bus.cancel handle }
  | .publish topic message next, h =>
    match publish topic message h with
    | (.error .tooDeep, h) => (.error .tooDeep, h)
    | (.error (.failed e), h) => run publish (next (.error e)) h
    | (.ok n, h) => run publish (next (.ok n)) h

end Program

namespace Hub

variable {σ μ ε : Type}

/-- Publishes a message, callbacks publishing in turn up to a depth. -/
def publish : Nat → Topic → μ → Hub σ μ ε → Except (Halt ε) Nat × Hub σ μ ε
  | 0, _, _, h => (.error .tooDeep, h)
  | depth + 1, topic, message, h =>
    deliver (fun id h => (h.bus.channel topic).holds id)
      (fun callback h => (callback message).run (publish depth) h)
      (h.bus.channel topic).subscribers h

end Hub

end GroundStation
