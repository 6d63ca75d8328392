/-
# One publish, visit by visit

A callback may subscribe, cancel and publish, so what a publish has to do is not settled when it begins.
It visits subscribers one after another, and whether it calls one depends on what the others have done.

Here a publish is described by its visits (`Delivery`).  They lead from moment to moment, and a `Moment` is
a hub together with the history of its bus: at each of them every channel holds exactly the subscriptions
made and not cancelled, in the order in which they were made.  Who is visited, and who is called, is said by
the history alone, as it was when the publish began and as it is at the visit; the bus itself looks at its
lists at that time, and that this is the same is `Moment.holds_iff`.
-/
import GroundStation.Bus.Callback
import GroundStation.Proofs.Bus.History

namespace GroundStation

/-! ## Moments -/

/-- A hub and the history of its bus. -/
structure Moment (σ μ ε : Type) where
  past : List (Bus.Change (μ → Program σ μ ε))
  hub : Hub σ μ ε
  /-- The channels hold the subscriptions made and not cancelled. -/
  recorded : Bus.Recorded past hub.bus

namespace Moment

variable {σ μ ε : Type}

/-- A bus that nobody has used. -/
def start (state : σ) : Moment σ μ ε := ⟨[], ⟨.empty, state⟩, .empty⟩

/-- The moment after a change of what callbacks share. -/
def write (m : Moment σ μ ε) (change : σ → σ) : Moment σ μ ε :=
  ⟨m.past, { m.hub with state := change m.hub.state }, m.recorded⟩

/-- The moment after a subscription. -/
def subscribe (m : Moment σ μ ε) (topic : Topic) (callback : μ → Program σ μ ε) : Moment σ μ ε where
  past := m.past ++ [.subscribed (m.hub.bus.subscribe topic callback).1 callback]
  hub := { m.hub with bus := (m.hub.bus.subscribe topic callback).2 }
  recorded := m.recorded.subscribe topic callback

/-- The moment after a cancellation. -/
def cancel (m : Moment σ μ ε) (handle : Handle) : Moment σ μ ε where
  past := m.past ++ [.cancelled handle]
  hub := { m.hub with bus := m.hub.bus.cancel handle }
  recorded := m.recorded.cancel handle

/-- The subscriptions of a topic that have been made and not cancelled, in the order of subscription. -/
def present (m : Moment σ μ ε) (topic : Topic) : List (Subscriber (μ → Program σ μ ε)) :=
  Bus.standing topic m.past

/-- A subscription has been made between a moment and a later one. -/
def MadeSince (start now : Moment σ μ ε) (handle : Handle) : Prop :=
  ∃ changes, now.past = start.past ++ changes ∧ handle ∈ Bus.made changes

/-- A subscription has been cancelled between a moment and a later one. -/
def CancelledSince (start now : Moment σ μ ε) (handle : Handle) : Prop :=
  ∃ changes, now.past = start.past ++ changes ∧ .cancelled handle ∈ changes

/-- A subscriber that was present is still held exactly if it has not been cancelled since. -/
theorem holds_iff {start now : Moment σ μ ε} (later : start.past <+: now.past) {topic : Topic}
    {sub : Subscriber (μ → Program σ μ ε)} (present : sub ∈ start.present topic) :
    now.hub.bus.holds ⟨topic, sub.id⟩ = true ↔ ¬start.CancelledSince now ⟨topic, sub.id⟩ := by
  obtain ⟨changes, hpast⟩ := later
  have recorded : Bus.Recorded (start.past ++ changes) now.hub.bus := hpast ▸ now.recorded
  rw [recorded.holds_iff present]
  constructor
  · rintro hstill ⟨changes', hpast', hcancelled⟩
    rw [← hpast] at hpast'
    rw [← List.append_cancel_left hpast'] at hcancelled
    exact hstill hcancelled
  · exact fun hstill hcancelled => hstill ⟨changes, hpast.symm, hcancelled⟩

/-- A subscription made since is not one of those that were present. -/
theorem ne_of_madeSince {start now : Moment σ μ ε} {handle : Handle} (made : start.MadeSince now handle)
    {topic : Topic} {sub : Subscriber (μ → Program σ μ ε)} (present : sub ∈ start.present topic) :
    handle ≠ ⟨topic, sub.id⟩ := by
  rintro rfl
  obtain ⟨changes, hpast, hmade⟩ := made
  have hdistinct := now.recorded.distinct
  rw [hpast, Bus.made_append] at hdistinct
  exact (List.nodup_append.mp hdistinct).2.2 _ (Bus.mem_made_of_mem_standing present) _ hmade rfl

end Moment

/-! ## One publish -/

/-- The visit of a subscriber in a publish. -/
inductive Visit (σ μ ε : Type) where
  /-- It is passed over. -/
  | skipped (sub : Subscriber (μ → Program σ μ ε)) (moment : Moment σ μ ε)
  /-- It is called. -/
  | called (sub : Subscriber (μ → Program σ μ ε)) (before : Moment σ μ ε)
      (result : Except (Halt ε) Unit) (after : Moment σ μ ε)

namespace Visit

variable {σ μ ε : Type}

/-- The subscriber that is visited. -/
def sub : Visit σ μ ε → Subscriber (μ → Program σ μ ε)
  | skipped sub _ => sub
  | called sub _ _ _ => sub

/-- When the visit comes. -/
def before : Visit σ μ ε → Moment σ μ ε
  | skipped _ moment => moment
  | called _ before _ _ => before

/-- When the visit is over. -/
def after : Visit σ μ ε → Moment σ μ ε
  | skipped _ moment => moment
  | called _ _ _ after => after

/-- Whether the subscriber is called. -/
def isCall : Visit σ μ ε → Bool
  | skipped _ _ => false
  | called _ _ _ _ => true

/-- How the call fails, where there is one and it does. -/
def failure? : Visit σ μ ε → Option (Halt ε)
  | called _ _ (.error halt) _ => some halt
  | _ => none

/-- Visits that follow on each other, from a moment to a moment. -/
def Consecutive : Moment σ μ ε → List (Visit σ μ ε) → Moment σ μ ε → Prop
  | m, [], m' => m' = m
  | m, visit :: rest, m' => visit.before = m ∧ Consecutive visit.after rest m'

/-- What is so of every call among some visits. -/
def EveryCall
    (P : Subscriber (μ → Program σ μ ε) → Moment σ μ ε → Except (Halt ε) Unit → Moment σ μ ε → Prop)
    (visits : List (Visit σ μ ε)) : Prop :=
  ∀ sub before result after, .called sub before result after ∈ visits → P sub before result after

section

variable {P : Subscriber (μ → Program σ μ ε) → Moment σ μ ε → Except (Halt ε) Unit → Moment σ μ ε → Prop}
  {visits : List (Visit σ μ ε)} {sub : Subscriber (μ → Program σ μ ε)} {m m' : Moment σ μ ε}
  {result : Except (Halt ε) Unit}

theorem everyCall_nil : EveryCall P [] := nofun

theorem everyCall_skipped : EveryCall P (.skipped sub m :: visits) ↔ EveryCall P visits := by
  constructor
  · exact fun h sub before result after hmem => h sub before result after (List.mem_cons_of_mem _ hmem)
  · intro h sub before result after hmem
    rcases List.mem_cons.mp hmem with heq | hmem
    · cases heq
    · exact h sub before result after hmem

theorem everyCall_called :
    EveryCall P (.called sub m result m' :: visits) ↔ P sub m result m' ∧ EveryCall P visits := by
  constructor
  · exact fun h => ⟨h sub m result m' List.mem_cons_self,
      fun sub before result after hmem => h sub before result after (List.mem_cons_of_mem _ hmem)⟩
  · rintro ⟨hcall, h⟩ sub before result after hmem
    rcases List.mem_cons.mp hmem with heq | hmem
    · cases heq
      exact hcall
    · exact h sub before result after hmem

/-- Where no call takes anything from the past, the past at the end begins with that at the beginning. -/
theorem Consecutive.grows :
    ∀ {visits : List (Visit σ μ ε)} {m : Moment σ μ ε}, Consecutive m visits m' →
      EveryCall (fun _ before _ after => before.past <+: after.past) visits → m.past <+: m'.past
  | [], _, rfl, _ => List.prefix_rfl
  | .skipped _ _ :: _, _, ⟨rfl, hrest⟩, hcalls => hrest.grows (everyCall_skipped.mp hcalls)
  | .called _ _ _ _ :: _, _, ⟨rfl, hrest⟩, hcalls =>
      (everyCall_called.mp hcalls).1.trans (hrest.grows (everyCall_called.mp hcalls).2)

end

end Visit

section

variable {σ μ ε : Type}

/-- A publish on a topic that began at `start` has come to `m`, where the visits of the subscribers `subs`
are still to come.  From there it comes to these visits, this answer and the moment `m'`. -/
structure Delivery (topic : Topic) (start : Moment σ μ ε) (subs : List (Subscriber (μ → Program σ μ ε)))
    (m : Moment σ μ ε) (visits : List (Visit σ μ ε)) (answer : Except (Halt ε) Nat) (m' : Moment σ μ ε) :
    Prop where
  consecutive : Visit.Consecutive m visits m'
  /-- The visits come in the order of the subscribers. -/
  ordered : visits.map Visit.sub <+: subs
  /-- Whoever is visited is called, unless it has been cancelled since the publish began. -/
  isCall_iff : ∀ visit ∈ visits,
    visit.isCall = true ↔ ¬start.CancelledSince visit.before ⟨topic, visit.sub.id⟩
  /-- Who subscribes while the publish lasts is not visited. -/
  newcomers : ∀ handle, start.MadeSince m' handle → ∀ visit ∈ visits, handle ≠ ⟨topic, visit.sub.id⟩
  /-- Either nobody fails; then everybody is visited, and the answer is the number of calls.  Or the last
  to be called fails, and nobody before; then this failure is the answer. -/
  outcome :
    ((∀ visit ∈ visits, visit.failure? = none) ∧ visits.map Visit.sub = subs ∧
        answer = .ok (visits.countP Visit.isCall)) ∨
      ∃ earlier last halt, visits = earlier ++ [last] ∧ (∀ visit ∈ earlier, visit.failure? = none) ∧
        last.failure? = some halt ∧ answer = .error halt

namespace Delivery

variable {topic : Topic} {start m m₁ m' : Moment σ μ ε} {sub : Subscriber (μ → Program σ μ ε)}
  {subs : List (Subscriber (μ → Program σ μ ε))} {visit : Visit σ μ ε} {visits : List (Visit σ μ ε)}
  {answer : Except (Halt ε) Nat}

/-- Nobody is left. -/
theorem nil : Delivery topic start [] m [] (.ok 0) m where
  consecutive := rfl
  ordered := List.prefix_rfl
  isCall_iff := nofun
  newcomers := nofun
  outcome := .inl ⟨nofun, rfl, rfl⟩

/-- The next subscriber has been cancelled. -/
theorem skip (present : sub ∈ start.present topic)
    (cancelled : start.CancelledSince m ⟨topic, sub.id⟩)
    (rest : Delivery topic start subs m visits answer m') :
    Delivery topic start (sub :: subs) m (.skipped sub m :: visits) answer m' where
  consecutive := ⟨rfl, rest.consecutive⟩
  ordered := List.cons_prefix_cons.mpr ⟨rfl, rest.ordered⟩
  isCall_iff := List.forall_mem_cons.mpr ⟨⟨nofun, absurd cancelled⟩, rest.isCall_iff⟩
  newcomers := fun handle hmade =>
    List.forall_mem_cons.mpr ⟨Moment.ne_of_madeSince hmade present, rest.newcomers handle hmade⟩
  outcome := by
    rcases rest.outcome with ⟨hpass, hsubs, rfl⟩ | ⟨earlier, last, halt, rfl, hpass, hfails, rfl⟩
    · refine .inl ⟨List.forall_mem_cons.mpr ⟨rfl, hpass⟩, congrArg (sub :: ·) hsubs, ?_⟩
      rw [List.countP_cons_of_neg Bool.false_ne_true]
    · exact .inr ⟨_ :: earlier, last, halt, rfl, List.forall_mem_cons.mpr ⟨rfl, hpass⟩, hfails, rfl⟩

/-- The next subscriber is called, and does not fail. -/
theorem call (present : sub ∈ start.present topic)
    (still : ¬start.CancelledSince m ⟨topic, sub.id⟩)
    (rest : Delivery topic start subs m₁ visits answer m') :
    Delivery topic start (sub :: subs) m (.called sub m (.ok ()) m₁ :: visits) (answer.map (· + 1)) m' where
  consecutive := ⟨rfl, rest.consecutive⟩
  ordered := List.cons_prefix_cons.mpr ⟨rfl, rest.ordered⟩
  isCall_iff := List.forall_mem_cons.mpr ⟨⟨fun _ => still, fun _ => rfl⟩, rest.isCall_iff⟩
  newcomers := fun handle hmade =>
    List.forall_mem_cons.mpr ⟨Moment.ne_of_madeSince hmade present, rest.newcomers handle hmade⟩
  outcome := by
    rcases rest.outcome with ⟨hpass, hsubs, rfl⟩ | ⟨earlier, last, halt, rfl, hpass, hfails, rfl⟩
    · refine .inl ⟨List.forall_mem_cons.mpr ⟨rfl, hpass⟩, congrArg (sub :: ·) hsubs, ?_⟩
      rw [List.countP_cons_of_pos rfl]
      rfl
    · exact .inr ⟨_ :: earlier, last, halt, rfl, List.forall_mem_cons.mpr ⟨rfl, hpass⟩, hfails, rfl⟩

/-- The next subscriber is called and fails. -/
theorem halt {halt : Halt ε} (present : sub ∈ start.present topic)
    (still : ¬start.CancelledSince m ⟨topic, sub.id⟩) :
    Delivery topic start (sub :: subs) m [.called sub m (.error halt) m'] (.error halt) m' where
  consecutive := ⟨rfl, rfl⟩
  ordered := List.cons_prefix_cons.mpr ⟨rfl, List.nil_prefix⟩
  isCall_iff := by
    intro visit hturn
    rw [List.mem_singleton.mp hturn]
    exact ⟨fun _ => still, fun _ => rfl⟩
  newcomers := by
    intro handle hmade visit hturn
    rw [List.mem_singleton.mp hturn]
    exact Moment.ne_of_madeSince hmade present
  outcome := .inr ⟨[], _, halt, rfl, nofun, rfl, rfl⟩

/-! ### What is left of a publish -/

/-- Nobody is visited only where nobody is left. -/
theorem eq_nil (delivery : Delivery topic start subs m [] answer m') :
    subs = [] ∧ answer = .ok 0 ∧ m' = m := by
  obtain ⟨-, rfl, rfl⟩ | ⟨earlier, last, halt, hturns, -⟩ := delivery.outcome
  · exact ⟨rfl, rfl, delivery.consecutive⟩
  · exact absurd hturns.symm (List.append_ne_nil_of_right_ne_nil _ nofun)

/-- What is left of a publish behind a visit that does not fail. -/
theorem tail (delivery : Delivery topic start (sub :: subs) m (visit :: visits) answer m')
    (passes : visit.failure? = none) :
    ∃ rest, Delivery topic start subs visit.after visits rest m' ∧
      answer = rest.map (· + [visit].countP Visit.isCall) := by
  have build : ∀ rest, _ → Delivery topic start subs visit.after visits rest m' :=
    fun rest outcome => {
      consecutive := delivery.consecutive.2
      ordered := (List.cons_prefix_cons.mp delivery.ordered).2
      isCall_iff := (List.forall_mem_cons.mp delivery.isCall_iff).2
      newcomers := fun handle hmade => (List.forall_mem_cons.mp (delivery.newcomers handle hmade)).2
      outcome := outcome }
  rcases delivery.outcome with ⟨hpass, hsubs, rfl⟩ | ⟨earlier, last, halt, hturns, hpass, hfails, rfl⟩
  · refine ⟨_, build _ (.inl ⟨(List.forall_mem_cons.mp hpass).2, (List.cons.inj hsubs).2, rfl⟩), ?_⟩
    rw [← List.singleton_append, List.countP_append, Nat.add_comm]
    rfl
  · rcases earlier with _ | ⟨first, earlier⟩
    · obtain ⟨rfl, -⟩ := List.cons.inj hturns
      rw [passes] at hfails
      cases hfails
    · refine ⟨.error halt, build _ (.inr ⟨earlier, last, halt, (List.cons.inj hturns).2,
        (List.forall_mem_cons.mp hpass).2, hfails, rfl⟩), rfl⟩

/-- A visit that fails ends the publish. -/
theorem halted {halt : Halt ε} (delivery : Delivery topic start subs m (visit :: visits) answer m')
    (fails : visit.failure? = some halt) : answer = .error halt ∧ m' = visit.after := by
  obtain ⟨hpass, -⟩ | ⟨earlier, last, halt', hturns, hpass, hfails, rfl⟩ := delivery.outcome
  · rw [(List.forall_mem_cons.mp hpass).1] at fails
    cases fails
  · rcases earlier with _ | ⟨first, earlier⟩
    · obtain ⟨rfl, rfl⟩ := List.cons.inj hturns
      rw [fails] at hfails
      cases hfails
      exact ⟨rfl, delivery.consecutive.2⟩
    · obtain ⟨rfl, -⟩ := List.cons.inj hturns
      rw [(List.forall_mem_cons.mp hpass).1] at fails
      cases fails

/-- A call that meets the bound ends the publish. -/
theorem ne_tooDeep {before after : Moment σ μ ε} {result : Except (Halt ε) Unit}
    (delivery : Delivery topic start subs m visits answer m') (shallow : answer ≠ .error .tooDeep)
    (call : .called sub before result after ∈ visits) : result ≠ .error .tooDeep := by
  rintro rfl
  obtain ⟨hpass, -⟩ | ⟨earlier, last, halt, rfl, hpass, hfails, rfl⟩ := delivery.outcome
  · cases hpass _ call
  · rcases List.mem_append.mp call with hearlier | hlast
    · cases hpass _ hearlier
    · rw [← List.mem_singleton.mp hlast] at hfails
      cases hfails
      exact shallow rfl

end Delivery

end

end GroundStation
