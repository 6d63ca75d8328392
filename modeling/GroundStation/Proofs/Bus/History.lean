/-
# What a bus remembers of its history

A history of a bus lists the subscriptions that have been made and the cancellations that have been
asked for, earliest first.  It says who is to be called: the subscriptions made and not cancelled since,
in the order in which they were made (`standing`).  A bus holds no history, only lists of subscribers,
their flags and the ids to be given next.  `Recorded` says that the lists are those of a history, and to
subscribe and to cancel keep it so.

A publish asks a flag whether a subscriber is still to be called, and the history says whether it has been
cancelled.  Since flags and lists agree and an id is never given twice, these are one question, however
much has happened since the subscriber was seen on the list (`Recorded.holds_iff`).
-/
import GroundStation.Proofs.Bus.Delivery

namespace GroundStation

namespace Bus

variable {κ : Type}

/-! ## Histories -/

/-- What happens to the subscriptions of a bus. -/
inductive Change (κ : Type) where
  | subscribed (handle : Handle) (listener : κ)
  | cancelled (handle : Handle)

namespace Change

/-- The subscription that a change makes. -/
def made? : Change κ → Option Handle
  | subscribed handle _ => some handle
  | cancelled _ => none

/-- Whether a change cancels a subscription. -/
def cancels (handle : Handle) : Change κ → Bool
  | subscribed _ _ => false
  | cancelled other => other = handle

end Change

/-- The subscriptions that a history makes. -/
def made (past : List (Change κ)) : List Handle := past.filterMap Change.made?

instance (handle : Handle) (changes : List (Change κ)) : Decidable (.cancelled handle ∈ changes) :=
  decidable_of_iff (changes.any (Change.cancels handle) = true) (by
    rw [List.any_eq_true]
    constructor
    · rintro ⟨_ | other, hmem, hcancels⟩
      · cases hcancels
      · rwa [← of_decide_eq_true hcancels]
    · exact fun hmem => ⟨_, hmem, decide_eq_true rfl⟩)

/-- The subscribers of a topic that a history leaves: those subscribed and not cancelled later, in the
order of subscription. -/
def standing (topic : Topic) : List (Change κ) → List (Subscriber κ)
  | [] => []
  | .subscribed handle listener :: later =>
    if handle.topic = topic ∧ .cancelled handle ∉ later then
      ⟨handle.id, listener⟩ :: standing topic later
    else standing topic later
  | .cancelled _ :: later => standing topic later

theorem made_append (past later : List (Change κ)) : made (past ++ later) = made past ++ made later :=
  List.filterMap_append

/-- Who stands after a history and what came later stood after it and has not been cancelled later, or
has come later. -/
theorem standing_append (topic : Topic) (past later : List (Change κ)) :
    standing topic (past ++ later) =
      (standing topic past).filter (fun sub => .cancelled ⟨topic, sub.id⟩ ∉ later) ++
        standing topic later := by
  induction past with
  | nil => rfl
  | cons change past ih =>
    cases change with
    | cancelled other => exact ih
    | subscribed handle listener =>
      obtain ⟨t, id⟩ := handle
      rw [List.cons_append, standing, standing, ih]
      by_cases ht : t = topic
      · subst ht
        by_cases hpast : .cancelled ⟨t, id⟩ ∈ past
        · simp [hpast]
        · by_cases hlater : .cancelled ⟨t, id⟩ ∈ later <;> simp [hpast, hlater]
      · simp [ht]

/-- A new subscriber stands behind the others of its topic. -/
theorem standing_subscribed (topic : Topic) (past : List (Change κ)) (handle : Handle) (listener : κ) :
    standing topic (past ++ [.subscribed handle listener]) =
      standing topic past ++ if handle.topic = topic then [⟨handle.id, listener⟩] else [] := by
  have hkept : (standing topic past).filter (fun sub =>
      Change.cancelled ⟨topic, sub.id⟩ ∉ [Change.subscribed handle listener]) = standing topic past :=
    List.filter_eq_self.mpr fun sub _ => by simp
  rw [standing_append, hkept]
  by_cases h : handle.topic = topic <;> simp [standing, h]

/-- Who is cancelled stands no more. -/
theorem standing_cancelled (topic : Topic) (past : List (Change κ)) (handle : Handle) :
    standing topic (past ++ [.cancelled handle]) =
      (standing topic past).filter fun sub => ⟨topic, sub.id⟩ ≠ handle := by
  rw [standing_append, standing, standing, List.append_nil]
  refine List.filter_congr fun sub _ => ?_
  simp

/-- Who stands has been subscribed. -/
theorem mem_made_of_mem_standing {topic : Topic} {past : List (Change κ)} {sub : Subscriber κ}
    (h : sub ∈ standing topic past) : ⟨topic, sub.id⟩ ∈ made past := by
  induction past with
  | nil => cases h
  | cons change past ih =>
    cases change with
    | cancelled other => exact ih h
    | subscribed handle listener =>
      rw [standing] at h
      split at h
      · next hmade =>
        obtain ⟨rfl, -⟩ := hmade
        rcases List.mem_cons.mp h with rfl | h
        · exact List.mem_cons_self
        · exact List.mem_cons_of_mem _ (ih h)
      · exact List.mem_cons_of_mem _ (ih h)

/-! ## Buses with a history -/

/-- A bus whose channels hold what a history leaves. -/
structure Recorded (past : List (Change κ)) (b : Bus κ) : Prop where
  subscribers : ∀ topic, (b.channel topic).subscribers = standing topic past
  /-- The ids to be given next are new. -/
  fresh : ∀ handle ∈ made past, handle.id < (b.channel handle.topic).nextId
  /-- No subscription is made twice. -/
  distinct : (made past).Nodup

namespace Recorded

variable {past later : List (Change κ)} {b : Bus κ}

theorem empty : Recorded [] (empty : Bus κ) := ⟨fun _ => rfl, nofun, List.nodup_nil⟩

/-- A subscription enters the history. -/
theorem subscribe (recorded : Recorded past b) (topic : Topic) (listener : κ) :
    Recorded (past ++ [.subscribed (b.subscribe topic listener).1 listener])
      (b.subscribe topic listener).2 := by
  have hhandle : (b.subscribe topic listener).1 = ⟨topic, (b.channel topic).nextId⟩ := rfl
  rw [hhandle]
  have hmade : made (past ++ [.subscribed ⟨topic, (b.channel topic).nextId⟩ listener]) =
      made past ++ [⟨topic, (b.channel topic).nextId⟩] := made_append _ _
  constructor
  case subscribers =>
    intro other
    rw [channel_subscribe, standing_subscribed, ← recorded.subscribers]
    by_cases h : topic = other
    · subst h
      rw [if_pos rfl, if_pos rfl]
      rfl
    · rw [if_neg h, if_neg h, List.append_nil]
  case fresh =>
    intro handle hmem
    rw [hmade, List.mem_append, List.mem_singleton] at hmem
    rw [channel_subscribe]
    rcases hmem with hold | rfl
    · have hlt := recorded.fresh handle hold
      split
      · exact Nat.lt_succ_of_lt hlt
      · exact hlt
    · rw [if_pos rfl]
      exact Nat.lt_succ_self _
  case distinct =>
    rw [hmade]
    refine List.nodup_append.mpr
      ⟨recorded.distinct, List.nodup_cons.mpr ⟨List.not_mem_nil, List.nodup_nil⟩, ?_⟩
    rintro handle hold _ hnew rfl
    rw [List.mem_singleton.mp hnew] at hold
    exact Nat.lt_irrefl _ (recorded.fresh _ hold)

/-- A cancellation enters the history, also one of a subscription that does not stand. -/
theorem cancel (recorded : Recorded past b) (handle : Handle) :
    Recorded (past ++ [.cancelled handle]) (b.cancel handle) := by
  have hmade : made (past ++ [.cancelled handle]) = made past := by
    rw [made_append]
    exact List.append_nil _
  constructor
  case subscribers =>
    intro other
    obtain ⟨topic, id⟩ := handle
    rw [channel_cancel, standing_cancelled, ← recorded.subscribers]
    by_cases h : topic = other
    · subst h
      rw [if_pos rfl, (b.agree_channel topic).subscribers_cancel]
      refine List.filter_congr fun sub _ => ?_
      by_cases hid : sub.id = id <;> simp [hid]
    · rw [if_neg h]
      refine (List.filter_eq_self.mpr fun sub _ => ?_).symm
      simp [Ne.symm h]
  case fresh =>
    intro other hmem
    rw [hmade] at hmem
    rw [nextId_cancel]
    exact recorded.fresh other hmem
  case distinct =>
    rw [hmade]
    exact recorded.distinct

/-- Whoever a history knows, and a channel still holds, has not been cancelled later: nobody else can
have come by the same id. -/
theorem not_cancelled_of_holds (recorded : Recorded (past ++ later) b) {handle : Handle}
    (known : handle ∈ made past) (hholds : b.holds handle = true) : .cancelled handle ∉ later := by
  intro hcancelled
  obtain ⟨sub, hsub, hid⟩ := (b.agree_channel handle.topic).holds_iff.mp hholds
  rw [recorded.subscribers, standing_append, List.mem_append] at hsub
  rcases hsub with hold | hcame
  · have hstill := of_decide_eq_true (List.mem_filter.mp hold).2
    rw [hid] at hstill
    exact hstill hcancelled
  · have hagain := mem_made_of_mem_standing hcame
    rw [hid] at hagain
    have hdistinct := recorded.distinct
    rw [made_append] at hdistinct
    exact (List.nodup_append.mp hdistinct).2.2 _ known _ hagain rfl

/-- A subscriber that a history has left stands until it is cancelled: whether its flag is up and whether
it has not been cancelled since are the same question. -/
theorem holds_iff (recorded : Recorded (past ++ later) b) {topic : Topic} {sub : Subscriber κ}
    (stood : sub ∈ standing topic past) :
    b.holds ⟨topic, sub.id⟩ = true ↔ .cancelled ⟨topic, sub.id⟩ ∉ later := by
  constructor
  · exact recorded.not_cancelled_of_holds (mem_made_of_mem_standing stood)
  · intro hstill
    refine holds_of_mem ?_
    rw [recorded.subscribers, standing_append]
    exact List.mem_append_left _ (List.mem_filter.mpr ⟨stood, decide_eq_true hstill⟩)

/-- A subscription that has been cancelled does not stand again. -/
theorem not_holds_of_cancelled (recorded : Recorded (past ++ later) b) {handle : Handle}
    (known : handle ∈ made past) (hcancelled : .cancelled handle ∈ later) : b.holds handle = false :=
  Bool.eq_false_iff.mpr fun hholds => recorded.not_cancelled_of_holds known hholds hcancelled

end Recorded

/-! ## Cancelling what does not stand -/

/-- To cancel what does not stand changes no channel. -/
theorem channel_cancel_of_not_holds {b : Bus κ} {handle : Handle} (h : b.holds handle = false)
    (topic : Topic) : (b.cancel handle).channel topic = b.channel topic := by
  rw [channel_cancel]
  split
  · next htopic =>
    subst htopic
    exact Channel.cancel_of_not_holds h
  · rfl

end Bus

end GroundStation
