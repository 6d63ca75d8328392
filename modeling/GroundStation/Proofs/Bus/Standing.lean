/-
# Who stands after subscriptions have come and gone

A subscriber stands until the handle of its subscription is cancelled, and a handle is the topic with the
id.  So who stands after any cancellations is told by the handles alone (`mem_channel_cancelAll`).

Two more facts rest on that.  Where every id is older than the next one (`Fresh`), to cancel a
subscription that has just been made restores the list of subscribers.  And to cancel a handle that was
cancelled before is to do nothing at all (`Spent`), which is said here of the bus and not only of what
its channels hold, since a bus lists its channels in the order of their first use.
-/
import GroundStation.Proofs.Bus.History

namespace GroundStation

namespace Bus

variable {κ : Type}

/-! ## By their handles -/

theorem mem_channel_subscribe {b : Bus κ} {topic other : Topic} {l : κ} {sub : Subscriber κ} :
    sub ∈ ((b.subscribe topic l).2.channel other).subscribers ↔
      sub ∈ (b.channel other).subscribers ∨
        (topic = other ∧ sub = ⟨(b.channel topic).nextId, l⟩) := by
  rw [channel_subscribe]
  split
  · next h =>
    subst h
    rw [Channel.subscribe, List.mem_append, List.mem_singleton]
    exact or_congr Iff.rfl (iff_and_self.mpr fun _ => rfl)
  · next h => exact (or_iff_left fun hand => h hand.1).symm

theorem mem_channel_cancel {b : Bus κ} {h : Handle} {topic : Topic} {sub : Subscriber κ} :
    sub ∈ ((b.cancel h).channel topic).subscribers ↔
      sub ∈ (b.channel topic).subscribers ∧ (⟨topic, sub.id⟩ : Handle) ≠ h := by
  obtain ⟨t, id⟩ := h
  rw [channel_cancel]
  split
  · next ht =>
    subst ht
    simp [(b.agree_channel t).subscribers_cancel]
  · next ht =>
    have hne : (⟨topic, sub.id⟩ : Handle) ≠ ⟨t, id⟩ := fun heq => ht (congrArg Handle.topic heq).symm
    exact (and_iff_left hne).symm

theorem mem_channel_cancelAll {hs : List Handle} :
    ∀ {b : Bus κ} {topic : Topic} {sub : Subscriber κ},
      sub ∈ ((b.cancelAll hs).channel topic).subscribers ↔
        sub ∈ (b.channel topic).subscribers ∧ (⟨topic, sub.id⟩ : Handle) ∉ hs := by
  induction hs with
  | nil => exact (and_iff_left List.not_mem_nil).symm
  | cons h rest ih =>
    intro b topic sub
    have hcancelAll : b.cancelAll (h :: rest) = (b.cancel h).cancelAll rest := rfl
    rw [hcancelAll, ih, mem_channel_cancel, List.mem_cons, not_or, and_assoc]

/-- To cancel subscriptions of other topics changes nothing for a topic. -/
theorem listeners_cancelAll {topic : Topic} {hs : List Handle} (other : ∀ h ∈ hs, h.topic ≠ topic) :
    ∀ {b : Bus κ}, (b.cancelAll hs).listeners topic = b.listeners topic := by
  induction hs with
  | nil => exact rfl
  | cons h rest ih =>
    intro b
    have later := ih (fun x hx => other x (List.mem_cons_of_mem _ hx)) (b := b.cancel h)
    exact later.trans (listeners_cancel (other h List.mem_cons_self))

theorem mem_listeners_cancelAll {b : Bus κ} {topic : Topic} {l : κ} {hs : List Handle}
    (h : l ∈ b.listeners topic) (other : ∀ x ∈ hs, x.topic ≠ topic) :
    l ∈ (b.cancelAll hs).listeners topic := by
  rw [listeners_cancelAll other]
  exact h

theorem mem_listeners_subscribe {b : Bus κ} {topic other : Topic} {l l' : κ}
    (h : l ∈ b.listeners topic) : l ∈ (b.subscribe other l').2.listeners topic := by
  rw [listeners_subscribe]
  split
  · exact List.mem_append_left _ h
  · exact h

/-- What all listeners of a topic have in common they keep when somebody goes. -/
theorem forall_listeners_cancelAll {P : κ → Prop} {b : Bus κ} {topic : Topic}
    (all : ∀ l ∈ b.listeners topic, P l) (hs : List Handle) : ∀ l ∈ (b.cancelAll hs).listeners topic, P l := by
  intro l hl
  obtain ⟨sub, hsub, rfl⟩ := List.mem_map.mp hl
  exact all _ (List.mem_map_of_mem (mem_channel_cancelAll.mp hsub).1)

/-- They keep it when somebody comes who has it too. -/
theorem forall_listeners_subscribe {P : κ → Prop} {b : Bus κ} {topic other : Topic} {l' : κ}
    (all : ∀ l ∈ b.listeners topic, P l) (new : other = topic → P l') :
    ∀ l ∈ (b.subscribe other l').2.listeners topic, P l := by
  rw [listeners_subscribe]
  split
  · next h =>
    rw [List.forall_mem_append]
    exact ⟨all, List.forall_mem_singleton.mpr (new h)⟩
  · exact all

/-! ## Ids -/

/-- Every id in use is older than the next one. -/
def Fresh (b : Bus κ) : Prop :=
  ∀ topic, ∀ sub ∈ (b.channel topic).subscribers, sub.id < (b.channel topic).nextId

namespace Fresh

variable {b : Bus κ}

theorem empty : Fresh (empty : Bus κ) := fun _ _ hsub => nomatch hsub

theorem subscribe (fresh : Fresh b) (topic : Topic) (l : κ) : Fresh (b.subscribe topic l).2 := by
  intro other sub hsub
  rw [channel_subscribe] at hsub ⊢
  split at hsub
  · next h =>
    rw [if_pos h]
    rcases List.mem_append.mp hsub with hold | hnew
    · exact Nat.lt_succ_of_lt (fresh other sub hold)
    · rw [List.mem_singleton.mp hnew]
      exact Nat.lt_succ_self _
  · next h =>
    rw [if_neg h]
    exact fresh other sub hsub

theorem cancel (fresh : Fresh b) (h : Handle) : Fresh (b.cancel h) := by
  intro topic sub hsub
  rw [nextId_cancel]
  exact fresh topic sub (mem_channel_cancel.mp hsub).1

theorem cancelAll (hs : List Handle) : ∀ {b : Bus κ}, Fresh b → Fresh (b.cancelAll hs) := by
  induction hs with
  | nil => exact id
  | cons h rest ih => exact fun fresh => ih (fresh.cancel h)

/-- To cancel a subscription that has just been made restores the subscribers. -/
theorem subscribers_cancel_subscribe (fresh : Fresh b) (topic : Topic) (l : κ) :
    ((b.channel topic).subscribe l |>.cancel (b.channel topic).nextId).subscribers =
      (b.channel topic).subscribers := by
  have hkept : (b.channel topic).subscribers.filter (fun sub => sub.id != (b.channel topic).nextId) =
      (b.channel topic).subscribers := by
    refine List.filter_eq_self.mpr fun sub hsub => ?_
    exact bne_iff_ne.mpr (Nat.ne_of_lt (fresh topic sub hsub))
  rw [((b.agree_channel topic).subscribe l).subscribers_cancel, Channel.subscribe, List.filter_append, hkept]
  simp

end Fresh

/-! ## Handles that have been cancelled -/

/-- A handle that has been cancelled: its topic has been used, and its subscription does not stand. -/
structure Spent (b : Bus κ) (h : Handle) : Prop where
  used : h.topic ∈ b.channels.map Prod.fst
  gone : b.holds h = false

theorem mem_keys_replace {topic other : Topic} {c : Channel κ} {l : List (Topic × Channel κ)} :
    other ∈ (replace topic c l).map Prod.fst ↔ other = topic ∨ other ∈ l.map Prod.fst := by
  induction l with
  | nil => simp [replace]
  | cons entry rest ih =>
    obtain ⟨t, d⟩ := entry
    rw [replace]
    split
    · next h =>
      subst h
      simp
    · rw [List.map_cons, List.mem_cons, ih, List.map_cons, List.mem_cons, or_left_comm]

theorem replace_find {topic : Topic} {l : List (Topic × Channel κ)} (used : topic ∈ l.map Prod.fst) :
    replace topic (find topic l) l = l := by
  induction l with
  | nil => cases used
  | cons entry rest ih =>
    obtain ⟨t, d⟩ := entry
    by_cases h : t = topic
    · subst h
      simp [replace, find]
    · rw [replace, find, if_neg h, if_neg h, ih]
      exact (List.mem_cons.mp used).resolve_left (Ne.symm h)

theorem spent_cancel (b : Bus κ) (h : Handle) : Spent (b.cancel h) h where
  used := mem_keys_replace.mpr (.inl rfl)
  gone := holds_cancel b h

namespace Spent

variable {b : Bus κ} {h : Handle}

theorem cancel (spent : Spent b h) (other : Handle) : Spent (b.cancel other) h where
  used := mem_keys_replace.mpr (.inr spent.used)
  gone := by
    refine Bool.eq_false_iff.mpr fun stands => Bool.eq_false_iff.mp spent.gone ?_
    rw [holds, channel_cancel] at stands
    split at stands
    · exact (Channel.holds_cancel_iff.mp stands).1
    · exact stands

theorem cancelAll (hs : List Handle) : ∀ {b : Bus κ}, Spent b h → Spent (b.cancelAll hs) h := by
  induction hs with
  | nil => exact id
  | cons other rest ih => exact fun spent => ih (spent.cancel other)

/-- To cancel once more is to do nothing. -/
theorem cancel_eq (spent : Spent b h) : b.cancel h = b := by
  have hchannel : (b.channel h.topic).cancel h.id = b.channel h.topic := by
    have hkept := channel_cancel_of_not_holds spent.gone h.topic
    rwa [channel_cancel, if_pos rfl] at hkept
  refine Bus.ext ?_
  show replace h.topic ((b.channel h.topic).cancel h.id) b.channels = b.channels
  rw [hchannel, channel, replace_find spent.used]

end Spent

/-- Cancelling twice is cancelling once. -/
theorem cancel_cancel (b : Bus κ) (handle : Handle) : (b.cancel handle).cancel handle = b.cancel handle :=
  (spent_cancel b handle).cancel_eq

theorem spent_cancelAll {hs : List Handle} :
    ∀ {b : Bus κ}, ∀ h ∈ hs, Spent (b.cancelAll hs) h := by
  induction hs with
  | nil => exact fun h hmem => nomatch hmem
  | cons first rest ih =>
    intro b h hmem
    rcases List.mem_cons.mp hmem with rfl | hmem
    · exact (spent_cancel b h).cancelAll rest
    · exact ih h hmem

theorem cancelAll_eq_self {b : Bus κ} {hs : List Handle} (spent : ∀ h ∈ hs, Spent b h) :
    b.cancelAll hs = b := by
  induction hs with
  | nil => rfl
  | cons h rest ih =>
    have first : b.cancel h = b := (spent h List.mem_cons_self).cancel_eq
    have hcancelAll : b.cancelAll (h :: rest) = (b.cancel h).cancelAll rest := rfl
    rw [hcancelAll, first]
    exact ih fun other hmem => spent other (List.mem_cons_of_mem _ hmem)

end Bus

end GroundStation
