/-
# The bus

A bus has a channel for every topic; one that nobody has used yet has no subscribers.  A handle names a
subscription by its topic and its id.

On every channel of a bus the flags agree with the list of subscribers.  A bus carries the proof, so who
puts a channel back has to show that it kept the agreement.
-/
import GroundStation.Bus.Channel

namespace GroundStation

/-- A subscription: the topic and the id on its channel. -/
structure Handle where
  topic : Topic
  id : Nat
  deriving DecidableEq, Repr

/-- The channels in use. -/
@[ext]
structure Bus (κ : Type) where
  channels : List (Topic × Channel κ)
  /-- Flags and list agree on every channel. -/
  agree : ∀ entry ∈ channels, entry.2.Agree

namespace Bus

variable {κ : Type}

/-- A bus that nobody has used. -/
def empty : Bus κ := ⟨[], fun _ hentry => nomatch hentry⟩

/-- The channel of a topic in a list of channels. -/
def find (topic : Topic) : List (Topic × Channel κ) → Channel κ
  | [] => .empty
  | (t, c) :: rest => if t = topic then c else find topic rest

/-- The channel of a topic. -/
def channel (b : Bus κ) (topic : Topic) : Channel κ := find topic b.channels

/-- A list of channels with another channel for a topic. -/
def replace (topic : Topic) (channel : Channel κ) : List (Topic × Channel κ) → List (Topic × Channel κ)
  | [] => [(topic, channel)]
  | (t, c) :: rest => if t = topic then (topic, channel) :: rest else (t, c) :: replace topic channel rest

theorem agree_find (topic : Topic) {l : List (Topic × Channel κ)} (agree : ∀ entry ∈ l, entry.2.Agree) :
    (find topic l).Agree := by
  induction l with
  | nil => exact .empty
  | cons entry rest ih =>
    rw [find]
    split
    · exact agree entry List.mem_cons_self
    · exact ih fun other hother => agree other (List.mem_cons_of_mem _ hother)

/-- Flags and list of a channel agree. -/
theorem agree_channel (b : Bus κ) (topic : Topic) : (b.channel topic).Agree := agree_find topic b.agree

theorem agree_replace {topic : Topic} {c : Channel κ} (agree : c.Agree) {l : List (Topic × Channel κ)}
    (each : ∀ entry ∈ l, entry.2.Agree) : ∀ entry ∈ replace topic c l, entry.2.Agree := by
  induction l with
  | nil =>
    intro entry hentry
    rw [List.mem_singleton.mp hentry]
    exact agree
  | cons first rest ih =>
    rw [List.forall_mem_cons] at each
    rw [replace]
    split
    · exact List.forall_mem_cons.mpr ⟨agree, each.2⟩
    · exact List.forall_mem_cons.mpr ⟨each.1, ih each.2⟩

/-- The bus with another channel for a topic. -/
def setChannel (b : Bus κ) (topic : Topic) (channel : Channel κ) (agree : channel.Agree) : Bus κ :=
  ⟨replace topic channel b.channels, agree_replace agree b.agree⟩

/-- Subscribes to a topic. -/
def subscribe (b : Bus κ) (topic : Topic) (listener : κ) : Handle × Bus κ :=
  let c := b.channel topic
  (⟨topic, c.nextId⟩,
    b.setChannel topic (c.subscribe listener) ((b.agree_channel topic).subscribe listener))

/-- Cancels a subscription. -/
def cancel (b : Bus κ) (h : Handle) : Bus κ :=
  b.setChannel h.topic ((b.channel h.topic).cancel h.id) ((b.agree_channel h.topic).cancel h.id)

/-- Cancels subscriptions one after another. -/
def cancelAll (b : Bus κ) (hs : List Handle) : Bus κ := hs.foldl cancel b

/-- Whether a subscription stands. -/
def holds (b : Bus κ) (h : Handle) : Bool := (b.channel h.topic).holds h.id

/-! ## Small lemmas -/

@[simp] theorem channel_empty (topic : Topic) : (empty : Bus κ).channel topic = .empty := rfl

theorem find_replace (topic other : Topic) (c : Channel κ) (l : List (Topic × Channel κ)) :
    find other (replace topic c l) = if topic = other then c else find other l := by
  induction l with
  | nil => simp [replace, find]
  | cons p rest ih =>
    obtain ⟨t, d⟩ := p
    by_cases ht : t = topic
    · subst ht
      by_cases ho : t = other <;> simp [replace, find, ho]
    · by_cases ho : topic = other
      · subst ho
        simp [replace, find, ht, ih]
      · by_cases hto : t = other
        · subst hto
          simp [replace, find, ht, ho]
        · simp [replace, find, ht, ho, hto, ih]

/-- A replaced channel is found, and no other changes. -/
@[simp] theorem channel_setChannel (b : Bus κ) (topic other : Topic) (c : Channel κ) (agree : c.Agree) :
    (b.setChannel topic c agree).channel other = if topic = other then c else b.channel other :=
  find_replace topic other c b.channels

/-- A cancelled subscription does not stand. -/
theorem holds_cancel (b : Bus κ) (h : Handle) : (b.cancel h).holds h = false := by
  simp [holds, cancel, Channel.holds_cancel]

end Bus

end GroundStation
