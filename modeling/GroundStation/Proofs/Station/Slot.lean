/-
# The one slot for an answer

An instrument's answer does not say which request it answers.  So the controller keeps one slot: a `get`
or `set` that it passes on fills the slot, whoever held it before, and the next answer of any instrument
is sent to the operators and empties it.  What comes to an empty slot is dropped, and what the controller
answers by itself leaves the slot alone.  `Slot.step` is this rule, and `Slot.run` applies it to all that
reaches the controller, one thing after another.

A bus has no slot.  It has the subscribers of `io_result`, and the controller remembers one subscription;
`Slotted` says how the two go together, and there are three ways in which they change together.
-/
import GroundStation.Proofs.Bus.Delivery
import GroundStation.Station.Publish

namespace GroundStation

/-! ## The rule -/

/-- What reaches the controller: requests of operators, and answers of instruments. -/
inductive Event where
  | request (r : Request)
  | result (r : Response)

namespace Catalog

/-- The entry of a `get` or a `set` that the catalog recognizes. -/
def entry? (c : Catalog) (r : Request) : Option CatalogEntry :=
  match r.kind with
  | .get => c.get? r.qualifiedId .get
  | .set => c.get? r.qualifiedId .set
  | _ => none

/-- What any other request is answered by. -/
def ownAnswer (c : Catalog) (r : Request) : Response :=
  match Station.accessor? r.kind with
  | none => .helo r.id
  | some accessor =>
    match c.get? r.qualifiedId accessor with
    | none => .errorFor r .notRecognized
    | some e => ⟨r.provider, r.id, r.kind.answer, some (Station.description e)⟩

end Catalog

/-- The slot: the subscription that waits for an answer, and the id that the next one will have. -/
structure Slot where
  holder : Option Handle
  next : Nat

namespace Slot

/-- What becomes of the slot, and what is sent to the operators. -/
def step (c : Catalog) (slot : Slot) : Event → Slot × List Response
  | .request r =>
    match c.entry? r with
    | some _ => (⟨some ⟨.ioResult, slot.next⟩, slot.next + 1⟩, [])
    | none => (slot, [c.ownAnswer r])
  | .result r =>
    match slot.holder with
    | some _ => (⟨none, slot.next⟩, [r])
    | none => (slot, [])

theorem step_forwarded {c : Catalog} {r : Request} {e : CatalogEntry} (h : c.entry? r = some e)
    (slot : Slot) :
    slot.step c (.request r) = (⟨some ⟨.ioResult, slot.next⟩, slot.next + 1⟩, []) := by
  rw [step, h]

theorem step_answered {c : Catalog} {r : Request} (h : c.entry? r = none) (slot : Slot) :
    slot.step c (.request r) = (slot, [c.ownAnswer r]) := by
  rw [step, h]

theorem step_taken {slot : Slot} {h : Handle} (full : slot.holder = some h) (c : Catalog)
    (r : Response) : slot.step c (.result r) = (⟨none, slot.next⟩, [r]) := by
  rw [step, full]

theorem step_dropped {slot : Slot} (empty : slot.holder = none) (c : Catalog) (r : Response) :
    slot.step c (.result r) = (slot, []) := by
  rw [step, empty]

/-- The rule, applied to one event after another. -/
def run (c : Catalog) : Slot → List Event → Slot × List Response
  | slot, [] => (slot, [])
  | slot, e :: rest =>
    ((run c (slot.step c e).1 rest).1, (slot.step c e).2 ++ (run c (slot.step c e).1 rest).2)

theorem run_singleton (c : Catalog) (slot : Slot) (e : Event) : run c slot [e] = slot.step c e := by
  simp only [run, List.append_nil]

theorem run_append (c : Catalog) (fs : List Event) :
    ∀ (es : List Event) (slot : Slot), run c slot (es ++ fs) =
      ((run c (run c slot es).1 fs).1, (run c slot es).2 ++ (run c (run c slot es).1 fs).2)
  | [], slot => rfl
  | e :: es, slot => by
      rw [List.cons_append, run, run_append c fs es, run]
      simp only [List.append_assoc]

end Slot

/-! ## The slot on the bus -/

/-- Who listens beside the controller, and lets answers pass. -/
def Bystander (listener : Listener) : Prop :=
  listener ≠ .oneShot ∧ ∀ reason, listener ≠ .refuser reason

/-- A slot on the bus: of those who listen for answers the controller is the last, where it waits for one,
and the others let answers pass. -/
structure Slotted (b : Bus Listener) (slot : Slot) : Prop where
  subscribers : ∃ front, (∀ sub ∈ front, Bystander sub.listener) ∧
    (b.channel .ioResult).subscribers =
      front ++ slot.holder.toList.map fun h => ⟨h.id, .oneShot⟩
  topic : ∀ h ∈ slot.holder, h.topic = .ioResult
  fresh : ∀ sub ∈ (b.channel .ioResult).subscribers, sub.id < slot.next
  next : (b.channel .ioResult).nextId = slot.next

namespace Slotted

variable {b : Bus Listener} {next : Nat}

/-- Who holds the slot loses it. -/
theorem empty {h : Handle} (slotted : Slotted b ⟨some h, next⟩) : Slotted (b.cancel h) ⟨none, next⟩ := by
  obtain ⟨front, hfront, hsubs⟩ := slotted.subscribers
  have hchannel : (b.cancel h).channel .ioResult = (b.channel .ioResult).cancel h.id := by
    rw [Bus.channel_cancel, if_pos (slotted.topic h rfl)]
  have agree := b.agree_channel .ioResult
  constructor
  case subscribers =>
    refine ⟨front.filter fun sub => sub.id != h.id, ?_, ?_⟩
    · intro sub hsub
      exact hfront sub (List.mem_filter.mp hsub).1
    · rw [hchannel, agree.subscribers_cancel, hsubs]
      simp
  case topic =>
    intro h hh
    cases hh
  case fresh =>
    intro sub hsub
    rw [hchannel, agree.subscribers_cancel] at hsub
    exact slotted.fresh sub (List.mem_filter.mp hsub).1
  case next =>
    rw [Bus.nextId_cancel]
    exact slotted.next

/-- An empty slot is taken. -/
theorem fill (slotted : Slotted b ⟨none, next⟩) :
    Slotted (b.subscribe .ioResult .oneShot).2 ⟨some ⟨.ioResult, next⟩, next + 1⟩ := by
  obtain ⟨front, hfront, hsubs⟩ := slotted.subscribers
  have hchannel : (b.subscribe .ioResult .oneShot).2.channel .ioResult =
      (b.channel .ioResult).subscribe .oneShot := by
    rw [Bus.channel_subscribe, if_pos rfl]
  constructor
  case subscribers =>
    refine ⟨front, hfront, ?_⟩
    rw [hchannel, Channel.subscribe, hsubs, slotted.next]
    simp
  case topic =>
    rintro h ⟨⟩
    rfl
  case fresh =>
    intro sub hsub
    rw [hchannel, Channel.subscribe, slotted.next] at hsub
    rcases List.mem_append.mp hsub with hold | hnew
    · exact Nat.lt_succ_of_lt (slotted.fresh sub hold)
    · rw [List.mem_singleton.mp hnew]
      exact Nat.lt_succ_self next
  case next =>
    rw [hchannel, Channel.subscribe, slotted.next]

/-- Only who listens for answers counts. -/
theorem congr {b' : Bus Listener} {slot : Slot} (slotted : Slotted b slot)
    (same : b'.channel .ioResult = b.channel .ioResult) : Slotted b' slot where
  subscribers := by rw [same]; exact slotted.subscribers
  topic := slotted.topic
  fresh := by rw [same]; exact slotted.fresh
  next := by rw [same]; exact slotted.next

/-- A full slot changes hands.  The new holder comes before the old one goes, and an id is never given
again: it is as if the old one had gone first. -/
theorem refill {h : Handle} (slotted : Slotted b ⟨some h, next⟩) :
    Slotted ((b.subscribe .ioResult .oneShot).2.cancel h) ⟨some ⟨.ioResult, next⟩, next + 1⟩ := by
  have htopic : h.topic = .ioResult := slotted.topic h rfl
  have older : h.id < next := by
    obtain ⟨front, -, hsubs⟩ := slotted.subscribers
    refine slotted.fresh ⟨h.id, .oneShot⟩ ?_
    rw [hsubs]
    exact List.mem_append_right _ List.mem_cons_self
  have ne : (b.channel .ioResult).nextId ≠ h.id := by
    rw [slotted.next]
    exact Nat.ne_of_gt older
  refine slotted.empty.fill.congr ?_
  rw [Bus.channel_cancel, if_pos htopic, Bus.channel_subscribe, if_pos rfl, Bus.channel_subscribe,
    if_pos rfl, Bus.channel_cancel, if_pos htopic, Channel.cancel_subscribe ne]

end Slotted

end GroundStation
