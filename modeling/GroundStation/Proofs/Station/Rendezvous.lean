/-
# Requests and answers meet in the slot

A station does what `Slot.step` says, whatever reaches the controller (`reachAll_eq_slotRun`): requests of
operators and answers of instruments, in any order, asked for or not.  The difficulty is that this is not
one thing after another.  Instruments in service answer while a request is passed on to them, before its
dispatch is over, and the subscription that takes an answer cancels itself while the answer is being
published.  So what reaches the controller is collected from the calls that the publishes make
(`events`), and `Conforms` is a relation that holds of each call and adds up.

Publishes may fail in all this.  The first listener of `tm` is an observer, who hears what is sent; what
listens behind it, on `raw_tm` or to the requests for instruments is free to refuse.
-/
import GroundStation.Proofs.Station.Slot
import GroundStation.Proofs.Station.Wiring

namespace GroundStation

namespace Station

variable {δ : Type}

/-- The slot of a station. -/
def slot (s : Station δ) : Slot := ⟨s.controller.pending, (s.bus.channel .ioResult).nextId⟩

/-- The response that an observer of `tm` has heard. -/
def reply? : Topic × Message → Option Response
  | (.tm, .response r) => some r
  | _ => none

/-- The responses that have been published on `tm`, earliest first. -/
def replies (s : Station δ) : List Response := s.heard.reverse.filterMap reply?

/-- The subscriptions for an answer that stand. -/
def waiting (s : Station δ) : List Handle :=
  (s.bus.channel .ioResult).subscribers.filterMap fun sub =>
    if sub.listener = .oneShot then some ⟨.ioResult, sub.id⟩ else none

/-! ## What reaches the controller -/

/-- A request is dispatched, an answer is published. -/
def reach : Event → Station δ → Station δ
  | .request r, s => (dispatch r s).2
  | .result r, s => (publishIoResult (.response r) s).2

/-- Whatever comes, one after another. -/
def reachAll : List Event → Station δ → Station δ
  | [], s => s
  | e :: rest, s => reachAll rest (reach e s)

/-- What a listener answers to a request for instruments. -/
def served? (m : Message) (listener : Listener) (s : Station δ) : Option Response :=
  match listener, m with
  | .instrument index, .request r =>
    s.services[index]?.bind fun v => (v.instrument.execute r s.devices).1
  | _, _ => none

/-- What the instruments in service answer while a message is passed on to them. -/
def answersTo (m : Message) (s : Station δ) : List Response :=
  (calls (fun id s => s.bus.holds ⟨.ioRequest, id⟩) (hearIoRequest m)
    (s.bus.channel .ioRequest).subscribers s).flatMap fun c => (served? m c.1 c.2).toList

/-- All that reaches the controller with one event: behind a request that is passed on there are the
answers of the instruments in service. -/
def eventsOf (e : Event) (s : Station δ) : List Event :=
  match e with
  | .result r => [.result r]
  | .request r =>
    match s.catalog.entry? r with
    | some entry => .request r :: (answersTo (.request (readdress r entry)) s.await).map .result
    | none => [.request r]

/-- All that reaches the controller with one event after another. -/
def events : List Event → Station δ → List Event
  | [], _ => []
  | e :: rest, s => eventsOf e s ++ events rest (reach e s)

/-! ## A station with a slot -/

/-- A station with a slot, and with an observer who hears what is sent to the operators. -/
structure Rendezvous (s : Station δ) : Prop where
  tm : ∃ behind, s.listeners .tm = .observer :: behind ∧ .observer ∉ behind
  slotted : Slotted s.bus s.slot

/-- Where the slot is full, the subscription that holds it stands, and no other stands for an answer. -/
theorem Rendezvous.waiting_eq {s : Station δ} (h : Rendezvous s) :
    s.waiting = s.slot.holder.toList := by
  obtain ⟨front, hfront, hsubs⟩ := h.slotted.subscribers
  have hnone : front.filterMap (fun sub =>
      if sub.listener = .oneShot then some (Handle.mk .ioResult sub.id) else none) = [] := by
    rw [List.filterMap_eq_nil_iff]
    intro sub hsub
    exact if_neg (hfront sub hsub).1
  rw [waiting, hsubs, List.filterMap_append, hnone, List.nil_append]
  cases hp : s.slot.holder with
  | none => rfl
  | some handle =>
    have htopic := h.slotted.topic handle hp
    obtain ⟨topic, id⟩ := handle
    cases htopic
    rfl

/-! ## What leaves the slot alone -/

/-- From `s` to `t` these responses have been sent, and nothing has been done to the slot. -/
structure Sends (s t : Station δ) (out : List Response) : Prop where
  bus : t.bus = s.bus
  controller : t.controller = s.controller
  replies : t.replies = s.replies ++ out

namespace Sends

theorem refl (s : Station δ) : Sends s s [] := ⟨rfl, rfl, (List.append_nil _).symm⟩

theorem trans {s t u : Station δ} {out more : List Response} (h : Sends s t out)
    (h' : Sends t u more) : Sends s u (out ++ more) where
  bus := h'.bus.trans h.bus
  controller := h'.controller.trans h.controller
  replies := by rw [h'.replies, h.replies, List.append_assoc]

theorem slot {s t : Station δ} {out : List Response} (h : Sends s t out) : t.slot = s.slot := by
  rw [Station.slot, h.bus, h.controller, Station.slot]

theorem keep {s t u : Station δ} (h : Sends s t []) (h' : Sends t u []) : Sends s u [] := h.trans h'

end Sends

theorem ignoreCount_snd (outcome : Except StationError Nat × Station δ) :
    (ignoreCount outcome).2 = outcome.2 := by
  rcases outcome with ⟨_ | _, s⟩ <;> rfl

/-- What an observer hears of `tm` counts, and nothing else does. -/
theorem sends_note (topic : Topic) (m : Message) (s : Station δ) :
    Sends s { s with heard := (topic, m) :: s.heard } (reply? (topic, m)).toList := by
  refine ⟨rfl, rfl, ?_⟩
  rw [replies, replies, List.reverse_cons, List.filterMap_append]
  cases h : reply? (topic, m) <;> simp [h]

theorem reply?_of_ne {topic : Topic} (ne : topic ≠ .tm) (m : Message) : reply? (topic, m) = none := by
  cases topic with
  | tm => exact absurd rfl ne
  | _ => rfl

theorem sends_overhear (topic : Topic) (ne : topic ≠ .tm) (m : Message) (l : Listener)
    (s : Station δ) : Sends s (overhear topic m l s).2 [] := by
  cases l with
  | observer =>
    have h := sends_note topic m s
    rw [reply?_of_ne ne] at h
    exact h
  | _ => exact .refl s

theorem sends_publishRawTm (m : Message) (s : Station δ) : Sends s (publishRawTm m s).2 [] := by
  refine deliver_keeps (R := fun s t => Sends s t []) .refl .keep ?_ s
  intro sub _ s
  unfold hearRawTm
  split
  · exact ⟨rfl, rfl, (List.append_nil _).symm⟩
  · exact sends_overhear .rawTm (by decide) _ _ s

theorem sends_hearTm {l : Listener} (ne : l ≠ .observer) (m : Message) (s : Station δ) :
    Sends s (hearTm m l s).2 [] := by
  unfold hearTm
  split
  · rw [ignoreCount_snd]
    exact sends_publishRawTm _ s
  · cases l with
    | observer => exact absurd rfl ne
    | _ => exact .refl s

/-- The observer of `tm` is told first. -/
theorem sends_reply {s : Station δ} (h : Rendezvous s) (r : Response) : Sends s (reply r s).2 [r] := by
  obtain ⟨behind, htm, hbehind⟩ := h.tm
  obtain ⟨sub, rest, hsubs, hsub, rfl⟩ := List.map_eq_cons_iff.mp htm
  have hstands : s.bus.holds ⟨.tm, sub.id⟩ = true := by
    refine Bus.holds_of_mem ?_
    rw [hsubs]
    exact List.mem_cons_self
  have first : deliver (fun id s => s.bus.holds ⟨.tm, id⟩) (hearTm (.response r)) [sub] s =
      (.ok 1, { s with heard := (.tm, .response r) :: s.heard }) := by
    rw [deliver_one hstands, hsub]
    rfl
  rw [reply, ignoreCount_snd, publishTm, tell, hsubs, ← List.singleton_append, deliver_append_of_ok first]
  refine (sends_note .tm (.response r) s).trans ?_
  refine deliver_keeps (R := fun s t => Sends s t []) .refl .keep ?_ _
  intro x hx u
  refine sends_hearTm ?_ _ u
  intro heq
  exact hbehind (heq ▸ List.mem_map_of_mem hx)

theorem Rendezvous.sends {s t : Station δ} {out : List Response} (h : Rendezvous s)
    (sends : Sends s t out) : Rendezvous t where
  tm := by rw [listeners, sends.bus]; exact h.tm
  slotted := by rw [sends.slot, sends.bus]; exact h.slotted

/-! ## What the slot does -/

/-- From `s` to `t` the slot has become this one, and these responses have been sent. -/
structure Moves (s t : Station δ) (slot : Slot) (out : List Response) : Prop where
  rendezvous : Rendezvous t
  catalog : t.catalog = s.catalog
  channel : ∀ topic, topic ≠ .ioResult → t.bus.channel topic = s.bus.channel topic
  slot : t.slot = slot
  replies : t.replies = s.replies ++ out

namespace Moves

theorem refl {s : Station δ} (h : Rendezvous s) : Moves s s s.slot [] :=
  ⟨h, rfl, fun _ _ => rfl, rfl, (List.append_nil _).symm⟩

theorem sends {s t u : Station δ} {slot : Slot} {out more : List Response} (h : Moves s t slot out)
    (h' : Sends t u more) : Moves s u slot (out ++ more) where
  rendezvous := h.rendezvous.sends h'
  catalog := by rw [Station.catalog, h'.controller]; exact h.catalog
  channel := by rw [h'.bus]; exact h.channel
  slot := h'.slot.trans h.slot
  replies := by rw [h'.replies, h.replies, List.append_assoc]

end Moves

/-- From `s` to `t` the station has done what the rule says of these events. -/
def Conforms (s t : Station δ) (es : List Event) : Prop :=
  Moves s t (Slot.run s.catalog s.slot es).1 (Slot.run s.catalog s.slot es).2

namespace Conforms

theorem append {s t u : Station δ} {es fs : List Event} (h : Conforms s t es) (h' : Conforms t u fs) :
    Conforms s u (es ++ fs) where
  rendezvous := h'.rendezvous
  catalog := h'.catalog.trans h.catalog
  channel := fun topic ne => (h'.channel topic ne).trans (h.channel topic ne)
  slot := by rw [h'.slot, Slot.run_append, h.catalog, h.slot]
  replies := by rw [h'.replies, Slot.run_append, h.catalog, h.slot, h.replies, List.append_assoc]

/-- What leaves the slot alone is no event. -/
theorem of_sends {s t : Station δ} (h : Rendezvous s) (sends : Sends s t []) : Conforms s t [] :=
  (Moves.refl h).sends sends

theorem of_step {s t : Station δ} {e : Event}
    (h : Moves s t (s.slot.step s.catalog e).1 (s.slot.step s.catalog e).2) : Conforms s t [e] := by
  rw [Conforms, Slot.run_singleton]
  exact h

end Conforms

/-- A station whose slot alone has changed. -/
theorem moves_of_slotted {s t : Station δ} {slot : Slot} (h : Rendezvous s)
    (slotted : Slotted t.bus slot) (pending : t.controller.pending = slot.holder)
    (catalog : t.catalog = s.catalog) (heard : t.heard = s.heard)
    (channel : ∀ topic, topic ≠ .ioResult → t.bus.channel topic = s.bus.channel topic) :
    Moves s t slot [] := by
  have hslot : t.slot = slot := by rw [Station.slot, pending, slotted.next]
  constructor
  case rendezvous =>
    constructor
    case tm =>
      rw [listeners, Bus.listeners, channel .tm (by decide)]
      exact h.tm
    case slotted =>
      rw [hslot]
      exact slotted
  case catalog => exact catalog
  case channel => exact channel
  case slot => exact hslot
  case replies => rw [Station.replies, heard, List.append_nil, Station.replies]

/-- The slot is filled, whoever held it before. -/
theorem moves_await {s : Station δ} (h : Rendezvous s) :
    Moves s s.await ⟨some ⟨.ioResult, s.slot.next⟩, s.slot.next + 1⟩ [] := by
  have slotted := h.slotted
  cases hp : s.controller.pending with
  | none =>
    rw [slot, hp] at slotted
    rw [await, hp]
    refine moves_of_slotted h slotted.fill rfl rfl rfl ?_
    intro topic ne
    exact Bus.channel_subscribe_of_ne (Ne.symm ne) ..
  | some handle =>
    rw [slot, hp] at slotted
    rw [await, hp]
    refine moves_of_slotted h slotted.refill rfl rfl rfl ?_
    intro topic ne
    have hne : handle.topic ≠ topic := slotted.topic handle rfl ▸ Ne.symm ne
    exact (Bus.channel_cancel_of_ne hne _).trans (Bus.channel_subscribe_of_ne (Ne.symm ne) ..)

/-- The slot is emptied, and the answer is sent. -/
theorem moves_answer {s : Station δ} {handle : Handle} (h : Rendezvous s)
    (full : s.controller.pending = some handle) (r : Response) :
    Moves s (answer r s).2 ⟨none, s.slot.next⟩ [r] := by
  have slotted := h.slotted
  rw [slot, full] at slotted
  have emptied : Moves s ((s.withPending none).cancelAll [handle]) ⟨none, s.slot.next⟩ [] := by
    refine moves_of_slotted h slotted.empty rfl rfl rfl ?_
    intro topic ne
    exact Bus.channel_cancel_of_ne (slotted.topic handle rfl ▸ Ne.symm ne) _
  rw [answer, full]
  exact emptied.sends (sends_reply emptied.rendezvous r)

/-! ## One event after another -/

theorem hearIoResult_bystander {l : Listener} (h : Bystander l) (m : Message) (s : Station δ) :
    (hearIoResult m l s).1 = .ok () ∧ Sends s (hearIoResult m l s).2 [] := by
  unfold hearIoResult
  split
  · exact absurd rfl h.1
  · refine ⟨?_, sends_overhear .ioResult (by decide) _ _ s⟩
    cases l with
    | refuser reason => exact absurd rfl (h.2 reason)
    | _ => rfl

/-- An answer goes to who holds the slot, behind all others who listen for answers. -/
theorem conforms_publishIoResult {s : Station δ} (h : Rendezvous s) (r : Response) :
    Conforms s (publishIoResult (.response r) s).2 [.result r] := by
  obtain ⟨front, hfront, hsubs⟩ := h.slotted.subscribers
  obtain ⟨n, t, hdeliver, passed⟩ : ∃ n t, deliver (fun id s => s.bus.holds ⟨.ioResult, id⟩)
      (hearIoResult (.response r)) front s = (.ok n, t) ∧ Sends s t [] :=
    deliver_passes (R := fun s t => Sends s t []) .refl .keep
      (fun sub hsub u => hearIoResult_bystander (hfront sub hsub) _ u) s
  have h' : Rendezvous t := h.sends passed
  refine (Conforms.of_sends h passed).append (.of_step ?_)
  rw [publishIoResult, tell, hsubs, deliver_append_of_ok hdeliver]
  cases hp : s.slot.holder with
  | none =>
    have empty : t.slot.holder = none := by rw [passed.slot, hp]
    rw [Slot.step_dropped empty]
    exact .refl h'
  | some handle =>
    have full : t.slot.holder = some handle := by rw [passed.slot, hp]
    have hmem : ⟨handle.id, .oneShot⟩ ∈ (s.bus.channel .ioResult).subscribers := by
      rw [hsubs, hp]
      exact List.mem_append_right _ List.mem_cons_self
    have hstands : t.bus.holds ⟨.ioResult, handle.id⟩ = true := by
      rw [passed.bus]
      exact Bus.holds_of_mem hmem
    rw [Slot.step_taken full, Option.toList_some, List.map_singleton, deliver_one hstands]
    exact moves_answer h' full r

theorem sends_withInstrument (s : Station δ) (index : Nat) (i : Instrument δ) (d : δ) :
    Sends s (s.withInstrument index i d) [] := ⟨rfl, rfl, (List.append_nil _).symm⟩

/-- An instrument answers at once or not at all. -/
theorem conforms_hearIoRequest {s : Station δ} (h : Rendezvous s) (m : Message) (l : Listener) :
    Conforms s (hearIoRequest m l s).2 ((served? m l s).toList.map .result) := by
  unfold hearIoRequest
  split
  · next index r =>
    rw [serve, served?]
    cases s.services[index]? with
    | none => exact .of_sends h (.refl s)
    | some v =>
      rcases hexec : v.instrument.execute r s.devices with ⟨_ | response, i, d⟩
      · simp only [Option.bind_some, hexec]
        exact .of_sends h (sends_withInstrument s index i d)
      · simp only [Option.bind_some, hexec, ignoreCount_snd]
        have quiet := sends_withInstrument s index i d
        exact (Conforms.of_sends h quiet).append (conforms_publishIoResult (h.sends quiet) response)
  · next hother =>
    have silent : served? m l s = none := by
      unfold served?
      split
      · next index r => exact (hother index r rfl rfl).elim
      · rfl
    rw [silent]
    exact .of_sends h (sends_overhear .ioRequest (by decide) m l s)

theorem conforms_publishIoRequest {s : Station δ} (h : Rendezvous s) (m : Message) :
    Conforms s (publishIoRequest m s).2 ((answersTo m s).map .result) := by
  have all : Rendezvous s → Conforms s (publishIoRequest m s).2 ((answersTo m s).map .result) := by
    refine deliver_calls (f := fun l s => (served? m l s).toList)
      (R := fun (s : Station δ) rs t => Rendezvous s → Conforms s t (rs.map .result)) ?_ ?_ ?_ s
    · intro u hu
      exact .of_sends hu (.refl u)
    · intro u v w rs more hfirst hsecond hu
      rw [List.map_append]
      exact (hfirst hu).append (hsecond (hfirst hu).rendezvous)
    · intro sub _ u hu
      exact conforms_hearIoRequest hu m sub.listener
  exact all h

theorem dispatch_eq (r : Request) (s : Station δ) :
    dispatch r s =
      match s.catalog.entry? r with
      | some e => ignoreCount (publishIoRequest (.request (readdress r e)) s.await)
      | none => reply (s.catalog.ownAnswer r) s := by
  obtain ⟨provider, id, kind, args⟩ := r
  cases kind <;> simp only [dispatch, Catalog.entry?, Catalog.ownAnswer, accessor?] <;>
    split <;> simp_all

/-- A request fills the slot before it goes to the instruments, or is answered and leaves the slot. -/
theorem conforms_dispatch {s : Station δ} (h : Rendezvous s) (r : Request) :
    Conforms s (dispatch r s).2 (eventsOf (.request r) s) := by
  rw [dispatch_eq, eventsOf]
  cases he : s.catalog.entry? r with
  | some e =>
    have filled : Conforms s s.await [.request r] := by
      refine .of_step ?_
      rw [Slot.step_forwarded he]
      exact moves_await h
    simp only [ignoreCount_snd]
    exact filled.append (conforms_publishIoRequest filled.rendezvous _)
  | none =>
    refine .of_step ?_
    rw [Slot.step_answered he]
    exact (Moves.refl h).sends (sends_reply h _)

theorem conforms_reach {s : Station δ} (h : Rendezvous s) (e : Event) :
    Conforms s (reach e s) (eventsOf e s) := by
  cases e with
  | request r => exact conforms_dispatch h r
  | result r => exact conforms_publishIoResult h r

theorem conforms_reachAll (es : List Event) {s : Station δ} (h : Rendezvous s) :
    Conforms s (reachAll es s) (events es s) := by
  induction es generalizing s with
  | nil => exact .of_sends h (.refl s)
  | cons e rest ih =>
    have first := conforms_reach h e
    exact first.append (ih first.rendezvous)

/-! ## Without instruments in service -/

theorem answersTo_eq_nil {s : Station δ} (none : ∀ index, .instrument index ∉ s.listeners .ioRequest)
    (m : Message) : answersTo m s = [] := by
  rw [answersTo, List.flatMap_eq_nil_iff]
  rintro ⟨l, u⟩ hcall
  have hlistens : l ∈ s.listeners .ioRequest := mem_calls hcall
  cases l with
  | instrument index => exact absurd hlistens (none index)
  | _ => rfl

theorem eventsOf_eq_singleton {s : Station δ} (h : Rendezvous s)
    (none : ∀ index, .instrument index ∉ s.listeners .ioRequest) (e : Event) : eventsOf e s = [e] := by
  cases e with
  | result r => rfl
  | request r =>
    rw [eventsOf]
    split
    · rw [answersTo_eq_nil, List.map_nil]
      intro index
      rw [listeners, Bus.listeners, (moves_await h).channel .ioRequest (by decide)]
      exact none index
    · rfl

/-- Where no instrument is in service, what reaches the controller is what comes. -/
theorem events_eq_self (es : List Event) {s : Station δ} (h : Rendezvous s)
    (none : ∀ index, .instrument index ∉ s.listeners .ioRequest) : events es s = es := by
  induction es generalizing s with
  | nil => rfl
  | cons e rest ih =>
    have first := conforms_reach h e
    rw [events, eventsOf_eq_singleton h none, ih first.rendezvous, List.singleton_append]
    intro index
    rw [listeners, Bus.listeners, first.channel .ioRequest (by decide)]
    exact none index

/-! ## Stations with a slot -/

/-- Only who listens to `tm` and for answers counts, and the subscription that the controller remembers. -/
theorem Rendezvous.congr {s t : Station δ} (h : Rendezvous s)
    (tm : t.bus.channel .tm = s.bus.channel .tm)
    (ioResult : t.bus.channel .ioResult = s.bus.channel .ioResult)
    (pending : t.controller.pending = s.controller.pending) : Rendezvous t where
  tm := by rw [listeners, Bus.listeners, tm]; exact h.tm
  slotted := by rw [slot, pending, ioResult]; exact h.slotted.congr ioResult

theorem rendezvous_register {s : Station δ} (h : Rendezvous s) (batch : List CatalogEntry) :
    Rendezvous (register batch s).2 := by
  rw [register]
  split <;> exact h.congr rfl rfl rfl

theorem rendezvous_subscribe {s : Station δ} (h : Rendezvous s) {topic : Topic} (tm : topic ≠ .tm)
    (ioResult : topic ≠ .ioResult) (l : Listener) : Rendezvous (s.subscribe topic l).2 := by
  exact h.congr (Bus.channel_subscribe_of_ne tm ..) (Bus.channel_subscribe_of_ne ioResult ..) rfl

theorem rendezvous_cancelAll {handles : List Handle} {s : Station δ} (h : Rendezvous s)
    (other : ∀ x ∈ handles, x.topic ≠ .tm ∧ x.topic ≠ .ioResult) : Rendezvous (s.cancelAll handles) := by
  induction handles generalizing s with
  | nil => exact h
  | cons x rest ih =>
    obtain ⟨tm, ioResult⟩ := other x List.mem_cons_self
    have first : Rendezvous { s with bus := s.bus.cancel x } :=
      h.congr (Bus.channel_cancel_of_ne tm _) (Bus.channel_cancel_of_ne ioResult _) rfl
    exact ih first fun y hy => other y (List.mem_cons_of_mem _ hy)

theorem rendezvous_publishIoSignature {s : Station δ} (h : Rendezvous s) (m : Message) :
    Rendezvous (s.publish .ioSignature m).2 := by
  refine deliver_keeps (R := fun s t : Station δ => Rendezvous s → Rendezvous t)
    (fun _ => id) (fun hfirst hsecond => hsecond ∘ hfirst) ?_ s h
  intro sub _ u hu
  unfold hearIoSignature
  split
  · next batch _ =>
    have registered := rendezvous_register hu batch
    rcases hr : register batch u with ⟨_ | _, v⟩ <;> rw [hr] at registered <;> exact registered
  · exact hu.sends (sends_overhear .ioSignature (by decide) _ _ u)

/-- An instrument that enters service, or is refused, leaves the slot alone. -/
theorem rendezvous_addInstrument {s : Station δ} (h : Rendezvous s) (c : InstrumentConfig) :
    Rendezvous (addInstrument c s).2 := by
  have requests : Topic.ioRequest ≠ .tm ∧ Topic.ioRequest ≠ .ioResult := by decide
  have quit : Topic.quit ≠ .tm ∧ Topic.quit ≠ .ioResult := by decide
  unfold addInstrument
  split
  · exact h
  · next i _ =>
    have listening : Rendezvous ((s.subscribe .ioRequest (.instrument s.services.length)).2.subscribe
        .quit (.instrumentQuit s.services.length)).2 :=
      rendezvous_subscribe (rendezvous_subscribe h requests.1 requests.2 _) quit.1 quit.2 _
    have announced := rendezvous_publishIoSignature listening (.entries i.entries)
    dsimp only
    split
    · next heq =>
      rw [heq] at announced
      refine rendezvous_cancelAll announced (List.forall_mem_cons.mpr ⟨requests, ?_⟩)
      exact List.forall_mem_singleton.mpr quit
    · next heq =>
      rw [heq] at announced
      exact announced.congr rfl rfl rfl

theorem rendezvous_addInstruments (configs : List InstrumentConfig) {s : Station δ}
    (h : Rendezvous s) : Rendezvous (addInstruments configs s).2 := by
  induction configs generalizing s with
  | nil => exact h
  | cons c rest ih =>
    have added := rendezvous_addInstrument h c
    rw [addInstruments]
    split
    · next heq =>
      rw [heq] at added
      exact ih added
    · next heq =>
      rw [heq] at added
      exact added

/-- A station without instruments, with one observer of `tm`. -/
def attended (registry : Registry δ) (devices : δ) (now : Binary64) : Station δ :=
  ((bare registry devices now).addListener .tm .observer).start

theorem rendezvous_attended (registry : Registry δ) (devices : δ) (now : Binary64) :
    Rendezvous (attended registry devices now) where
  tm := ⟨[.lineWriter], rfl, by decide⟩
  slotted := ⟨⟨[], List.forall_mem_nil _, rfl⟩, by rintro _ ⟨⟩, List.forall_mem_nil _, rfl⟩

/-! ## The slot of the station -/

/-- For every catalog and whatever reaches the controller, in any order: the station sends what the rule
says, its slot is as the rule says, and a subscription for an answer stands if and only if the slot is
full.  With each request that is passed on, the answers that instruments in service give at once reach the
controller too; where there are none, nothing else reaches it. -/
theorem reachAll_eq_slotRun {s : Station δ} (h : Rendezvous s) (es : List Event) :
    (reachAll es s).slot = (Slot.run s.catalog s.slot (events es s)).1 ∧
    (reachAll es s).replies = s.replies ++ (Slot.run s.catalog s.slot (events es s)).2 ∧
    (reachAll es s).waiting = (Slot.run s.catalog s.slot (events es s)).1.holder.toList ∧
    ((∀ index, .instrument index ∉ s.listeners .ioRequest) → events es s = es) := by
  have conforms := conforms_reachAll es h
  refine ⟨conforms.slot, conforms.replies, ?_, events_eq_self es h⟩
  rw [conforms.rendezvous.waiting_eq, conforms.slot]

/-- A station with the supply in service, and with two entries of a lamp that never answers. -/
def supplyAndLamp : Station Bench :=
  (register [⟨"lamp", "volt", .get, (⟨[], some "float"⟩ : Signature).toJson, []⟩,
      ⟨"lamp", "current", .get, (⟨[], some "float"⟩ : Signature).toJson, []⟩]
    (addInstruments [.supply] (attended Bench.registry .supply (.finite (.zero false)))).2).2

/-- Two requests overlap, and two answers come; the supply is asked between two more requests. -/
def overlap : List Event :=
  [.request ⟨none, "lamp_volt", .get, []⟩, .request ⟨none, "lamp_current", .get, []⟩,
    .result ⟨some "lamp", "volt", .get, some (.str "12")⟩,
    .result ⟨some "lamp", "current", .get, some (.str "0.5")⟩,
    .request ⟨none, "lamp_volt", .get, []⟩, .request ⟨none, "x", .helo, []⟩,
    .request ⟨none, "psu_connect", .set, []⟩, .request ⟨none, "lamp_volt", .get, []⟩]

theorem reachAll_eq_slotRun_overlap :
    Rendezvous supplyAndLamp ∧
    (reachAll overlap supplyAndLamp).slot =
      (Slot.run supplyAndLamp.catalog supplyAndLamp.slot (events overlap supplyAndLamp)).1 ∧
    (reachAll overlap supplyAndLamp).replies = supplyAndLamp.replies ++
      (Slot.run supplyAndLamp.catalog supplyAndLamp.slot (events overlap supplyAndLamp)).2 ∧
    (reachAll overlap supplyAndLamp).waiting =
      (Slot.run supplyAndLamp.catalog supplyAndLamp.slot (events overlap supplyAndLamp)).1.holder.toList ∧
    ((∀ index, .instrument index ∉ supplyAndLamp.listeners .ioRequest) →
      events overlap supplyAndLamp = overlap) := by
  have h : Rendezvous supplyAndLamp :=
    rendezvous_register (rendezvous_addInstruments _ (rendezvous_attended ..)) _
  exact ⟨h, reachAll_eq_slotRun h overlap⟩

/-- The second answer is dropped, the supply answers for the lamp, and the last request waits. -/
example : (reachAll overlap supplyAndLamp).replies.map Response.qualifiedId =
    (["lamp_volt", "x", "psu_connect"] : List Text) ∧
    (reachAll overlap supplyAndLamp).waiting = [⟨.ioResult, 5⟩] := by decide

end Station

end GroundStation
