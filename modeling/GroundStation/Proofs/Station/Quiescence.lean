/-
# A station that is shut down is quiet

To shut a station down is to announce the end of service, to stop its instruments one after another and to
detach what is left.  Nothing comes to the bus meanwhile, and what has ended does not begin again
(`Winds`): a subscription that was cancelled, an instrument that was stopped, a server that was.  So what
each part of the procedure ends has ended when the station is down.

Who listens then is read off the handles.  Every subscription of the station has one that is kept
(`Owned`), and at the end all that are kept have been cancelled, also the one that waited for an answer.
The server listens on its own account and may still do so; but then it was there when the end of service
was announced, and has stopped (`stopped_of_remaining`).
-/
import GroundStation.Proofs.Station.Links

namespace GroundStation

theorem Instrument.state_shutdown {δ : Type} (i : Instrument δ) (d : δ) :
    (i.shutdown d).1.state ≠ .connected := by
  rw [shutdown, disconnect]
  split
  · rintro ⟨⟩
  · next ne => exact ne

theorem Instrument.shutdown_of_ne {δ : Type} {i : Instrument δ} (ne : i.state ≠ .connected) (d : δ) :
    i.shutdown d = (i, d) := by
  rw [shutdown, disconnect, if_neg ne]

namespace Station

variable {δ : Type}

/-! ## Winding down -/

/-- The instrument at an index, if there is one, is off the bus and its link is closed. -/
def StoppedAt (s : Station δ) (index : Nat) : Prop :=
  ∀ v, s.services[index]? = some v → v.subscriptions = [] ∧ v.instrument.state ≠ .connected

/-- The server has let its clients go. -/
structure ServerStopped (s : Station δ) : Prop where
  quit : s.server.quit = none
  running : s.server.running = false
  clients : ∀ c ∈ s.server.clients, c.connected = false ∧ s.bus.Spent c.telemetry

/-- Nobody comes, and what has ended does not begin again. -/
structure Winds (s t : Station δ) : Prop where
  subscribers : ∀ topic, ∀ sub ∈ (t.bus.channel topic).subscribers, sub ∈ (s.bus.channel topic).subscribers
  spent : ∀ h, s.bus.Spent h → t.bus.Spent h
  controller : t.controller.subscriptions = s.controller.subscriptions
  gateway : t.gateway = s.gateway
  size : t.services.length = s.services.length
  stopped : ∀ index, s.StoppedAt index → t.StoppedAt index
  server : s.ServerStopped → t.ServerStopped

namespace Winds

theorem refl (s : Station δ) : Winds s s :=
  ⟨fun _ _ => id, fun _ => id, rfl, rfl, rfl, fun _ => id, id⟩

theorem trans {s t u : Station δ} (h : Winds s t) (h' : Winds t u) : Winds s u where
  subscribers := fun topic sub hsub => h.subscribers topic sub (h'.subscribers topic sub hsub)
  spent := fun handle spent => h'.spent handle (h.spent handle spent)
  controller := h'.controller.trans h.controller
  gateway := h'.gateway.trans h.gateway
  size := h'.size.trans h.size
  stopped := fun index stopped => h'.stopped index (h.stopped index stopped)
  server := fun stopped => h'.server (h.server stopped)

/-- To cancel subscriptions. -/
theorem cancelAll (s : Station δ) (hs : List Handle) : Winds s (s.cancelAll hs) where
  subscribers := fun _ _ hsub => (Bus.mem_channel_cancelAll.mp hsub).1
  spent := fun _ spent => spent.cancelAll hs
  controller := rfl
  gateway := rfl
  size := rfl
  stopped := fun _ => id
  server := fun stopped => ⟨stopped.quit, stopped.running, fun c hc =>
    (stopped.clients c hc).imp_right fun spent => spent.cancelAll hs⟩

/-- To do to an instrument what leaves it stopped if it is. -/
theorem modify (s : Station δ) (index : Nat) (f : Service δ → Service δ) (devices : δ)
    (idle : ∀ v, v.subscriptions = [] ∧ v.instrument.state ≠ .connected →
      (f v).subscriptions = [] ∧ (f v).instrument.state ≠ .connected) :
    Winds s { s with services := s.services.modify index f, devices } where
  subscribers := fun _ _ => id
  spent := fun _ => id
  controller := rfl
  gateway := rfl
  size := List.length_modify ..
  stopped := by
    intro j stopped w hw
    change (s.services.modify index f)[j]? = some w at hw
    rw [List.getElem?_modify] at hw
    obtain ⟨v, hv, rfl⟩ := Option.map_eq_some_iff.mp hw
    split
    · exact idle v (stopped v hv)
    · exact stopped v hv
  server := fun stopped => ⟨stopped.quit, stopped.running, stopped.clients⟩

end Winds

theorem serverStopped_stopServer (s : Station δ) : s.stopServer.ServerStopped := by
  refine ⟨rfl, rfl, fun c hc => ?_⟩
  obtain ⟨old, hold, rfl⟩ := List.mem_map.mp hc
  exact ⟨rfl, Bus.spent_cancelAll _ (List.mem_append_right _ (List.mem_map.mpr ⟨old, hold, rfl⟩))⟩

theorem winds_stopServer (s : Station δ) : Winds s s.stopServer := by
  have cancelled := Winds.cancelAll s (s.server.quit.toList ++ s.server.clients.map Client.telemetry)
  exact ⟨cancelled.subscribers, cancelled.spent, rfl, rfl, rfl, fun _ => id,
    fun _ => serverStopped_stopServer s⟩

/-- A server that has stopped stops once more without any effect. -/
theorem ServerStopped.stopServer_eq {s : Station δ} (stopped : s.ServerStopped) : s.stopServer = s := by
  have clients : s.server.clients.map (fun c => { c with connected := false }) = s.server.clients := by
    refine (List.map_congr_left fun c hc => ?_).trans (List.map_id _)
    rw [← (stopped.clients c hc).1]
    rfl
  have bus : s.bus.cancelAll (s.server.clients.map Client.telemetry) = s.bus := by
    refine Bus.cancelAll_eq_self (List.forall_mem_map.mpr fun c hc => ?_)
    exact (stopped.clients c hc).2
  rw [stopServer, stopped.quit, Option.toList_none, List.nil_append, cancelAll, bus, clients,
    ← stopped.running, ← stopped.quit]

theorem winds_shutInstrument (index : Nat) (s : Station δ) : Winds s (s.shutInstrument index) := by
  unfold shutInstrument
  split
  · exact .refl s
  · next v _ =>
    exact .modify s index _ _ fun w idle => ⟨idle.1, v.instrument.state_shutdown s.devices⟩

theorem winds_overhear (topic : Topic) (m : Message) (l : Listener) (s : Station δ) :
    Winds s (overhear topic m l s).2 := by
  cases l with
  | observer =>
    exact ⟨fun _ _ => id, fun _ => id, rfl, rfl, rfl, fun _ => id,
      fun stopped => ⟨stopped.quit, stopped.running, stopped.clients⟩⟩
  | _ => exact .refl s

theorem winds_hearQuit (m : Message) (l : Listener) (s : Station δ) : Winds s (hearQuit m l s).2 := by
  unfold hearQuit
  split
  · exact winds_shutInstrument _ s
  · exact winds_stopServer s
  · exact winds_overhear .quit m l s

theorem winds_stopInstrument (index : Nat) (s : Station δ) : Winds s (s.stopInstrument index) := by
  unfold stopInstrument
  split
  · exact .refl s
  · next v hv =>
    refine (Winds.cancelAll s v.subscriptions).trans (.trans ?_ (winds_shutInstrument index _))
    exact .modify _ index _ s.devices fun w idle => ⟨rfl, idle.2⟩

theorem stoppedAt_shutInstrument {s : Station δ} {index : Nat}
    (off : ∀ v, s.services[index]? = some v → v.subscriptions = []) :
    (s.shutInstrument index).StoppedAt index := by
  intro w hw
  unfold shutInstrument at hw
  split at hw
  · next none => cases none.symm.trans hw
  · next v hv =>
    change (s.services.modify index _)[index]? = some w at hw
    rw [List.getElem?_modify_eq, hv] at hw
    cases hw
    exact ⟨off v hv, v.instrument.state_shutdown _⟩

theorem stoppedAt_stopInstrument (index : Nat) (s : Station δ) : (s.stopInstrument index).StoppedAt index := by
  unfold stopInstrument
  split
  · next none => exact fun v hv => nomatch none.symm.trans hv
  · refine stoppedAt_shutInstrument fun w hw => ?_
    change (s.services.modify index _)[index]? = some w at hw
    rw [List.getElem?_modify_eq] at hw
    obtain ⟨v, -, rfl⟩ := Option.map_eq_some_iff.mp hw
    rfl

theorem winds_stopInstruments (count : Nat) (s : Station δ) : Winds s (s.stopInstruments count) := by
  induction count with
  | zero => exact .refl s
  | succ count ih => exact ih.trans (winds_stopInstrument count _)

theorem stoppedAt_stopInstruments {index count : Nat} (lt : index < count) (s : Station δ) :
    (s.stopInstruments count).StoppedAt index := by
  induction count with
  | zero => cases lt
  | succ count ih =>
    rcases Nat.lt_succ_iff_lt_or_eq.mp lt with lt | rfl
    · exact (winds_stopInstrument count _).stopped index (ih lt)
    · exact stoppedAt_stopInstrument index _

theorem winds_publishQuit (s : Station δ) : Winds s (s.publish .quit .quit).2 :=
  deliver_keeps .refl .trans (fun sub _ u => winds_hearQuit .quit sub.listener u) s

theorem winds_detach (s : Station δ) : Winds s s.detach := by
  have unhanded := Winds.cancelAll s (s.controller.subscriptions ++ s.controller.pending.toList)
  have detached : Winds s s.detachController :=
    ⟨unhanded.subscribers, unhanded.spent, rfl, rfl, rfl, unhanded.stopped,
      fun stopped => ⟨stopped.quit, stopped.running, (unhanded.server stopped).clients⟩⟩
  exact detached.trans (.cancelAll _ s.gateway)

/-! ## The station when it is down -/

/-- A station that has been shut down. -/
structure Down (t : Station δ) : Prop where
  instruments : ∀ index, t.StoppedAt index
  listeners : ∀ topic, ∀ l ∈ t.listeners topic, l.isOutside = true
  pending : t.controller.pending = none
  spent : ∀ h ∈ t.controller.subscriptions ++ t.gateway, t.bus.Spent h
  server : .serverQuit ∈ t.listeners .quit → t.ServerStopped

/-- Only a refuser minds the end of service. -/
theorem hearQuit_ok {l : Listener} (willing : ∀ reason, l ≠ .refuser reason) (s : Station δ) :
    (hearQuit .quit l s).1 = .ok () := by
  cases l with
  | refuser reason => exact absurd rfl (willing reason)
  | _ => rfl

theorem quit_passes {s : Station δ} (willing : ∀ reason, .refuser reason ∉ s.listeners .quit) :
    ∃ n t, s.publish .quit .quit = (.ok n, t) := by
  have each : ∀ sub ∈ (s.bus.channel .quit).subscribers, ∀ u : Station δ,
      (hearQuit .quit sub.listener u).1 = .ok () ∧ True := by
    intro sub hsub u
    refine ⟨hearQuit_ok (fun reason heq => ?_) u, trivial⟩
    exact willing reason (heq ▸ List.mem_map_of_mem hsub)
  obtain ⟨n, t, passed, -⟩ := deliver_passes (R := fun _ _ => True) (fun _ => trivial)
    (fun _ _ => trivial) each s
  exact ⟨n, t, passed⟩

/-- The server has stopped if it still listens, for then it was there when the end of service was announced. -/
theorem stopped_of_remaining {s t u : Station δ} {n : Nat} (published : s.publish .quit .quit = (.ok n, t))
    (winds : Winds t u) (remaining : .serverQuit ∈ u.listeners .quit) : u.ServerStopped := by
  obtain ⟨sub, hsub, hserver⟩ := List.mem_map.mp remaining
  have hsub' := winds.subscribers .quit sub hsub
  have before := winds_publishQuit s
  rw [published] at before
  obtain ⟨v, w, -, hcall, later⟩ := deliver_called .refl .trans (fun x _ a => winds_hearQuit .quit x.listener a)
    (before.subscribers .quit sub hsub') published fun v _ onward =>
      Bus.holds_of_mem (onward.subscribers .quit sub hsub')
  rw [hserver] at hcall
  cases hcall
  exact winds.server (later.server (serverStopped_stopServer v))

theorem down_shutdown {s : Station δ} (owned : Owned s)
    (willing : ∀ reason, .refuser reason ∉ s.listeners .quit) :
    ∃ left, s.shutdown = (.ok (), left.detach) ∧ Changes anywhere s left ∧ Winds s left.detach ∧
      Down left.detach := by
  obtain ⟨n, told, published⟩ := quit_passes willing
  have winds := winds_publishQuit s
  rw [published] at winds
  obtain ⟨left, hleft⟩ : ∃ left, told.stopInstruments told.services.length = left := ⟨_, rfl⟩
  have stopping : Winds told left := hleft ▸ winds_stopInstruments _ told
  have detaching := winds_detach left
  have stopped : ∀ index, left.StoppedAt index := by
    intro index v hv
    have lt : index < told.services.length := stopping.size ▸ (List.getElem?_eq_some_iff.mp hv).1
    exact stoppedAt_stopInstruments lt told v (hleft ▸ hv)
  -- what is still kept then is kept by the controller and the gateway
  have kept : ∀ h ∈ left.handles, h ∈ left.gateway ∨
      h ∈ left.controller.subscriptions ++ left.controller.pending.toList := by
    intro h hh
    rcases List.mem_append.mp hh with hh | hservice
    · exact (List.mem_append.mp hh).symm
    · obtain ⟨v, hv, hmem⟩ := List.mem_flatMap.mp hservice
      obtain ⟨index, hindex⟩ := List.mem_iff_getElem?.mp hv
      rw [(stopped index v hindex).1] at hmem
      cases hmem
  have changes : Changes anywhere s left := by
    have telling := changes_publish .quit .quit s
    rw [published] at telling
    exact hleft ▸ telling.trans (changes_stopInstruments _ _)
  have ownedLeft : Owned left := Lasting.owned.changes changes owned
  refine ⟨left, by rw [shutdown_eq, published, ← hleft], changes, (winds.trans stopping).trans detaching, ?_⟩
  constructor
  · exact fun index => detaching.stopped index (stopped index)
  · intro topic l hl
    obtain ⟨sub, hsub, rfl⟩ := List.mem_map.mp hl
    refine (Bool.eq_false_or_eq_true _).resolve_right fun own => ?_
    have mem := kept _ (ownedLeft topic sub (detaching.subscribers topic sub hsub) own)
    obtain ⟨hsub, notGateway⟩ := Bus.mem_channel_cancelAll.mp hsub
    obtain ⟨-, notController⟩ := Bus.mem_channel_cancelAll.mp hsub
    exact mem.elim notGateway notController
  · rfl
  · intro h hh
    rcases List.mem_append.mp hh with hcontroller | hgateway
    · exact (Bus.spent_cancelAll h (List.mem_append_left _ hcontroller)).cancelAll _
    · exact Bus.spent_cancelAll h hgateway
  · exact stopped_of_remaining published (stopping.trans detaching)

/-! ## What only observers notice -/

/-- The station when its observers have heard a message, each time once more. -/
def overheard (topic : Topic) (m : Message) (times : Nat) (s : Station δ) : Station δ :=
  { s with heard := List.replicate times (topic, m) ++ s.heard }

theorem overheard_overheard (topic : Topic) (m : Message) (j k : Nat) (s : Station δ) :
    (s.overheard topic m j).overheard topic m k = s.overheard topic m (k + j) := by
  rw [overheard, overheard, overheard, ← List.append_assoc, List.replicate_append_replicate]

theorem exists_overheard (topic : Topic) (m : Message) (l : Listener) (s : Station δ) :
    ∃ times, (overhear topic m l s).2 = s.overheard topic m times := by
  cases l with
  | observer => exact ⟨1, rfl⟩
  | _ => exact ⟨0, rfl⟩

/-- Where no part of the station reads what operators send, only observers notice it. -/
theorem publishRawTc_of_outside {s : Station δ} (outside : ∀ l ∈ s.listeners .rawTc, l.isOutside = true)
    (m : Message) : ∃ times, (publishRawTc m s).2 = s.overheard .rawTc m times := by
  refine deliver_keeps (R := fun u v : Station δ => ∃ times, v = u.overheard .rawTc m times)
    (fun _ => ⟨0, rfl⟩) ?_ (fun sub hsub u => ?_) s
  · rintro u _ _ ⟨j, rfl⟩ ⟨k, rfl⟩
    exact ⟨k + j, overheard_overheard ..⟩
  · have own := outside _ (List.mem_map_of_mem hsub)
    have passes : hearRawTc m sub.listener u = overhear .rawTc m sub.listener u := by
      unfold hearRawTc
      split
      · next reader =>
        rw [reader] at own
        cases own
      · rfl
    rw [passes]
    exact exists_overheard ..

/-- Once no part of the station reads what operators send, none does again. -/
theorem Lasting.outside_rawTc :
    Lasting (fun s : Station δ => ∀ l ∈ s.listeners .rawTc, l.isOutside = true) where
  change := by
    intro s t change outside
    cases change with
    | awaited => exact Bus.forall_listeners_cancelAll (Bus.forall_listeners_subscribe outside (by nofun)) _
    | answered | departed | left | stopped => exact Bus.forall_listeners_cancelAll outside _
    | joined _ _ new => exact Bus.forall_listeners_subscribe outside fun _ => new
    | opened | accepted => exact Bus.forall_listeners_subscribe outside fun _ => rfl
    | dropped index =>
      unfold dropClient
      split
      · exact outside
      · exact Bus.forall_listeners_cancelAll outside _
    | _ => exact outside
  enter := fun _ outside =>
    Bus.forall_listeners_subscribe (Bus.forall_listeners_subscribe outside (by nofun)) (by nofun)
  refuse := fun outside => Bus.forall_listeners_cancelAll
    (Bus.forall_listeners_subscribe (Bus.forall_listeners_subscribe outside (by nofun)) (by nofun)) _

/-! ## Once more -/

theorem stopInstrument_eq_self {s : Station δ} {index : Nat} (stopped : s.StoppedAt index) :
    s.stopInstrument index = s := by
  unfold stopInstrument
  split
  · rfl
  · next v hv =>
    obtain ⟨off, ne⟩ := stopped v hv
    have services : s.services.modify index (fun w => { w with subscriptions := [] }) = s.services := by
      refine modify_eq_self fun w hw => ?_
      obtain rfl := Option.some.inj (hv.symm.trans hw)
      rw [← off]
    have left : ({ s.cancelAll v.subscriptions with
        services := s.services.modify index fun w => { w with subscriptions := [] } } : Station δ) = s := by
      rw [off, services]
      rfl
    refine (congrArg (shutInstrument index) left).trans ?_
    rw [shutInstrument, hv]
    dsimp only
    rw [Instrument.shutdown_of_ne ne]
    exact withInstrument_self hv

theorem stopInstruments_eq_self {s : Station δ} (stopped : ∀ index, s.StoppedAt index) (count : Nat) :
    s.stopInstruments count = s := by
  induction count with
  | zero => rfl
  | succ count ih => rw [stopInstruments, ih, stopInstrument_eq_self (stopped count)]

namespace Down

variable {t : Station δ}

theorem overheard (down : Down t) (topic : Topic) (m : Message) (times : Nat) :
    Down (t.overheard topic m times) :=
  ⟨down.instruments, down.listeners, down.pending, down.spent, fun remaining =>
    ⟨(down.server remaining).quit, (down.server remaining).running, (down.server remaining).clients⟩⟩

theorem detach_eq (down : Down t) : t.detach = t := by
  have controller : t.bus.cancelAll t.controller.subscriptions = t.bus :=
    Bus.cancelAll_eq_self fun h hh => down.spent h (List.mem_append_left _ hh)
  have gateway : t.bus.cancelAll t.gateway = t.bus :=
    Bus.cancelAll_eq_self fun h hh => down.spent h (List.mem_append_right _ hh)
  have pending : t.withPending none = t := by rw [withPending, ← down.pending]
  rw [detach, detachController, down.pending, Option.toList_none, List.append_nil, cancelAll, controller,
    pending, detachGateway, cancelAll, gateway]

theorem publishQuit (down : Down t) : ∃ times, (t.publish .quit .quit).2 = t.overheard .quit .quit times := by
  refine deliver_keeps (R := fun u v : Station δ => (∃ times, u = t.overheard .quit .quit times) →
    ∃ times, v = t.overheard .quit .quit times) (fun _ => id) (fun h h' => h' ∘ h) ?_ t ⟨0, rfl⟩
  rintro sub hsub _ ⟨times, rfl⟩
  have hmem : sub.listener ∈ t.listeners .quit := List.mem_map_of_mem hsub
  have outside := down.listeners .quit _ hmem
  cases hl : sub.listener with
  | observer => exact ⟨times + 1, rfl⟩
  | refuser | client => exact ⟨times, rfl⟩
  | serverQuit =>
    have again := (down.overheard .quit .quit times).server (hl ▸ hmem)
    exact ⟨times, again.stopServer_eq⟩
  | _ =>
    rw [hl] at outside
    cases outside

/-- To shut down once more changes nothing. -/
theorem shutdown_eq (down : Down t) (willing : ∀ reason, .refuser reason ∉ t.listeners .quit) :
    ∃ times, t.shutdown = (.ok (), t.overheard .quit .quit times) := by
  obtain ⟨n, told, published⟩ := quit_passes willing
  obtain ⟨times, heq⟩ := down.publishQuit
  rw [published] at heq
  dsimp only at heq
  subst heq
  have again := down.overheard .quit .quit times
  refine ⟨times, ?_⟩
  rw [Station.shutdown_eq, published]
  dsimp only
  rw [stopInstruments_eq_self again.instruments, again.detach_eq]

end Down

/-! ## Shutdown -/

/-- No instrument has a link, nobody listens but those outside, and no answer is waited for. -/
structure Quiescent (t : Station δ) : Prop where
  links : ∀ v ∈ t.services, v.instrument.state ≠ .connected ∧ v.instrument.held = false
  listeners : ∀ topic, ∀ l ∈ t.listeners topic, l.isOutside = true
  pending : t.controller.pending = none

theorem Down.quiescent {t : Station δ} (down : Down t) (settled : t.Settled) : Quiescent t where
  links := by
    intro v hv
    obtain ⟨index, hindex⟩ := List.mem_iff_getElem?.mp hv
    have ne := (down.instruments index v hindex).2
    exact ⟨ne, Bool.eq_false_iff.mpr fun held => ne ((settled v hv).held.mp held)⟩
  listeners := down.listeners
  pending := down.pending

/-- In books no link is left open. -/
theorem Quiescent.heldFor {t : Station δ} (quiescent : Quiescent t) (p : Text) : t.heldFor p = 0 := by
  refine List.countP_eq_zero.mpr fun v hv => ?_
  rw [holdsFor, (quiescent.links v hv).2, Bool.and_false]
  exact Bool.false_ne_true

/-- Every station that can be reached can be shut down where nobody refuses to hear of it.  Then no
instrument is connected or holds a link and no part of the station listens to anything.  Whatever books are
kept, for every provider as many links have been closed as opened; and each that was opened has been closed
once, where no two instruments have one provider, as it always is until a station is shut down.  What is
sent by operators later, whatever is done in between, only observers of it notice, and so it is when the
station is shut down once more. -/
theorem shutdown_quiesces {registry : Registry δ} {devices : δ} {now : Binary64}
    {early : List (Topic × Option Text)} {acts : List Act} {s : Station δ}
    (reached : run acts (opened registry devices now early) = s)
    (willing : ∀ reason, .refuser reason ∉ s.listeners .quit) :
    ∃ t, s.shutdown = (.ok (), t) ∧ Quiescent t ∧
      (∀ books : Text → δ → Ledger, registry.KeepsBooks books → (∀ p, books p devices = .blank) →
        ∀ p, (books p t.devices).opens = (books p t.devices).closes ∧
          (s.providers.Nodup → ∀ n, .opened n ∈ (books p t.devices).events →
            (books p t.devices).events.count (.opened n) = 1 ∧
            (books p t.devices).events.count (.closed n) = 1)) ∧
      (.shutdown ∉ acts → s.providers.Nodup) ∧
      (∀ later m, ∃ times, ((run later t).publish .rawTc m).2 = (run later t).overheard .rawTc m times) ∧
      ∃ times, t.shutdown = (.ok (), t.overheard .quit .quit times) := by
  subst reached
  obtain ⟨left, hshutdown, changes, winds, down⟩ := down_shutdown (owned_run acts) willing
  have settled : left.Settled := Lasting.settled.changes changes (settled_run acts)
  have quiescent := down.quiescent settled
  refine ⟨left.detach, hshutdown, quiescent, fun books keeps blank p => ?_, ?_, fun later m => ?_, ?_⟩
  · have booked : Booked books left.detach :=
      (Lasting.booked.changes changes (booked_run keeps blank acts)).of_instruments rfl rfl rfl
    have none := quiescent.heldFor p
    refine ⟨(booked.balance p).trans (by rw [none, Nat.add_zero]), fun nodup n hn => ?_⟩
    have consistent := booked.consistent ((providers_changes changes).symm ▸ nodup) p
    rw [none] at consistent
    exact Ledger.Consistent.closed_of_opened consistent hn
  · exact fun inService => (distinct_run inService).nodup
  · refine publishRawTc_of_outside ?_ m
    exact Lasting.outside_rawTc.run (fun outside => Bus.forall_listeners_cancelAll
      (Bus.forall_listeners_cancelAll outside _) _) later (down.listeners .rawTc)
  · refine down.shutdown_eq fun reason remains => ?_
    obtain ⟨sub, hsub, hrefuser⟩ := List.mem_map.mp remains
    exact willing reason (hrefuser ▸ List.mem_map_of_mem (winds.subscribers .quit sub hsub))

/-- The supply is opened at the second attempt, and the answer of a pump that nobody serves is waited for. -/
def supplyActs : List Act :=
  [.add .supply, .execute 0 ⟨some "psu", connectName, .set, []⟩,
    .execute 0 ⟨some "psu", connectName, .set, []⟩,
    .register [⟨"cooling", "pump", .get, Signature.empty.toJson, "pump"⟩],
    .dispatch ⟨some "cooling", "pump", .get, []⟩]

/-- A station with the supply, which is connected, and with books. -/
def supplyConnected : Station (Bench × (Text → Ledger)) :=
  run supplyActs (opened Bench.registry.booked (.supply, fun _ => .blank) .nan [(.quit, none)])

theorem shutdown_quiesces_supply :
    ∃ t, supplyConnected.services.map (fun v => v.instrument.state) = [.connected] ∧
      supplyConnected.controller.pending.isSome = true ∧
      (∀ reason, .refuser reason ∉ supplyConnected.listeners .quit) ∧
      supplyConnected.shutdown = (.ok (), t) ∧ Quiescent t ∧
      (t.devices.2 "psu").events.count (.closed 1) = 1 := by
  have willing : ∀ reason, .refuser reason ∉ supplyConnected.listeners .quit := by
    have quit : supplyConnected.listeners .quit = [.observer, .instrumentQuit 0] := by decide
    rw [quit]
    exact fun reason => nofun
  obtain ⟨t, hshutdown, quiescent, books, inService, -⟩ :=
    shutdown_quiesces (s := supplyConnected) rfl willing
  refine ⟨t, by decide, by decide, willing, hshutdown, quiescent, ?_⟩
  have once := (books (fun p d => d.2 p) (Registry.keepsBooks_booked _) (fun _ => rfl) "psu").2
    (inService (by simp [supplyActs])) 1
  refine (once ?_).2
  have entered : .opened 1 ∈ (supplyConnected.shutdown.2.devices.2 "psu").events := by decide
  rwa [hshutdown] at entered

end Station

end GroundStation
