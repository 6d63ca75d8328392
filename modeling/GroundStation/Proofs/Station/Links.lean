/-
# The links of a station

Each instrument in service is settled, so it holds a link if and only if it is connected.  Where the
transports keep books, these tell of every provider as many links opened as closed, and one more for each
that an instrument holds (`Booked`).

A ledger is kept for a provider, so it can tell one link from another only where no two instruments have
one provider.  That is so until the station is shut down (`distinct_run`): a catalog takes no key twice,
each instrument announces that its link can be opened, and the controller hears of what is announced
(`Attached`).
-/
import GroundStation.Proofs.Instrument.Books
import GroundStation.Proofs.Station.Ownership

namespace GroundStation

namespace Station

variable {δ : Type}

/-! ## The controller hears of what is announced -/

/-- The handles that the server keeps. -/
def serverHandles (s : Station δ) : List Handle :=
  s.server.quit.toList ++ s.server.clients.map Client.telemetry

theorem serverHandles_acceptClient (name : Text) (s : Station δ) :
    (s.acceptClient name).serverHandles = s.serverHandles ++ [⟨.rawTm, (s.bus.channel .rawTm).nextId⟩] := by
  simp [serverHandles, acceptClient, subscribe, Bus.subscribe]

theorem serverHandles_sendTo (index : Nat) (line : Text) (s : Station δ) :
    (s.sendTo index line).serverHandles = s.serverHandles :=
  congrArg (s.server.quit.toList ++ ·) (map_modify_eq fun _ _ => rfl)

theorem serverHandles_dropClient (index : Nat) (s : Station δ) :
    (s.dropClient index).serverHandles = s.serverHandles := by
  unfold dropClient
  split
  · rfl
  · exact congrArg (s.server.quit.toList ++ ·) (map_modify_eq fun _ _ => rfl)

theorem serverHandles_stopServer (s : Station δ) :
    s.stopServer.serverHandles = s.server.clients.map Client.telemetry := by
  simp [serverHandles, stopServer]

/-- The server does not listen to what is announced. -/
theorem Lasting.serverApart :
    Lasting (fun s : Station δ => ∀ h ∈ s.serverHandles, h.topic ≠ .ioSignature) where
  change := by
    intro s t change server
    cases change with
    | opened =>
      intro h hh
      rcases List.mem_append.mp hh with hquit | hclient
      · rw [List.mem_singleton.mp hquit]
        show Topic.quit ≠ .ioSignature
        decide
      · exact server h (List.mem_append_right _ hclient)
    | accepted name =>
      intro h hh
      rw [serverHandles_acceptClient] at hh
      rcases List.mem_append.mp hh with hold | hnew
      · exact server h hold
      · rw [List.mem_singleton.mp hnew]
        show Topic.rawTm ≠ .ioSignature
        decide
    | sent index line => exact serverHandles_sendTo index line s ▸ server
    | dropped index => exact serverHandles_dropClient index s ▸ server
    | stopped =>
      intro h hh
      rw [serverHandles_stopServer] at hh
      exact server h (List.mem_append_right _ hh)
    | _ => exact server
  enter := fun _ server => server
  refuse := id

/-- The instruments do not listen to what is announced. -/
theorem Lasting.servicesApart :
    Lasting (fun s : Station δ => ∀ v ∈ s.services, ∀ h ∈ v.subscriptions, h.topic ≠ .ioSignature) where
  change := by
    intro s t change services
    cases change with
    | operated op hv =>
      intro w hw
      rcases mem_or_eq_of_mem_modify hw with hold | ⟨v, hv, rfl⟩
      · exact services w hold
      · exact services v (List.mem_of_getElem? hv)
    | left hv =>
      intro w hw
      rcases mem_or_eq_of_mem_modify hw with hold | ⟨v, -, rfl⟩
      · exact services w hold
      · exact List.forall_mem_nil _
    | dropped index =>
      unfold dropClient
      split <;> exact services
    | _ => exact services
  enter := by
    intro s _ i _ services v hv
    rw [enter_eq] at hv
    rcases List.mem_append.mp hv with hold | hnew
    · exact services v hold
    · rw [List.mem_singleton.mp hnew]
      simp
  refuse := id

/-- The controller hears of what is announced, and nobody else keeps the handle of that subscription. -/
structure Attached (s : Station δ) : Prop where
  keeper : .catalogKeeper ∈ s.listeners .ioSignature
  slotting : s.Slotting
  services : ∀ v ∈ s.services, ∀ h ∈ v.subscriptions, h.topic ≠ .ioSignature
  server : ∀ h ∈ s.serverHandles, h.topic ≠ .ioSignature

theorem Lasting.attached : Lasting (fun s : Station δ => s.Attached) where
  change := by
    intro s t change ⟨keeper, slotting, services, server⟩
    refine ⟨?_, Lasting.slotting.change change slotting, Lasting.servicesApart.change change services,
      Lasting.serverApart.change change server⟩
    cases change with
    | awaited =>
      rw [listeners_await slotting (by decide)]
      exact keeper
    | @answered _ h full =>
      refine Bus.mem_listeners_cancelAll keeper ?_
      rw [List.forall_mem_singleton, slotting h full]
      decide
    | left hv => exact Bus.mem_listeners_cancelAll keeper (services _ (List.mem_of_getElem? hv))
    | joined | opened | accepted => exact Bus.mem_listeners_subscribe keeper
    | @departed _ h outside =>
      obtain ⟨sub, hsub, hkeeper⟩ := List.mem_map.mp keeper
      refine List.mem_map.mpr ⟨sub, Bus.mem_channel_cancel.mpr ⟨hsub, ?_⟩, hkeeper⟩
      rintro rfl
      have fromOutside := outside sub hsub rfl
      rw [hkeeper] at fromOutside
      cases fromOutside
    | dropped index =>
      unfold dropClient
      split
      · exact keeper
      · next c hc =>
        refine Bus.mem_listeners_cancelAll keeper (List.forall_mem_singleton.mpr ?_)
        exact server _ (List.mem_append_right _ (List.mem_map_of_mem (List.mem_of_getElem? hc)))
    | stopped => exact Bus.mem_listeners_cancelAll keeper server
    | _ => exact keeper
  enter := fun assembled ⟨keeper, slotting, services, server⟩ =>
    ⟨Bus.mem_listeners_subscribe (Bus.mem_listeners_subscribe keeper),
      Lasting.slotting.enter assembled slotting, Lasting.servicesApart.enter assembled services, server⟩
  refuse := by
    intro s ⟨keeper, slotting, services, server⟩
    refine ⟨Bus.mem_listeners_cancelAll ?_ ?_, slotting, services, server⟩
    · exact Bus.mem_listeners_subscribe (Bus.mem_listeners_subscribe keeper)
    · simp

/-! ## No two instruments of one provider -/

/-- No two instruments have one provider, and each has announced that its link can be opened. -/
structure Distinct (s : Station δ) : Prop where
  nodup : s.providers.Nodup
  announced : ∀ p ∈ s.providers, (qualify p connectName, Accessor.set) ∈ s.catalog.keys

theorem providers_changes {hears : Topic → Prop} {s t : Station δ} (h : Changes hears s t) :
    t.providers = s.providers := by
  refine h.keeps (I := fun u => u.providers = s.providers) ?_ rfl
  intro u v change hu
  cases change with
  | operated op hv =>
    exact (sameWiring_withInstrument hv (Instrument.sameMake_act ..).provider _).providers.trans hu
  | @left _ index v hv =>
    have same : (u.services.modify index fun w => { w with subscriptions := [] }).map
        (fun w => w.instrument.provider) = u.providers := map_modify_eq fun _ _ => rfl
    exact same.trans hu
  | dropped index =>
    unfold dropClient
    split <;> exact hu
  | _ => exact hu

/-- What is known stays known. -/
theorem keys_changes {hears : Topic → Prop} {s t : Station δ} (h : Changes hears s t) :
    s.catalog.keys ⊆ t.catalog.keys := by
  refine h.keeps (I := fun u => s.catalog.keys ⊆ u.catalog.keys) ?_ (List.Subset.refl _)
  intro u v change hu
  cases change with
  | registered registered =>
    obtain ⟨-, rfl⟩ := Catalog.register_eq_ok_iff.mp registered
    refine List.Subset.trans hu ?_
    show u.catalog.keys ⊆ List.map _ (u.catalog.entries ++ _)
    rw [List.map_append]
    exact List.subset_append_left _ _
  | dropped index =>
    unfold dropClient
    split <;> exact hu
  | _ => exact hu

theorem Distinct.changes {s t : Station δ} (distinct : Distinct s) (h : Changes anywhere s t) :
    Distinct t where
  nodup := by rw [providers_changes h]; exact distinct.nodup
  announced := fun p hp => keys_changes h (distinct.announced p (providers_changes h ▸ hp))

theorem Distinct.enter {s : Station δ} {i : Instrument δ} (distinct : Distinct s)
    (fresh : i.provider ∉ s.providers)
    (known : (qualify i.provider connectName, Accessor.set) ∈ s.catalog.keys) : Distinct (s.enter i) := by
  have grown : (s.enter i).providers = s.providers ++ [i.provider] := List.map_append
  constructor
  · rw [grown, List.nodup_append']
    exact ⟨distinct.nodup, List.nodup_singleton _, List.disjoint_singleton.mpr fresh⟩
  · intro p hp
    rw [grown] at hp
    rcases List.mem_append.mp hp with hold | hnew
    · exact distinct.announced p hold
    · rw [List.mem_singleton.mp hnew]
      exact known

/-- An announcement that nobody refuses has been taken by the controller. -/
theorem registered_of_announcement {s t : Station δ} {batch : List CatalogEntry} {n : Nat}
    (keeper : .catalogKeeper ∈ s.listeners .ioSignature)
    (h : s.publish .ioSignature (.entries batch) = (.ok n, t)) :
    ∃ (u : Station δ) (c : Catalog), s.catalog.keys ⊆ u.catalog.keys ∧ u.catalog.register batch = .ok c ∧
      c.keys ⊆ t.catalog.keys := by
  obtain ⟨sub, hsub, hkeeper⟩ := List.mem_map.mp keeper
  obtain ⟨u, v, ⟨-, before⟩, hcall, -, after⟩ := deliver_called
    (R := fun a b : Station δ => Informed a b ∧ a.catalog.keys ⊆ b.catalog.keys)
    (fun a => ⟨.refl a, List.Subset.refl _⟩)
    (fun h h' => ⟨h.1.trans h'.1, List.Subset.trans h.2 h'.2⟩)
    (fun x _ a => ⟨informed_hearIoSignature _ _ a, keys_changes (changes_hearIoSignature _ _ a)⟩) hsub h
    (by
      rintro u ⟨⟨heard, catalog, rfl⟩, -⟩ -
      exact Bus.holds_of_mem hsub)
  rw [hkeeper] at hcall
  dsimp only [hearIoSignature] at hcall
  rcases register_cases batch u with ⟨c, hc, heq⟩ | ⟨e, -, heq⟩ <;> rw [heq] at hcall <;> cases hcall
  exact ⟨u, c, before, hc, after⟩

theorem Distinct.act {a : Act} {s : Station δ} (distinct : Distinct s) (attached : Attached s)
    (ne : a ≠ .shutdown) : Distinct (act a s) := by
  by_cases adds : ∃ c, a = .add c
  · obtain ⟨c, rfl⟩ := adds
    rw [Station.act]
    cases assembled : Instrument.assemble s.registry c with
    | error e =>
      rw [addInstrument, assembled]
      exact distinct
    | ok i =>
      have published := changes_publish .ioSignature (.entries i.entries) s
      rw [addInstrument_eq assembled]
      split <;> next heq =>
        rw [heq] at published
        have later := distinct.changes published
        first
          | exact ⟨later.nodup, later.announced⟩
          | obtain ⟨u, c, before, registered, after⟩ := registered_of_announcement attached.keeper heq
            obtain ⟨acceptable, rfl⟩ := Catalog.register_eq_ok_iff.mp registered
            obtain ⟨e, he, hkey⟩ := List.mem_map.mp (Instrument.connect_mem_keys assembled)
            have known := after (List.mem_map.mpr ⟨e, List.mem_append_right _ he, hkey⟩)
            refine later.enter ?_ known
            · rw [providers_changes published]
              intro hp
              refine Catalog.get?_eq_none_iff.mp (acceptable.fresh e he) (before ?_)
              rw [show (e.qualifiedId, e.accessor) = e.key from rfl, hkey]
              exact distinct.announced _ hp
  · exact distinct.changes (changes_act (fun c heq => adds ⟨c, heq⟩) ne s)

theorem Distinct.run {acts : List Act} :
    .shutdown ∉ acts → ∀ {s : Station δ}, Distinct s → Attached s → Distinct (run acts s) := by
  induction acts with
  | nil => exact fun _ _ distinct _ => distinct
  | cons a rest ih =>
    intro inService s distinct attached
    rw [List.mem_cons, not_or] at inService
    have ne : a ≠ .shutdown := Ne.symm inService.1
    exact ih inService.2 (distinct.act attached ne) (Lasting.attached.act ne attached)

/-- No two instruments have one provider, as long as the station has not been shut down. -/
theorem distinct_run {registry : Registry δ} {devices : δ} {now : Binary64}
    {early : List (Topic × Option Text)} {acts : List Act} (inService : .shutdown ∉ acts) :
    Distinct (run acts (opened registry devices now early)) := by
  obtain ⟨bus, -, -, heq⟩ := opened_eq registry devices now early
  have keeper : .catalogKeeper ∈ (bus.subscribe .ioSignature .catalogKeeper).2.listeners .ioSignature := by
    rw [Bus.listeners_subscribe, if_pos rfl]
    exact List.mem_append_right _ List.mem_cons_self
  rw [heq]
  refine Distinct.run inService ⟨List.nodup_nil, List.forall_mem_nil _⟩ ?_
  exact ⟨Bus.mem_listeners_subscribe (Bus.mem_listeners_subscribe (Bus.mem_listeners_subscribe keeper)),
    fun h full => absurd full (Option.some_ne_none h).symm, List.forall_mem_nil _, List.forall_mem_nil _⟩

/-! ## Links that are held -/

/-- Each instrument is settled. -/
def Settled (s : Station δ) : Prop := ∀ v ∈ s.services, v.instrument.Settled

theorem Lasting.settled : Lasting (fun s : Station δ => s.Settled) where
  change := by
    intro s t change settled
    cases change with
    | operated op hv =>
      intro w hw
      rcases mem_or_eq_of_mem_modify hw with hold | ⟨v, hv', rfl⟩
      · exact settled w hold
      · cases hv.symm.trans hv'
        exact (settled _ (List.mem_of_getElem? hv)).act op s.devices
    | left hv =>
      intro w hw
      rcases mem_or_eq_of_mem_modify hw with hold | ⟨v', hv', rfl⟩
      · exact settled w hold
      · exact settled v' (List.mem_of_getElem? hv')
    | dropped index =>
      unfold dropClient
      split <;> exact settled
    | _ => exact settled
  enter := by
    intro s c i assembled settled v hv
    rcases List.mem_append.mp hv with hold | hnew
    · exact settled v hold
    · rw [List.mem_singleton.mp hnew]
      exact Instrument.settled_of_assemble assembled
  refuse := id

theorem settled_run {registry : Registry δ} {devices : δ} {now : Binary64}
    {early : List (Topic × Option Text)} (acts : List Act) :
    Settled (run acts (opened registry devices now early)) := by
  refine Lasting.settled.run id acts ?_
  obtain ⟨bus, -, -, heq⟩ := opened_eq registry devices now early
  rw [heq]
  exact List.forall_mem_nil _

/-- Whether an instrument holds a link for a provider. -/
def holdsFor (p : Text) (v : Service δ) : Bool := decide (v.instrument.provider = p) && v.instrument.held

/-- How many links are held for a provider. -/
def heldFor (s : Station δ) (p : Text) : Nat := s.services.countP (holdsFor p)

/-- Where no two instruments have one provider, each alone holds links for its own. -/
theorem heldFor_pos {s : Station δ} (nodup : s.providers.Nodup) {v : Service δ} (hv : v ∈ s.services) :
    decide (0 < s.heldFor v.instrument.provider) = v.instrument.held := by
  rw [Bool.eq_iff_iff, decide_eq_true_iff, heldFor, List.countP_pos_iff]
  refine ⟨?_, fun held => ⟨v, hv, ?_⟩⟩
  · rintro ⟨w, hw, holds⟩
    obtain ⟨hprovider, held⟩ := Bool.and_eq_true_iff.mp holds
    obtain rfl := List.inj_on_of_nodup_map nodup hw hv (of_decide_eq_true hprovider)
    exact held
  · exact Bool.and_eq_true_iff.mpr ⟨decide_eq_true rfl, held⟩

section Operated

variable {s : Station δ} {index : Nat} {v : Service δ} (hv : s.services[index]? = some v)
  {i : Instrument δ} (same : i.provider = v.instrument.provider) (d : δ)
include hv same

/-- What is held for the provider of an instrument changes with what the instrument holds. -/
theorem heldFor_withInstrument :
    (s.withInstrument index i d).heldFor v.instrument.provider + v.instrument.held.toNat =
      s.heldFor v.instrument.provider + i.held.toNat := by
  have counted : (s.withInstrument index i d).heldFor v.instrument.provider +
        (holdsFor v.instrument.provider v).toNat =
      s.heldFor v.instrument.provider +
        (holdsFor v.instrument.provider { v with instrument := i }).toNat := countP_modify hv
  simpa only [holdsFor, same, decide_true, Bool.true_and] using counted

theorem heldFor_withInstrument_of_ne {p : Text} (ne : v.instrument.provider ≠ p) :
    (s.withInstrument index i d).heldFor p = s.heldFor p := by
  have counted : (s.withInstrument index i d).heldFor p + (holdsFor p v).toNat =
      s.heldFor p + (holdsFor p { v with instrument := i }).toNat := countP_modify hv
  simp only [holdsFor, same, ne, decide_false, Bool.false_and] at counted
  exact counted

end Operated

/-- The books tell of the links as they are. -/
structure Booked (books : Text → δ → Ledger) (s : Station δ) : Prop where
  registry : s.registry.KeepsBooks books
  transports : ∀ v ∈ s.services, v.instrument.transport.KeepsBooks v.instrument.config books
  settled : s.Settled
  balance : ∀ p, (books p s.devices).opens = (books p s.devices).closes + s.heldFor p
  consistent : s.providers.Nodup → ∀ p, Ledger.Consistent (decide (0 < s.heldFor p)) (books p s.devices)

namespace Booked

variable {books : Text → δ → Ledger} {s : Station δ}

/-- Books tell of the instruments and of nothing else. -/
theorem of_instruments {t : Station δ} (booked : Booked books s) (registry : t.registry = s.registry)
    (instruments : t.services.map Service.instrument = s.services.map Service.instrument)
    (devices : t.devices = s.devices) : Booked books t := by
  have each {P : Instrument δ → Prop} (h : ∀ v ∈ s.services, P v.instrument) :
      ∀ v ∈ t.services, P v.instrument := by
    intro v hv
    obtain ⟨w, hw, heq⟩ := List.mem_map.mp (instruments ▸ List.mem_map_of_mem hv)
    exact heq ▸ h w hw
  have held (p : Text) : t.heldFor p = s.heldFor p := by
    have counted := congrArg (List.countP fun i => decide (i.provider = p) && i.held) instruments
    rwa [List.countP_map, List.countP_map] at counted
  have providers : t.providers = s.providers := by
    have named := congrArg (List.map Instrument.provider) instruments
    rwa [List.map_map, List.map_map] at named
  constructor
  · exact registry ▸ booked.registry
  · exact each (P := fun i => i.transport.KeepsBooks i.config books) booked.transports
  · exact each (P := Instrument.Settled) booked.settled
  · intro p
    rw [devices, held]
    exact booked.balance p
  · intro nodup p
    rw [devices, held]
    exact booked.consistent (providers ▸ nodup) p

theorem operated (booked : Booked books s) {index : Nat} {v : Service δ} (hv : s.services[index]? = some v)
    (op : Operation) : Booked books (s.withInstrument index (v.instrument.act op s.devices).1
      (v.instrument.act op s.devices).2) := by
  have hmem := List.mem_of_getElem? hv
  have keeps := booked.transports v hmem
  have make := Instrument.sameMake_act v.instrument op s.devices
  have change : Change anywhere s _ := .operated op hv
  obtain ⟨commands, usage⟩ := Instrument.usage_act (booked.settled v hmem) op s.devices
  generalize v.instrument.act op s.devices = done at make change usage
  obtain ⟨i, d⟩ := done
  dsimp only at make change usage ⊢
  refine ⟨booked.registry, fun w hw => ?_, Lasting.settled.change change booked.settled, fun p => ?_,
    fun nodup p => ?_⟩
  · rcases mem_or_eq_of_mem_modify hw with hold | ⟨v', hv', rfl⟩
    · exact booked.transports w hold
    · cases hv.symm.trans hv'
      show i.transport.KeepsBooks i.config books
      rw [make.transport, make.config]
      exact keeps
  · show (books p d).opens = (books p d).closes + (s.withInstrument index i d).heldFor p
    have before := booked.balance p
    by_cases hp : v.instrument.provider = p
    · subst hp
      have moved := usage.balanced keeps
      have after := heldFor_withInstrument hv make.provider d
      rw [show v.instrument.config.provider = v.instrument.provider from rfl] at moved
      omega
    · rw [usage.others keeps (Ne.symm hp), heldFor_withInstrument_of_ne hv make.provider d hp]
      exact before
  · show Ledger.Consistent (decide (0 < (s.withInstrument index i d).heldFor p)) (books p d)
    have nodup' : s.providers.Nodup := providers_changes (.single change) ▸ nodup
    have before := booked.consistent nodup' p
    by_cases hp : v.instrument.provider = p
    · subst hp
      have there : { v with instrument := i } ∈ (s.withInstrument index i d).services :=
        List.mem_of_getElem? ((List.getElem?_modify_eq _ _ _).trans (congrArg (Option.map _) hv))
      have held := heldFor_pos nodup there
      rw [make.provider] at held
      rw [held]
      rw [heldFor_pos nodup' hmem] at before
      exact usage.consistent keeps before
    · rw [usage.others keeps (Ne.symm hp), heldFor_withInstrument_of_ne hv make.provider d hp]
      exact before

end Booked

theorem Lasting.booked {books : Text → δ → Ledger} : Lasting (Booked books) where
  change := by
    intro s t change booked
    cases change with
    | operated op hv => exact booked.operated hv op
    | left => exact booked.of_instruments rfl (map_modify_eq fun _ _ => rfl) rfl
    | dropped index =>
      unfold dropClient
      split
      · exact booked
      · exact booked.of_instruments rfl rfl rfl
    | _ => exact booked.of_instruments rfl rfl rfl
  enter := by
    intro s c i assembled booked
    obtain ⟨transport, parameters, resolved, -, -, heq⟩ := Instrument.assemble_eq_ok assembled
    have held : i.held = false := heq ▸ rfl
    -- what has just come holds no link
    have same (p : Text) : (s.enter i).heldFor p = s.heldFor p := by
      rw [heldFor, enter_eq]
      refine List.countP_append.trans ((congrArg (s.heldFor p + ·) ?_).trans (Nat.add_zero _))
      exact List.countP_cons_of_neg (by simp [holdsFor, held])
    refine ⟨booked.registry, fun v hv => ?_, Lasting.settled.enter assembled booked.settled, fun p => ?_,
      fun nodup p => ?_⟩
    · rcases List.mem_append.mp hv with hold | hnew
      · exact booked.transports v hold
      · rw [List.mem_singleton.mp hnew, heq]
        exact booked.registry c transport resolved
    · rw [same]
      exact booked.balance p
    · rw [same]
      have grown : (s.enter i).providers = s.providers ++ [i.provider] := List.map_append
      rw [grown] at nodup
      exact booked.consistent (List.nodup_append'.mp nodup).1 p
  refuse := fun booked => booked.of_instruments rfl rfl rfl

theorem booked_run {books : Text → δ → Ledger} {registry : Registry δ} {devices : δ} {now : Binary64}
    {early : List (Topic × Option Text)} (keeps : registry.KeepsBooks books)
    (blank : ∀ p, books p devices = .blank) (acts : List Act) :
    Booked books (run acts (opened registry devices now early)) := by
  refine Lasting.booked.run (fun booked => booked.of_instruments rfl rfl rfl) acts ?_
  obtain ⟨bus, -, -, heq⟩ := opened_eq registry devices now early
  rw [heq]
  refine ⟨keeps, List.forall_mem_nil _, List.forall_mem_nil _, fun p => ?_, fun _ p => ?_⟩
  · show (books p devices).opens = (books p devices).closes + 0
    rw [blank]
    rfl
  · show Ledger.Consistent _ (books p devices)
    rw [blank]
    exact .blank

end Station

end GroundStation
