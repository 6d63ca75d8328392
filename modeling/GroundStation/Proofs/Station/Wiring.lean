/-
# How a station is wired

A station that is built by attaching the controller and the gateway and then putting instruments into
service has, on each topic of the path

    raw_tc → tc → io_service_request → io_result → tm → raw_tm

the listeners that the path needs and no others.  `Wired` says so, and it says what the catalog and the
instruments have to do with each other: every entry belongs to an instrument in service, and no two
instruments share a provider.  The last is no check of the station.  It holds since each instrument
announces that its link can be opened, and a catalog takes no key twice (`provider_fresh`).

What passes along the path moves the devices, the links and the one subscription that waits for an
answer.  `SameWiring` lists what it leaves alone, and that is enough to stay wired.
-/
import GroundStation.Proofs.Bus.Delivery
import GroundStation.Proofs.Catalog.Batch
import GroundStation.Proofs.Instrument.Assembly
import GroundStation.Proofs.Instrument.Make
import GroundStation.Station.Service

namespace GroundStation

namespace Station

variable {δ : Type}

/-! ## What is wired -/

/-- Who listens to a topic, in the order in which they are called. -/
def listeners (s : Station δ) (topic : Topic) : List Listener := s.bus.listeners topic

/-- The providers of the instruments in service. -/
def providers (s : Station δ) : List Text := s.services.map fun v => v.instrument.provider

/-- The wiring of a station in service that one observer of `raw_tm` looks at. -/
structure Wired (s : Station δ) : Prop where
  rawTc : s.listeners .rawTc = [.lineReader]
  tc : s.listeners .tc = [.dispatcher]
  tm : s.listeners .tm = [.lineWriter]
  rawTm : s.listeners .rawTm = [.observer]
  ioSignature : s.listeners .ioSignature = [.catalogKeeper]
  ioRequest : s.listeners .ioRequest = (List.range s.providers.length).map .instrument
  /-- No two instruments share a provider. -/
  nodup : s.providers.Nodup
  /-- Every entry of the catalog belongs to an instrument. -/
  provided : ∀ e ∈ s.catalog.entries, e.provider ∈ s.providers
  /-- Every instrument has announced that its link can be opened. -/
  announced : ∀ p ∈ s.providers, (qualify p connectName, Accessor.set) ∈ s.catalog.keys

/-- Nobody waits for the answer of an instrument. -/
structure Idle (s : Station δ) : Prop where
  pending : s.controller.pending = none
  ioResult : s.listeners .ioResult = []

/-- What the path from operators to instruments and back leaves alone. -/
structure SameWiring (s t : Station δ) : Prop where
  listeners : ∀ topic, topic ≠ .ioResult → t.listeners topic = s.listeners topic
  providers : t.providers = s.providers
  catalog : t.catalog = s.catalog
  now : t.now = s.now

namespace SameWiring

theorem refl (s : Station δ) : SameWiring s s := ⟨fun _ _ => rfl, rfl, rfl, rfl⟩

theorem trans {s t u : Station δ} (h : SameWiring s t) (h' : SameWiring t u) : SameWiring s u where
  listeners := fun topic ne => (h'.listeners topic ne).trans (h.listeners topic ne)
  providers := h'.providers.trans h.providers
  catalog := h'.catalog.trans h.catalog
  now := h'.now.trans h.now

end SameWiring

theorem Wired.transport {s t : Station δ} (wired : Wired s) (same : SameWiring s t) : Wired t where
  rawTc := by rw [same.listeners .rawTc nofun, wired.rawTc]
  tc := by rw [same.listeners .tc nofun, wired.tc]
  tm := by rw [same.listeners .tm nofun, wired.tm]
  rawTm := by rw [same.listeners .rawTm nofun, wired.rawTm]
  ioSignature := by rw [same.listeners .ioSignature nofun, wired.ioSignature]
  ioRequest := by rw [same.listeners .ioRequest nofun, same.providers, wired.ioRequest]
  nodup := by rw [same.providers]; exact wired.nodup
  provided := by rw [same.catalog, same.providers]; exact wired.provided
  announced := by rw [same.catalog, same.providers]; exact wired.announced

/-! ## A topic with one listener -/

/-- To tell the only listener of a topic is to call it. -/
theorem tell_one {s : Station δ} {topic : Topic} {listener : Listener}
    (only : s.listeners topic = [listener])
    (call : Listener → Station δ → Except StationError Unit × Station δ) :
    s.tell topic call = ((call listener s).1.map fun _ => 1, (call listener s).2) := by
  obtain ⟨sub, hsubs, rfl⟩ := List.map_eq_singleton_iff.mp only
  have hstands : s.bus.holds ⟨topic, sub.id⟩ = true := by
    refine Bus.holds_of_mem ?_
    rw [hsubs]
    exact List.mem_cons_self
  rw [tell, hsubs]
  refine deliver_one ?_
  exact hstands

/-- Where the controller alone hears of entries, they are announced if and only if they are registered. -/
theorem announcement_eq {s : Station δ} (alone : s.listeners .ioSignature = [.catalogKeeper])
    (batch : List CatalogEntry) :
    s.publish .ioSignature (.entries batch) =
      match s.catalog.register batch with
      | .ok c => (.ok 1, s.withCatalog c)
      | .error e => (.error (.config e), s) := by
  rw [publish, tell_one alone]
  dsimp only [hearIoSignature]
  rw [register]
  cases s.catalog.register batch <;> rfl

/-! ## Building a station -/

/-- A station without instruments, with one observer of `raw_tm`. -/
def observed (registry : Registry δ) (devices : δ) (now : Binary64) : Station δ :=
  ((bare registry devices now).addListener .rawTm .observer).start

theorem wired_observed (registry : Registry δ) (devices : δ) (now : Binary64) :
    Wired (observed registry devices now) where
  rawTc := rfl
  tc := rfl
  tm := rfl
  rawTm := rfl
  ioSignature := rfl
  ioRequest := rfl
  nodup := List.nodup_nil
  provided := nofun
  announced := nofun

theorem idle_observed (registry : Registry δ) (devices : δ) (now : Binary64) :
    Idle (observed registry devices now) := ⟨rfl, rfl⟩

/-- An instrument that enters service subscribes, and its entries are registered. -/
theorem addInstrument_eq_ok {c : InstrumentConfig} {s t : Station δ} (wired : Wired s)
    (h : addInstrument c s = (.ok (), t)) :
    ∃ i catalog handles,
      Instrument.assemble s.registry c = .ok i ∧
      s.catalog.register i.entries = .ok catalog ∧
      t = { s with
        bus := ((s.bus.subscribe .ioRequest (.instrument s.services.length)).2.subscribe .quit
          (.instrumentQuit s.services.length)).2
        controller := { s.controller with catalog }
        services := s.services ++ [⟨i, handles⟩] } := by
  unfold addInstrument at h
  split at h
  · cases h
  · next i hi =>
    -- the two subscriptions leave the keeper of the catalog the only one to hear of the entries
    have only : ((s.subscribe .ioRequest (.instrument s.services.length)).2.subscribe .quit
        (.instrumentQuit s.services.length)).2.listeners .ioSignature = [.catalogKeeper] := by
      show Bus.listeners _ _ = _
      rw [subscribe, subscribe, Bus.listeners_subscribe, if_neg nofun, Bus.listeners_subscribe,
        if_neg nofun]
      exact wired.ioSignature
    have hcatalog : ((s.subscribe .ioRequest (.instrument s.services.length)).2.subscribe .quit
        (.instrumentQuit s.services.length)).2.catalog = s.catalog := rfl
    dsimp only at h
    rw [announcement_eq only, hcatalog] at h
    cases hr : s.catalog.register i.entries with
    | error e =>
        rw [hr] at h
        cases h
    | ok catalog =>
        rw [hr] at h
        cases h
        exact ⟨i, catalog, _, hi, hr, rfl⟩

/-- The provider of an instrument whose entries are taken is new. -/
theorem provider_fresh {c : InstrumentConfig} {s : Station δ} {i : Instrument δ} {catalog : Catalog}
    (wired : Wired s) (assembled : Instrument.assemble s.registry c = .ok i)
    (registered : s.catalog.register i.entries = .ok catalog) : i.provider ∉ s.providers := by
  intro hmem
  obtain ⟨e, he, hkey⟩ := List.mem_map.mp (Instrument.connect_mem_keys assembled)
  have hnew : e.key ∉ s.catalog.keys :=
    Catalog.get?_eq_none_iff.mp ((Catalog.register_eq_ok_iff.mp registered).1.fresh e he)
  rw [hkey] at hnew
  exact hnew (wired.announced _ hmem)

theorem wired_addInstrument {c : InstrumentConfig} {s t : Station δ} (wired : Wired s)
    (h : addInstrument c s = (.ok (), t)) : Wired t := by
  obtain ⟨i, catalog, handles, hi, hr, rfl⟩ := addInstrument_eq_ok wired h
  obtain ⟨-, rfl⟩ := Catalog.register_eq_ok_iff.mp hr
  have fresh := provider_fresh wired hi hr
  -- only the topics of requests and of the end of service have one more listener
  have keep : ∀ topic : Topic, topic ≠ .ioRequest → topic ≠ .quit →
      ((s.bus.subscribe .ioRequest (.instrument s.services.length)).2.subscribe .quit
        (.instrumentQuit s.services.length)).2.listeners topic = s.listeners topic := by
    intro topic hreq hquit
    rw [Bus.listeners_subscribe, if_neg (Ne.symm hquit), Bus.listeners_subscribe,
      if_neg (Ne.symm hreq)]
    rfl
  constructor
  case rawTc => exact (keep .rawTc nofun nofun).trans wired.rawTc
  case tc => exact (keep .tc nofun nofun).trans wired.tc
  case tm => exact (keep .tm nofun nofun).trans wired.tm
  case rawTm => exact (keep .rawTm nofun nofun).trans wired.rawTm
  case ioSignature => exact (keep .ioSignature nofun nofun).trans wired.ioSignature
  case ioRequest =>
    show Bus.listeners _ _ = _
    rw [Bus.listeners_subscribe, if_neg nofun, Bus.listeners_subscribe, if_pos rfl]
    have hreq : s.bus.listeners .ioRequest = _ := wired.ioRequest
    rw [hreq]
    simp [providers, List.range_succ]
  case nodup =>
    show (List.map _ (s.services ++ [_])).Nodup
    rw [List.map_append, List.nodup_append]
    refine ⟨wired.nodup, List.nodup_cons.mpr ⟨List.not_mem_nil, List.nodup_nil⟩, ?_⟩
    intro p hp q hq heq
    rw [List.map_singleton, List.mem_singleton] at hq
    subst heq hq
    exact fresh hp
  case provided =>
    intro e he
    show e.provider ∈ List.map _ (s.services ++ [_])
    rw [List.map_append, List.mem_append]
    rcases List.mem_append.mp he with hold | hnew
    · exact .inl (wired.provided e hold)
    · exact .inr (List.mem_singleton.mpr (Instrument.provider_of_mem_entries hnew))
  case announced =>
    intro p hp
    show _ ∈ List.map _ (s.catalog.entries ++ i.entries)
    rw [List.map_append, List.mem_append]
    change p ∈ List.map _ (s.services ++ [_]) at hp
    rw [List.map_append, List.mem_append] at hp
    rcases hp with hold | hnew
    · exact .inl (wired.announced p hold)
    · rw [List.map_singleton, List.mem_singleton] at hnew
      subst hnew
      exact .inr (Instrument.connect_mem_keys hi)

theorem idle_addInstrument {c : InstrumentConfig} {s t : Station δ} (wired : Wired s) (idle : Idle s)
    (h : addInstrument c s = (.ok (), t)) : Idle t := by
  obtain ⟨i, catalog, handles, -, -, rfl⟩ := addInstrument_eq_ok wired h
  refine ⟨idle.pending, ?_⟩
  show Bus.listeners _ _ = _
  rw [Bus.listeners_subscribe, if_neg nofun, Bus.listeners_subscribe, if_neg nofun]
  exact idle.ioResult

/-- A station that instruments are put into service of is wired, waits for no answer, has told the
observers nothing new and has the time it had. -/
theorem addInstruments_eq_ok {t : Station δ} :
    ∀ {configs : List InstrumentConfig} {s : Station δ}, Wired s → Idle s →
      addInstruments configs s = (.ok (), t) →
      Wired t ∧ Idle t ∧ t.heard = s.heard ∧ t.now = s.now
  | [], s, wired, idle, h => by
      cases h
      exact ⟨wired, idle, rfl, rfl⟩
  | c :: rest, s, wired, idle, h => by
      rw [addInstruments] at h
      split at h
      · next u hu =>
        obtain ⟨hw, hi, hheard, hnow⟩ :=
          addInstruments_eq_ok (wired_addInstrument wired hu) (idle_addInstrument wired idle hu) h
        obtain ⟨i, catalog, handles, -, -, rfl⟩ := addInstrument_eq_ok wired hu
        exact ⟨hw, hi, hheard, hnow⟩
      · cases h

end Station

end GroundStation
