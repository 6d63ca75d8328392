/-
# The stations that can be reached

A station begins without instruments, on a bus that others may listen to already.  Then anything may be
done with it, from inside and from outside, in any order and as often as one likes (`Act`, `run`): also to
shut it down and to go on after that.

What holds of all stations that can be reached is shown by `run_keeps`.  Three acts are not a sequence of
changes, so beside the changes there are three cases: an instrument enters service, it is refused, and the
station is detached.  The first two are told apart only by an announcement which comes in the middle, when
the instrument listens already and is not yet in service.  To an announcement it does not matter who
listens to other topics, so it may as well come first (`addInstrument_eq`), and no property need be stated
of the station half way.
-/
import GroundStation.Proofs.Bus.Standing
import GroundStation.Proofs.Catalog.Registration
import GroundStation.Proofs.Station.Change

namespace GroundStation

namespace Station

variable {δ : Type}

/-! ## Acts -/

/-- A listener from outside: one that records, or one that refuses for a reason. -/
def outsider : Option Text → Listener
  | none => .observer
  | some reason => .refuser reason

/-- A station without instruments, on a bus with listeners from outside. -/
def opened (registry : Registry δ) (devices : δ) (now : Binary64) (early : List (Topic × Option Text)) :
    Station δ :=
  (early.foldl (fun s l => s.addListener l.1 (outsider l.2)) (bare registry devices now)).start

/-- What may be done with a station. -/
inductive Act where
  /-- Somebody outside begins to listen. -/
  | listen (topic : Topic) (refusal : Option Text)
  /-- Somebody outside ends to listen. -/
  | leave (handle : Handle)
  | publish (topic : Topic) (m : Message)
  | dispatch (r : Request)
  | register (batch : List CatalogEntry)
  | add (c : InstrumentConfig)
  | execute (index : Nat) (r : Request)
  | acquire (index : Nat)
  | stop (index : Nat)
  | openServer
  | accept (name : Text)
  | input (index : Nat) (bytes : Bytes)
  | drop (index : Nat)
  | shutdown

/-- Does something with a station. -/
def act : Act → Station δ → Station δ
  | .listen topic refusal, s => s.addListener topic (outsider refusal)
  | .leave h, s => if s.FromOutside h then s.cancelAll [h] else s
  | .publish topic m, s => (publish topic m s).2
  | .dispatch r, s => (dispatch r s).2
  | .register batch, s => (register batch s).2
  | .add c, s => (addInstrument c s).2
  | .execute index r, s => (executeOn index r s).2
  | .acquire index, s => s.acquire index
  | .stop index, s => s.stopInstrument index
  | .openServer, s => s.openServer
  | .accept name, s => s.acceptClient name
  | .input index bytes, s => s.takeInput index bytes
  | .drop index, s => s.dropClient index
  | .shutdown, s => s.shutdown.2

/-- Does one thing after another with a station. -/
def run : List Act → Station δ → Station δ
  | [], s => s
  | a :: rest, s => run rest (act a s)

/-! ## Entering service -/

/-- The station with one more instrument in service, whose entries are known. -/
def enter (i : Instrument δ) (s : Station δ) : Station δ :=
  let index := s.services.length
  let (requests, s) := s.subscribe .ioRequest (.instrument index)
  let (quit, s) := s.subscribe .quit (.instrumentQuit index)
  { s with services := s.services ++ [⟨i, [requests, quit]⟩] }

/-- What an instrument holds that has entered service. -/
theorem enter_eq (s : Station δ) (i : Instrument δ) :
    s.enter i = { s with
      bus := (s.enter i).bus
      services := s.services ++ [⟨i, [⟨.ioRequest, (s.bus.channel .ioRequest).nextId⟩,
        ⟨.quit, (s.bus.channel .quit).nextId⟩]⟩] } := by
  have hquit : (s.bus.subscribe .ioRequest (.instrument s.services.length)).2.channel .quit =
      s.bus.channel .quit := Bus.channel_subscribe_of_ne (by decide) _ _
  rw [← hquit]
  rfl

/-- The station after an instrument has come and gone. -/
def refuse (s : Station δ) : Station δ :=
  let index := s.services.length
  let (requests, s) := s.subscribe .ioRequest (.instrument index)
  let (quit, s) := s.subscribe .quit (.instrumentQuit index)
  s.cancelAll [requests, quit]

/-- Of the parts of a station, what announcements change are the catalog and what observers have heard. -/
def Informed (s t : Station δ) : Prop :=
  ∃ heard catalog, t = { s with heard, controller := { s.controller with catalog } }

namespace Informed

theorem refl (s : Station δ) : Informed s s := ⟨s.heard, s.controller.catalog, rfl⟩

theorem trans {s t u : Station δ} : Informed s t → Informed t u → Informed s u := by
  rintro ⟨_, _, rfl⟩ ⟨heard, catalog, rfl⟩
  exact ⟨heard, catalog, rfl⟩

end Informed

theorem informed_hearIoSignature (m : Message) (l : Listener) (s : Station δ) :
    Informed s (hearIoSignature m l s).2 := by
  unfold hearIoSignature
  split
  · next batch =>
    rcases register_cases batch s with ⟨c, -, heq⟩ | ⟨e, -, heq⟩
    · rw [heq]
      exact ⟨s.heard, c, rfl⟩
    · rw [heq]
      exact .refl s
  · cases l with
    | observer => exact ⟨_, s.controller.catalog, rfl⟩
    | _ => exact .refl s

theorem informed_announcement (m : Message) (s : Station δ) :
    Informed s (s.publish .ioSignature m).2 :=
  deliver_keeps .refl .trans (fun sub _ u => informed_hearIoSignature m sub.listener u) s

/-- To an announcement it does not matter who listens to other topics. -/
theorem announcement_withBus {s : Station δ} {bus : Bus Listener}
    (same : bus.channel .ioSignature = s.bus.channel .ioSignature) (m : Message) :
    ({ s with bus } : Station δ).publish .ioSignature m =
      ((s.publish .ioSignature m).1, { (s.publish .ioSignature m).2 with bus }) := by
  rw [publish, tell, same]
  refine deliver_map (f := fun u : Station δ => { u with bus }) (I := fun u => u.bus = s.bus) ?_ ?_ ?_ _ rfl
  · intro id u hu
    rw [Bus.holds, Bus.holds, same, hu]
  · intro l u hu
    obtain ⟨heard, catalog, heq⟩ := informed_hearIoSignature m l u
    rw [heq]
    exact hu
  · intro l u _
    unfold hearIoSignature
    split
    · next batch =>
      have hregister : register batch { u with bus } =
          ((register batch u).1, { (register batch u).2 with bus }) := by
        have hcatalog : ({ u with bus } : Station δ).catalog = u.catalog := rfl
        rw [register, register, hcatalog]
        cases u.catalog.register batch <;> rfl
      rw [hregister]
      rcases register batch u with ⟨_ | _, v⟩ <;> rfl
    · cases l <;> rfl

/-- An instrument enters service after its entries have been announced, or is refused. -/
theorem addInstrument_eq {c : InstrumentConfig} {s : Station δ} {i : Instrument δ}
    (assembled : Instrument.assemble s.registry c = .ok i) :
    addInstrument c s =
      match s.publish .ioSignature (.entries i.entries) with
      | (.error e, t) => (.error e, t.refuse)
      | (.ok _, t) => (.ok (), t.enter i) := by
  obtain ⟨heard, catalog, informed⟩ := informed_announcement (.entries i.entries) s
  -- the two topics that the instrument listens to are not the topic of announcements
  have same : ((s.bus.subscribe .ioRequest (.instrument s.services.length)).2.subscribe .quit
      (.instrumentQuit s.services.length)).2.channel .ioSignature = s.bus.channel .ioSignature :=
    (Bus.channel_subscribe_of_ne (by decide) _ _).trans (Bus.channel_subscribe_of_ne (by decide) _ _)
  rw [addInstrument, assembled]
  simp only [subscribe]
  rw [announcement_withBus same]
  rcases heq : s.publish .ioSignature (.entries i.entries) with ⟨e | n, t⟩ <;>
    · rw [heq] at informed
      subst informed
      rfl

/-! ## Keeping a property -/

/-- The station detached, after its instruments have left. -/
def detach (s : Station δ) : Station δ := s.detachController.detachGateway

theorem shutdown_eq (s : Station δ) :
    s.shutdown =
      match s.publish .quit .quit with
      | (.error e, t) => (.error e, t)
      | (.ok _, t) => (.ok (), (t.stopInstruments t.services.length).detach) := rfl

theorem registry_changes {hears : Topic → Prop} {s t : Station δ} (h : Changes hears s t) :
    t.registry = s.registry := by
  refine h.keeps (I := fun u => u.registry = s.registry) ?_ rfl
  intro u v change hu
  cases change with
  | dropped index =>
    unfold dropClient
    split <;> exact hu
  | _ => exact hu

/-- Every act is a sequence of changes, but to put an instrument into service and to end service. -/
theorem changes_act {a : Act} (add : ∀ c, a ≠ .add c) (shutdown : a ≠ .shutdown) (s : Station δ) :
    Changes anywhere s (act a s) := by
  cases a with
  | add c => exact absurd rfl (add c)
  | shutdown => exact absurd rfl shutdown
  | listen topic refusal =>
    refine .single (.joined topic s ?_)
    cases refusal <;> rfl
  | leave handle =>
    rw [act]
    split
    · next outside => exact .single (.departed outside)
    · exact .refl
  | publish topic m => exact changes_publish topic m s
  | dispatch r => exact changes_dispatch r s
  | register batch => exact changes_register batch s
  | execute index r => exact changes_executeOn index r s
  | acquire index => exact changes_acquire index s
  | stop index => exact changes_stopInstrument index s
  | openServer => exact .single (.opened s)
  | accept name => exact .single (.accepted name s)
  | input index bytes =>
    rw [act, takeInput]
    split
    · exact changes_takePieces _ s
    · exact .refl
  | drop index => exact .single (.dropped index s)

/-- The properties of stations that are kept whatever is done, but for the end of service. -/
structure Lasting (I : Station δ → Prop) : Prop where
  change : ∀ {s t : Station δ}, Change anywhere s t → I s → I t
  enter : ∀ {s : Station δ} {c : InstrumentConfig} {i : Instrument δ},
    Instrument.assemble s.registry c = .ok i → I s → I (s.enter i)
  refuse : ∀ {s : Station δ}, I s → I s.refuse

namespace Lasting

variable {I : Station δ → Prop} (lasting : Lasting I)
include lasting

theorem changes {s t : Station δ} (h : Changes anywhere s t) : I s → I t := h.keeps lasting.change

/-- What is kept by everything in service is kept by each act but the end of service. -/
theorem act {a : Act} (ne : a ≠ .shutdown) {s : Station δ} (h : I s) : I (act a s) := by
  by_cases adds : ∃ c, a = .add c
  · obtain ⟨c, rfl⟩ := adds
    rw [Station.act]
    cases assembled : Instrument.assemble s.registry c with
    | error e =>
      rw [addInstrument, assembled]
      exact h
    | ok i =>
      have published := changes_publish .ioSignature (.entries i.entries) s
      have hregistry := registry_changes published
      have ht := lasting.changes published h
      rw [addInstrument_eq assembled]
      split <;> next heq =>
        rw [heq] at ht hregistry
        first
          | exact lasting.refuse ht
          | exact lasting.enter (hregistry ▸ assembled) ht
  · exact lasting.changes (changes_act (fun c heq => adds ⟨c, heq⟩) ne s) h

/-- Of any station, where the property survives that the station is detached. -/
theorem run (detach : ∀ {s : Station δ}, I s → I s.detach) (acts : List Act) :
    ∀ {s : Station δ}, I s → I (run acts s) := by
  induction acts with
  | nil => exact id
  | cons a rest ih =>
    intro s h
    refine ih ?_
    by_cases ha : a = .shutdown
    · subst ha
      rw [Station.act, shutdown_eq]
      have ht := lasting.changes (changes_publish .quit .quit s) h
      split <;> next heq => rw [heq] at ht; first
        | exact ht
        | exact detach (lasting.changes (changes_stopInstruments _ _) ht)
    · exact lasting.act ha h

end Lasting

/-! ## What holds of every station that can be reached -/

theorem Lasting.fresh : Lasting (fun s : Station δ => s.bus.Fresh) where
  change := by
    intro s t change h
    cases change with
    | awaited => exact (h.subscribe _ _).cancelAll _
    | answered | departed => exact h.cancelAll _
    | left | stopped => exact h.cancelAll _
    | joined | opened | accepted => exact h.subscribe _ _
    | dropped index =>
      unfold dropClient
      split
      · exact h
      · exact h.cancelAll _
    | _ => exact h
  enter := fun _ h => (h.subscribe _ _).subscribe _ _
  refuse := fun h => ((h.subscribe _ _).subscribe _ _).cancelAll _

theorem fresh_detach {s : Station δ} (h : s.bus.Fresh) : s.detach.bus.Fresh :=
  (h.cancelAll _).cancelAll _

theorem Lasting.unique : Lasting (fun s : Station δ => s.catalog.keys.Nodup) where
  change := by
    intro s t change h
    cases change with
    | registered registered => exact Catalog.nodup_keys_of_register h registered
    | dropped index =>
      unfold dropClient
      split <;> exact h
    | _ => exact h
  enter := fun _ h => h
  refuse := fun h => h

/-- The slot for an answer is on the topic of answers. -/
def Slotting (s : Station δ) : Prop := ∀ h, s.controller.pending = some h → h.topic = .ioResult

theorem Lasting.slotting : Lasting (fun s : Station δ => s.Slotting) where
  change := by
    intro s t change h
    cases change with
    | awaited =>
      rintro handle ⟨⟩
      rfl
    | answered => nofun
    | dropped index =>
      unfold dropClient
      split <;> exact h
    | _ => exact h
  enter := fun _ h => h
  refuse := fun h => h

/-- Who waits for an answer listens to no other topic. -/
theorem listeners_await {s : Station δ} (slotting : s.Slotting) {topic : Topic} (ne : .ioResult ≠ topic) :
    s.await.listeners topic = s.listeners topic := by
  have subscribed : (s.bus.subscribe .ioResult .oneShot).2.listeners topic = s.bus.listeners topic := by
    rw [Bus.listeners_subscribe, if_neg ne]
  rw [listeners, await]
  cases hp : s.controller.pending with
  | none => exact subscribed
  | some handle =>
    have htopic : handle.topic ≠ topic := slotting handle hp ▸ ne
    exact (Bus.listeners_cancel htopic).trans subscribed

/-- A station is opened on a bus that only outsiders listen to. -/
theorem opened_eq (registry : Registry δ) (devices : δ) (now : Binary64)
    (early : List (Topic × Option Text)) :
    ∃ bus : Bus Listener, bus.Fresh ∧ (∀ topic, ∀ l ∈ bus.listeners topic, l.isOutside = true) ∧
      opened registry devices now early = start { bare registry devices now with bus } := by
  have all : ∀ (early : List (Topic × Option Text)) (bus : Bus Listener), bus.Fresh →
      (∀ topic, ∀ l ∈ bus.listeners topic, l.isOutside = true) →
      ∃ bus' : Bus Listener, bus'.Fresh ∧ (∀ topic, ∀ l ∈ bus'.listeners topic, l.isOutside = true) ∧
        early.foldl (fun s l => s.addListener l.1 (outsider l.2)) { bare registry devices now with bus } =
          { bare registry devices now with bus := bus' } := by
    intro early
    induction early with
    | nil => exact fun bus fresh outside => ⟨bus, fresh, outside, rfl⟩
    | cons first rest ih =>
      intro bus fresh outside
      refine ih _ (fresh.subscribe first.1 (outsider first.2)) fun topic l hl => ?_
      change l ∈ (bus.subscribe first.1 (outsider first.2)).2.listeners topic at hl
      rw [Bus.listeners_subscribe] at hl
      split at hl
      · rcases List.mem_append.mp hl with hold | hnew
        · exact outside topic l hold
        · rw [List.mem_singleton.mp hnew]
          cases first.2 <;> rfl
      · exact outside topic l hl
  obtain ⟨bus, fresh, outside, heq⟩ := all early .empty .empty nofun
  exact ⟨bus, fresh, outside, congrArg start heq⟩

variable {registry : Registry δ} {devices : δ} {now : Binary64} {early : List (Topic × Option Text)}

theorem fresh_run (acts : List Act) : (run acts (opened registry devices now early)).bus.Fresh := by
  refine Lasting.fresh.run fresh_detach acts ?_
  obtain ⟨bus, fresh, -, heq⟩ := opened_eq registry devices now early
  rw [heq]
  exact (((fresh.subscribe _ _).subscribe _ _).subscribe _ _).subscribe _ _

theorem nodup_keys_run (acts : List Act) :
    (run acts (opened registry devices now early)).catalog.keys.Nodup := by
  refine Lasting.unique.run id acts ?_
  obtain ⟨bus, -, -, heq⟩ := opened_eq registry devices now early
  rw [heq]
  exact List.nodup_nil

theorem slotting_run (acts : List Act) : (run acts (opened registry devices now early)).Slotting := by
  refine Lasting.slotting.run (fun _ => nofun) acts ?_
  obtain ⟨bus, -, -, heq⟩ := opened_eq registry devices now early
  rw [heq]
  exact nofun

end Station

end GroundStation
