/-
# What a station does at once

The functions of a station do at once what traffic does in many steps.  A publish on `raw_tm` calls all who
listen, one behind the other; input of a client is published chunk by chunk, which leads through the whole
path and publishes on `raw_tm` again; the end of service disconnects every client.  Each of these is a path
(`path_publishRawTm`, `path_takeInput`, `path_stopServer`), one of the many that there are, and a client is
let in and let go in one step anyway.  So what holds of all paths holds of stations as they run.

Only a station whose slot for an answer is where it belongs can be said to leave telemetry alone when it
gives the slot up (`Slotting`).
-/
import GroundStation.Proofs.Station.Reach
import GroundStation.Proofs.Telemetry.Roll

namespace GroundStation

namespace Server

/-- The chunks in which input is taken: none is empty or too long, and together they are the input. -/
theorem chunksFrom_spec {size : Nat} (pos : 0 < size) :
    ∀ {fuel : Nat} {bytes : Bytes}, bytes.length ≤ fuel →
      (chunksFrom size fuel bytes).flatten = bytes ∧
        ∀ piece ∈ chunksFrom size fuel bytes, piece ≠ [] ∧ piece.length ≤ size := by
  intro fuel
  induction fuel with
  | zero =>
    intro bytes hle
    rw [List.eq_nil_of_length_eq_zero (Nat.le_zero.mp hle)]
    exact ⟨rfl, nofun⟩
  | succ fuel ih =>
    intro bytes hle
    rw [chunksFrom]
    split
    · next hempty =>
      rw [List.isEmpty_iff.mp hempty]
      exact ⟨rfl, nofun⟩
    · next hne =>
      have hlength : 0 < bytes.length := List.length_pos_of_ne_nil (by simpa using hne)
      have hdrop : (bytes.drop size).length ≤ fuel := by
        rw [List.length_drop]
        omega
      obtain ⟨hflatten, hpieces⟩ := ih hdrop
      rw [List.flatten_cons, hflatten, List.take_append_drop, List.forall_mem_cons]
      refine ⟨rfl, ⟨?_, List.length_take_le _ _⟩, hpieces⟩
      exact List.ne_nil_of_length_pos (by rw [List.length_take]; omega)

theorem chunks_spec (bytes : Bytes) : (chunks bytes).flatten = bytes ∧
    ∀ piece ∈ chunks bytes, piece ≠ [] ∧ piece.length ≤ chunkSize :=
  chunksFrom_spec (by decide) (Nat.le_refl _)

end Server

namespace Station

variable {δ : Type}

/-! ## Quiet changes -/

theorem Quiet.refl (s : Station δ) : Quiet s s := ⟨rfl, fun _ => rfl, Nat.le_refl _⟩

theorem Quiet.trans {s t u : Station δ} (first : Quiet s t) (second : Quiet t u) : Quiet s u where
  clients := second.clients.trans first.clients
  entries k := (second.entries k).trans (first.entries k)
  nextId := Nat.le_trans first.nextId second.nextId

/-- Clients do not notice what leaves them and their topic alone. -/
theorem Quiet.of_eq {s t : Station δ} (clients : t.server.clients = s.server.clients)
    (channel : t.rawTm = s.rawTm) : Quiet s t :=
  ⟨clients, fun k => by rw [channel], Nat.le_of_eq (congrArg Channel.nextId channel.symm)⟩

theorem quiet_overhear (topic : Topic) (m : Message) (l : Listener) (s : Station δ) :
    Quiet s (overhear topic m l s).2 := by
  unfold overhear
  split <;> exact .of_eq rfl rfl

theorem quiet_await {s : Station δ} (slotting : s.Slotting) : Quiet s s.await := by
  have subscribed : (s.bus.subscribe .ioResult .oneShot).2.channel .rawTm = s.bus.channel .rawTm :=
    Bus.channel_subscribe_of_ne (by decide) _ _
  refine .of_eq ?_ ?_
  · rfl
  · rw [rawTm, await]
    cases hp : s.controller.pending with
    | none => exact subscribed
    | some h =>
      have htopic : h.topic ≠ .rawTm := by
        rw [slotting h hp]
        decide
      exact (Bus.channel_cancel_of_ne htopic _).trans subscribed

theorem quiet_answered {s : Station δ} (slotting : s.Slotting) {h : Handle}
    (full : s.controller.pending = some h) : Quiet s ((s.withPending none).cancelAll [h]) := by
  have htopic : h.topic ≠ .rawTm := by
    rw [slotting h full]
    decide
  exact .of_eq rfl (Bus.channel_cancel_of_ne htopic _)

end Station

namespace Traffic

variable {δ : Type}

/-! ## Paths that no connection takes part in -/

/-- An event of a publish, or of the rest of the station. -/
def Event.isInner : Event → Bool
  | .publish .. | .other => true
  | _ => false

/-- A path of publishes and of the rest of the station leads to a state. -/
def Inner (t u : Traffic δ) : Prop := ∃ h, Path t h u ∧ ∀ e ∈ h, e.isInner = true

namespace Inner

variable {t u v : Traffic δ} {e : Event}

theorem trans (first : Inner t u) (second : Inner u v) : Inner t v := by
  obtain ⟨h, path, inner⟩ := first
  obtain ⟨h', path', inner'⟩ := second
  exact ⟨h' ++ h, path.trans path', List.forall_mem_append.mpr ⟨inner', inner⟩⟩

theorem of_step (step : Step t e u) (inner : e.isInner = true) : Inner t u :=
  ⟨[e], .step .refl step, List.forall_mem_singleton.mpr inner⟩

theorem publish {b : Nat} {stage : Stage} {before after : Broadcast} {s : Station δ}
    (current : t.broadcast b = before) (move : Broadcast.Move t.station before stage after s) :
    Inner t { t.withBroadcast b after with station := s } := by
  subst current
  exact .of_step (.publish move) rfl

theorem other {s : Station δ} (quiet : t.station.Quiet s) : Inner t { t with station := s } :=
  .of_step (.other quiet) rfl

/-- It leaves connections alone. -/
theorem same (inner : Inner t u) :
    u.session = t.session ∧ u.station.telemetry = t.station.telemetry := by
  obtain ⟨h, path, inner⟩ := inner
  induction path with
  | refl => exact ⟨rfl, rfl⟩
  | step _ step ih =>
    obtain ⟨now, before⟩ := List.forall_mem_cons.mp inner
    obtain ⟨session, telemetry⟩ := ih before
    cases step with
    | connect | leave | turn | quit => cases now
    | begin => exact ⟨session, telemetry⟩
    | publish move => exact ⟨session, move.sameRoll.telemetry.trans telemetry⟩
    | other quiet => exact ⟨session, quiet.sameRoll.telemetry.trans telemetry⟩

end Inner

/-! ## One publish -/

/-- The visits of a publish are its steps. -/
theorem inner_visits {b : Nat} {line : Text} (subs : List (Subscriber Listener)) :
    ∀ {t : Traffic δ}, t.broadcast b = ⟨line, .visiting, subs⟩ → ∃ u, Inner t u ∧ u.station =
      (deliver (fun id s => s.bus.holds ⟨.rawTm, id⟩) (Station.hearRawTm (.line line)) subs t.station).2 := by
  induction subs with
  | nil => exact fun visiting => ⟨_, .publish visiting .finish, rfl⟩
  | cons sub rest ih =>
    intro t visiting
    cases stands : t.station.bus.holds ⟨.rawTm, sub.id⟩ with
    | false =>
      have passed : Inner t _ := .publish visiting (.pass stands)
      obtain ⟨u, later, station⟩ := ih (broadcast_withBroadcast t b ⟨line, .visiting, rest⟩)
      rw [deliver_cons_of_not_stands (by rw [stands]; exact Bool.false_ne_true)]
      exact ⟨u, passed.trans later, station⟩
    | true =>
      have found : Inner t _ := .publish visiting (.find stands)
      have calling := broadcast_withBroadcast t b ⟨line, .calling, sub :: rest⟩
      rcases heard : Station.hearRawTm (.line line) sub.listener t.station with ⟨e | _, s⟩
      · rw [deliver_cons_of_error stands heard]
        exact ⟨_, found.trans (.publish calling (.fail heard)), rfl⟩
      · have called := found.trans (.publish calling (.hear heard))
        have visiting' := broadcast_withBroadcast (t.withBroadcast b ⟨line, .calling, sub :: rest⟩) b
          ⟨line, .visiting, rest⟩
        obtain ⟨u, later, station⟩ := ih (t := { withBroadcast _ b ⟨line, .visiting, rest⟩ with station := s })
          visiting'
        rw [deliver_cons_of_ok stands heard]
        exact ⟨u, called.trans later, station⟩

/-- One station leads to another by publishes and what else goes on in a station. -/
def Leads (s s' : Station δ) : Prop := ∀ t : Traffic δ, t.station = s → ∃ u, Inner t u ∧ u.station = s'

namespace Leads

variable {s s' s'' : Station δ}

theorem of_quiet (quiet : s.Quiet s') : Leads s s' := by
  rintro t rfl
  exact ⟨_, .other quiet, rfl⟩

theorem trans (first : Leads s s') (second : Leads s' s'') : Leads s s'' := by
  intro t station
  obtain ⟨u, inner, rfl⟩ := first t station
  obtain ⟨v, inner', station'⟩ := second u rfl
  exact ⟨v, inner.trans inner', station'⟩

end Leads

/-- A publish on `raw_tm` at once is a publish in steps. -/
theorem leads_publishRawTm (m : Message) (s : Station δ) : Leads s (Station.publishRawTm m s).2 := by
  cases m with
  | line line =>
    rintro t rfl
    have began : Inner t (t.begin line) := .of_step (.begin line t) rfl
    obtain ⟨u, later, station⟩ := inner_visits t.station.rawTm.subscribers (broadcast_begin t line)
    exact ⟨u, began.trans later, station⟩
  | _ =>
    refine .of_quiet (Station.tell_keeps Station.Quiet.refl Station.Quiet.trans fun l _ u => ?_)
    unfold Station.hearRawTm
    split
    · contradiction
    · exact Station.quiet_overhear _ _ _ u

/-! ## The whole path -/

theorem controller_publishRawTm (m : Message) (s : Station δ) :
    (Station.publishRawTm m s).2.controller = s.controller := by
  refine Station.tell_keeps (R := fun s t => t.controller = s.controller) (fun _ => rfl)
    (fun first second => second.trans first) fun l _ u => ?_
  unfold Station.hearRawTm
  split
  · rfl
  · unfold Station.overhear
    split <;> rfl

/-- What a station does between operators and telemetry, it does by publishes and quiet changes. -/
theorem along_leads : Station.Along Station.anywhere
    (fun s s' : Station δ => s.Slotting → s'.Slotting ∧ Leads s s') where
  refl s slotting := ⟨slotting, .of_quiet (.refl s)⟩
  trans first second slotting := by
    obtain ⟨slotting', leads⟩ := first slotting
    exact (second slotting').imp_right leads.trans
  overheard _ m s slotting := by
    refine ⟨?_, .of_quiet (Station.quiet_overhear _ m _ s)⟩
    unfold Station.overhear
    split <;> exact slotting
  rawTm m s slotting := by
    refine ⟨?_, leads_publishRawTm m s⟩
    rw [Station.Slotting, controller_publishRawTm]
    exact slotting
  answered full slotting := ⟨nofun, .of_quiet (Station.quiet_answered slotting full)⟩
  awaited s slotting := by
    refine ⟨?_, .of_quiet (Station.quiet_await slotting)⟩
    rintro handle ⟨⟩
    rfl
  operated op hv slotting := ⟨slotting, .of_quiet (.of_eq rfl rfl)⟩

/-- So it does with a chunk of a client's input. -/
theorem leads_publishRawTc {s : Station δ} (slotting : s.Slotting) (m : Message) :
    (Station.publishRawTc m s).2.Slotting ∧ Leads s (Station.publishRawTc m s).2 :=
  along_leads.publishRawTc m s slotting

/-- Chunks that are there to be read are published one after another. -/
theorem path_takePieces {k : Nat} (ps : List Bytes)
    (small : ∀ piece ∈ ps, piece ≠ [] ∧ piece.length ≤ Server.chunkSize) :
    ∀ {t : Traffic δ}, t.station.Slotting → k < t.station.telemetry.length →
      (t.session k).reader = .waiting → (t.session k).inbound = ps.flatten →
      ∃ h u, Path t h u ∧ u.station = Station.takePieces ps t.station ∧
        u.session k = { t.session k with inbound := [] } := by
  induction ps with
  | nil =>
    intro t _ _ _ hinbound
    have hnil : (t.session k).inbound = [] := hinbound
    refine ⟨[], t, .refl, rfl, ?_⟩
    rw [← hnil]
  | cons piece rest ih =>
    intro t slotting known waiting hinbound
    obtain ⟨⟨ne, le⟩, small⟩ := List.forall_mem_cons.mp small
    have busy (lines : List Text) : Session.Move lines (t.Released k) (t.session k) (.received piece)
        { t.session k with inbound := rest.flatten, reader := .processing } := .receive waiting hinbound ne le
    have hclient := List.getElem?_eq_getElem (Station.length_telemetry _ ▸ known)
    have received := Path.refl.step (.turn hclient (busy _))
    -- what is published meanwhile leaves the connection as it is
    obtain ⟨slotting', leads⟩ := leads_publishRawTc slotting (.raw piece)
    obtain ⟨u, inner, station⟩ := leads (t.withSession k _) rfl
    obtain ⟨session, telemetry⟩ := inner.same
    obtain ⟨h, published, -⟩ := inner
    have now : u.session k = { t.session k with inbound := rest.flatten, reader := .processing } :=
      (congrFun session k).trans (session_withSession ..)
    have known' : k < u.station.telemetry.length := telemetry ▸ known
    have idle (lines : List Text) : Session.Move lines (u.Released k) (u.session k) .processed
        { t.session k with inbound := rest.flatten, reader := .waiting } := by
      rw [now]
      exact .process rfl
    have hclient' := List.getElem?_eq_getElem (Station.length_telemetry _ ▸ known')
    have processed := (received.trans published).step (.turn hclient' (idle _))
    have later := session_withSession u k { t.session k with inbound := rest.flatten, reader := .waiting }
    obtain ⟨h', v, path, station', session'⟩ := ih small (t := u.withSession k _) (station ▸ slotting') known'
      (congrArg Session.reader later) (congrArg Session.inbound later)
    refine ⟨_, v, processed.trans path, ?_, ?_⟩
    · rw [station', Station.takePieces, ← station]
      rfl
    · rw [session', later, ← waiting]

/-- Input of a client at once is what the client sends, taken chunk by chunk. -/
theorem path_takeInput {t : Traffic δ} {k : Nat} {client : Client} (slotting : t.station.Slotting)
    (hclient : t.station.server.clients[k]? = some client) (connected : client.connected = true)
    (waiting : (t.session k).reader = .waiting) (sending : (t.session k).halfClosed = false)
    (nothing : (t.session k).inbound = []) (bytes : Bytes) : ∃ h u, Path t (h ++ [.turn k (.sent bytes)]) u ∧
      u.station = t.station.takeInput k bytes ∧ u.session k = t.session k := by
  obtain ⟨hflatten, small⟩ := Server.chunks_spec bytes
  have known : k < t.station.telemetry.length := by
    rw [Station.length_telemetry]
    exact (List.getElem?_eq_some_iff.mp hclient).1
  have sent : Session.Move client.sent.reverse (t.Released k) (t.session k) (.sent bytes)
      { t.session k with inbound := bytes } := by
    have move : Session.Move client.sent.reverse (t.Released k) (t.session k) (.sent bytes)
        { t.session k with inbound := (t.session k).inbound ++ bytes } := .send bytes sending
    rwa [nothing] at move
  have now := session_withSession t k { t.session k with inbound := bytes }
  obtain ⟨h, u, path, station, session⟩ := path_takePieces (Server.chunks bytes) small
    (t := t.withSession k { t.session k with inbound := bytes }) slotting known
    ((congrArg Session.reader now).trans waiting) ((congrArg Session.inbound now).trans hflatten.symm)
  refine ⟨h, u, (Path.refl.step (.turn hclient sent)).trans path, ?_, ?_⟩
  · rw [station, Station.takeInput, hclient]
    exact (if_pos connected).symm
  · rw [session, now, ← nothing]

/-! ## The end of service -/

/-- A client that has been let go. -/
def off (c : Client) : Client := { c with connected := false }

theorem clients_dropClient (k : Nat) (s : Station δ) :
    (s.dropClient k).server.clients.map off = s.server.clients.map off := by
  unfold Station.dropClient
  split
  · rfl
  · exact map_modify_eq fun _ _ => rfl

theorem nextId_cancelAll (hs : List Handle) : ∀ (b : Bus Listener) (topic : Topic),
    ((b.cancelAll hs).channel topic).nextId = (b.channel topic).nextId := by
  induction hs with
  | nil => exact fun _ _ => rfl
  | cons x hs ih =>
    intro b topic
    exact (ih (b.cancel x) topic).trans (b.nextId_cancel x topic)

/-- A service that is ending: clients have left since it began to, and nothing else has happened. -/
structure Ending (t : Traffic δ) (h : List Event) (u : Traffic δ) : Prop where
  roll : Roll h u
  quitting : u.quitting = true
  idle : ∀ k, (u.session k).reader ≠ .processing
  telemetry : u.station.telemetry = t.station.telemetry
  nextId : u.station.rawTm.nextId = t.station.rawTm.nextId
  clients : u.station.server.clients.map off = t.station.server.clients.map off

/-- A client that is still there may leave. -/
theorem Ending.leave {t u : Traffic δ} {h : List Event} (ending : Ending t h u) {k : Nat}
    (known : k < u.station.telemetry.length) (stays : .left k ∉ h) :
    Step u (.left k) (u.leave k) ∧ Ending t (.left k :: h) (u.leave k) := by
  have waiting : (u.session k).reader = .waiting := by
    cases hr : (u.session k).reader with
    | waiting => rfl
    | processing => exact absurd hr (ending.idle k)
    | gone => exact absurd ((ending.roll.went k).mpr hr) stays
  have left : Step u (.left k) (u.leave k) :=
    .leave (by rwa [← Station.length_telemetry]) waiting (.inr (.inr ending.quitting))
  refine ⟨left, ending.roll.step left, ending.quitting, fun j => ?_, ?_, ?_, ?_⟩
  · by_cases hj : j = k
    · subst hj
      rw [session_leave]
      exact nofun
    · rw [session_leave_of_ne hj]
      exact ending.idle j
  · exact (Station.telemetry_dropClient k u.station).trans ending.telemetry
  · have hx := List.getElem?_eq_getElem known
    have channel := Station.rawTm_dropClient hx (ending.roll.handle _ (List.getElem_mem known)).1
    exact (congrArg Channel.nextId channel).trans ((Channel.nextId_cancel _ _).trans ending.nextId)
  · exact (clients_dropClient k u.station).trans ending.clients

/-- One after another they all do. -/
theorem Ending.leaveAll {t : Traffic δ} {h₀ : List Event} (ending : Ending t h₀ t) :
    ∀ n ≤ t.station.telemetry.length,
      ∃ h u, Path t h u ∧ Ending t (h ++ h₀) u ∧ ∀ k < n, .left k ∈ h ++ h₀ := by
  intro n
  induction n with
  | zero => exact fun _ => ⟨[], t, .refl, ending, nofun⟩
  | succ n ih =>
    intro hn
    obtain ⟨h, u, path, ending', gone⟩ := ih (Nat.le_of_lt hn)
    by_cases already : .left n ∈ h ++ h₀
    · refine ⟨h, u, path, ending', fun k hk => ?_⟩
      rcases Nat.lt_succ_iff_lt_or_eq.mp hk with hk | rfl
      · exact gone k hk
      · exact already
    · obtain ⟨left, ending''⟩ := ending'.leave (ending'.telemetry ▸ hn) already
      refine ⟨.left n :: h, u.leave n, path.step left, ending'', fun k hk => ?_⟩
      rcases Nat.lt_succ_iff_lt_or_eq.mp hk with hk | rfl
      · exact List.mem_cons_of_mem _ (gone k hk)
      · exact List.mem_cons_self

/-- The end of service at once is that every client goes which is still there. -/
theorem path_stopServer {t₀ t : Traffic δ} {h₀ : List Event} (begin : Start t₀) (past : Path t₀ h₀ t)
    (idle : ∀ k, (t.session k).reader ≠ .processing) :
    ∃ h u, Path t (h ++ [.quit]) u ∧ u.station = t.station.stopServer := by
  have roll : Roll (.quit :: h₀) { t with quitting := true } := .of_path begin (past.step (.quit t))
  have beginning : Ending { t with quitting := true } (.quit :: h₀) { t with quitting := true } :=
    ⟨roll, rfl, idle, rfl, rfl, rfl⟩
  obtain ⟨h, u, path, ending, gone⟩ := beginning.leaveAll _ (Nat.le_refl _)
  have all (k : Nat) (hk : k < u.station.telemetry.length) : .left k ∈ h ++ .quit :: h₀ :=
    gone k (ending.telemetry ▸ hk)
  have nobody (k : Nat) : entries k u.station.rawTm.subscribers = [] := by
    by_contra some
    obtain ⟨came, stays⟩ := ending.roll.entries_ne_nil_iff.mp some
    exact stays (all k ((ending.roll.came k).mp came))
  have quiet : u.station.Quiet t.station.stopServer := by
    constructor
    case clients =>
      have stopped : t.station.stopServer.server.clients = t.station.server.clients.map off := rfl
      rw [stopped, ← ending.clients]
      refine (List.map_congr_left fun c hc => ?_).trans (List.map_id _)
      obtain ⟨k, hk⟩ := List.mem_iff_getElem?.mp hc
      have hflag : u.station.flags[k]? = some c.connected := by rw [Station.flags, List.getElem?_map, hk]; rfl
      have known : k < u.station.telemetry.length := by
        rw [Station.length_telemetry]
        exact (List.getElem?_eq_some_iff.mp hk).1
      have hoff : c.connected = false :=
        Bool.eq_false_iff.mpr fun on => (ending.roll.flag hflag).mp on (all k known)
      rw [off, ← hoff]
      rfl
    case entries =>
      intro k
      rw [nobody]
      refine List.filter_eq_nil_iff.mpr fun sub hsub client => ?_
      obtain ⟨hsub, uncancelled⟩ := Bus.mem_channel_cancelAll.mp hsub
      have subscribed : sub ∈ entries k t.station.rawTm.subscribers := List.mem_filter.mpr ⟨hsub, client⟩
      rcases roll.entry with none | ⟨x, hx, one⟩
      · rw [none] at subscribed
        cases subscribed
      · obtain rfl := List.mem_singleton.mp (one ▸ subscribed)
        have kept := List.mem_of_getElem? hx
        have same : (⟨.rawTm, x.id⟩ : Handle) = x := Handle.eq_of_parts (roll.handle x kept).1.symm rfl
        have cancelled : (⟨.rawTm, x.id⟩ : Handle) ∈ t.station.telemetry := by
          rw [same]
          exact kept
        exact uncancelled (List.mem_append_right _ cancelled)
    case nextId =>
      refine Nat.le_of_eq (ending.nextId.trans ?_)
      exact (nextId_cancelAll _ _ _).symm
  exact ⟨.other :: h, _, ((Path.refl.step (.quit t)).trans path).step (.other quiet), rfl⟩

end Traffic

end GroundStation
