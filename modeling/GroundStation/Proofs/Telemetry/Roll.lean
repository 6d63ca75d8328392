/-
# Who is subscribed to telemetry

A client subscribes when it connects and its subscription is cancelled when its reader is done, so who is
on `raw_tm` is told by the history (`Roll`): a client that has connected and has not left is there once,
with the id of the handle that it keeps, and nobody else is there as that client.  No step but these two
touches the roll, whatever else it does to the station (`Step.roll`).
-/
import GroundStation.Proofs.Telemetry.Traffic
import GroundStation.Proofs.Station.Ownership
import Mathlib.Data.List.Nodup

namespace GroundStation

theorem Handle.eq_of_parts {x y : Handle} (topic : x.topic = y.topic) (id : x.id = y.id) : x = y := by
  cases x
  cases y
  exact congr (congrArg Handle.mk topic) id

theorem entries_append (k : Nat) (subs more : List (Subscriber Listener)) :
    entries k (subs ++ more) = entries k subs ++ entries k more :=
  List.filter_append ..

theorem entries_cons_self {k : Nat} {sub : Subscriber Listener} (h : sub.listener = .client k)
    (rest : List (Subscriber Listener)) : entries k (sub :: rest) = sub :: entries k rest :=
  List.filter_cons_of_pos (decide_eq_true h)

theorem entries_cons_other {k : Nat} {sub : Subscriber Listener} (h : sub.listener ≠ .client k)
    (rest : List (Subscriber Listener)) : entries k (sub :: rest) = entries k rest :=
  List.filter_cons_of_neg (by simpa using h)

/-- To cancel a subscription takes it from everybody. -/
theorem entries_cancel {c : Channel Listener} (agree : c.Agree) (k id : Nat) :
    entries k (c.cancel id).subscribers = (entries k c.subscribers).filter fun sub => sub.id != id := by
  rw [entries, entries, agree.subscribers_cancel, List.filter_filter, List.filter_filter]
  exact List.filter_congr fun sub _ => Bool.and_comm ..

namespace Station

variable {δ : Type}

/-- The subscriptions that the clients keep. -/
def telemetry (s : Station δ) : List Handle := s.server.clients.map Client.telemetry

theorem length_telemetry (s : Station δ) : s.telemetry.length = s.server.clients.length :=
  List.length_map _

/-- Which of the clients the station takes for connected. -/
def flags (s : Station δ) : List Bool := s.server.clients.map Client.connected

/-- A change of a station after which the same clients are subscribed as before. -/
structure SameRoll (s t : Station δ) : Prop where
  telemetry : t.telemetry = s.telemetry
  flags : t.flags = s.flags
  entries : ∀ k, entries k t.rawTm.subscribers = entries k s.rawTm.subscribers
  nextId : s.rawTm.nextId ≤ t.rawTm.nextId

theorem SameRoll.refl (s : Station δ) : SameRoll s s := ⟨rfl, rfl, fun _ => rfl, Nat.le_refl _⟩

theorem Quiet.sameRoll {s t : Station δ} (quiet : s.Quiet t) : SameRoll s t :=
  ⟨congrArg (List.map Client.telemetry) quiet.clients, congrArg (List.map Client.connected) quiet.clients,
    quiet.entries, quiet.nextId⟩

theorem telemetry_acceptClient (name : Text) (s : Station δ) :
    (s.acceptClient name).telemetry = s.telemetry ++ [⟨.rawTm, s.rawTm.nextId⟩] :=
  List.map_append

theorem flags_acceptClient (name : Text) (s : Station δ) : (s.acceptClient name).flags = s.flags ++ [true] :=
  List.map_append

theorem rawTm_acceptClient (name : Text) (s : Station δ) :
    (s.acceptClient name).rawTm = s.rawTm.subscribe (.client s.server.clients.length) :=
  (Bus.channel_subscribe ..).trans (if_pos rfl)

theorem telemetry_dropClient (k : Nat) (s : Station δ) : (s.dropClient k).telemetry = s.telemetry := by
  unfold dropClient
  split
  · rfl
  · exact map_modify_eq fun _ _ => rfl

theorem flags_dropClient {k : Nat} {s : Station δ} {b : Bool} (hb : (s.dropClient k).flags[k]? = some b) :
    b = false := by
  unfold dropClient at hb
  split at hb
  · next none =>
    rw [flags, List.getElem?_map, none] at hb
    cases hb
  · next c hc =>
    rw [flags, List.getElem?_map, List.getElem?_modify_eq] at hb
    have same : (s.cancelAll [c.telemetry]).server.clients[k]? = some c := hc
    rw [same] at hb
    cases hb
    rfl

theorem flags_dropClient_of_ne {j k : Nat} (ne : k ≠ j) (s : Station δ) :
    (s.dropClient k).flags[j]? = s.flags[j]? := by
  unfold dropClient
  split
  · rfl
  · rw [flags, flags, List.getElem?_map, List.getElem?_map]
    exact congrArg (Option.map Client.connected) (List.getElem?_modify_ne _ _ ne)

theorem rawTm_dropClient {k : Nat} {s : Station δ} {x : Handle} (hx : s.telemetry[k]? = some x)
    (topic : x.topic = .rawTm) : (s.dropClient k).rawTm = s.rawTm.cancel x.id := by
  rw [telemetry, List.getElem?_map, Option.map_eq_some_iff] at hx
  obtain ⟨c, hc, rfl⟩ := hx
  unfold dropClient
  rw [hc]
  exact (Bus.channel_cancel ..).trans (if_pos topic)

/-- To hear a line on `raw_tm` changes nothing about who listens. -/
theorem bus_hearRawTm (m : Message) (l : Listener) (s : Station δ) : (hearRawTm m l s).2.bus = s.bus := by
  unfold hearRawTm
  split
  · rfl
  · unfold overhear
    split <;> rfl

theorem clients_hearRawTm {α : Type} {g : Client → α} (same : ∀ c sent, g { c with sent } = g c) (m : Message)
    (l : Listener) (s : Station δ) :
    (hearRawTm m l s).2.server.clients.map g = s.server.clients.map g := by
  unfold hearRawTm
  split
  · exact map_modify_eq fun c _ => same c _
  · unfold overhear
    split <;> rfl

theorem sameRoll_of_heard {m : Message} {l : Listener} {s t : Station δ} {r : Except StationError Unit}
    (heard : hearRawTm m l s = (r, t)) : SameRoll s t := by
  have bus := bus_hearRawTm m l s
  have telemetry : (hearRawTm m l s).2.telemetry = s.telemetry := clients_hearRawTm (fun _ _ => rfl) m l s
  have flags : (hearRawTm m l s).2.flags = s.flags := clients_hearRawTm (fun _ _ => rfl) m l s
  rw [heard] at bus telemetry flags
  have channel : t.rawTm = s.rawTm := congrArg (Bus.channel · .rawTm) bus
  exact ⟨telemetry, flags, fun k => by rw [channel], Nat.le_of_eq (congrArg Channel.nextId channel.symm)⟩

end Station

namespace Traffic

variable {δ : Type} {t u : Traffic δ} {e : Event} {h : List Event}

/-! ## What a step does to the roll -/

/-- A connection by itself neither ends its reader nor starts it again. -/
theorem Session.Move.gone {lines : List Text} {released : Prop} {c c' : Session} {turn : Turn}
    (move : Session.Move lines released c turn c') : c'.reader = .gone ↔ c.reader = .gone := by
  cases move with
  | receive waiting => exact iff_of_false nofun (by rw [waiting]; exact nofun)
  | process processing => exact iff_of_false nofun (by rw [processing]; exact nofun)
  | _ => exact Iff.rfl

/-- A publish leaves everybody subscribed as they are. -/
theorem Broadcast.Move.sameRoll {s s' : Station δ} {b b' : Broadcast} {stage : Stage}
    (move : Broadcast.Move s b stage b' s') : s.SameRoll s' := by
  cases move with
  | hear heard | fail heard => exact Station.sameRoll_of_heard heard
  | _ => exact .refl s

/-- A client comes, or one goes, or the roll stays. -/
theorem Step.roll (step : Step t e u) :
    (∃ name, e = .connected t.station.telemetry.length ∧
      u = { t with station := t.station.acceptClient name }) ∨
    (∃ k, e = .left k ∧ k < t.station.telemetry.length ∧ (t.session k).reader = .waiting ∧
      u = t.leave k) ∨
    ((∀ k, e ≠ .connected k ∧ e ≠ .left k) ∧ t.station.SameRoll u.station ∧
      ∀ k, (u.session k).reader = .gone ↔ (t.session k).reader = .gone) := by
  cases step with
  | connect name => exact .inl ⟨name, by rw [Station.length_telemetry], rfl⟩
  | leave known waiting =>
    exact .inr (.inl ⟨_, rfl, by rwa [Station.length_telemetry], waiting, rfl⟩)
  | @turn _ j _ _ _ _ move =>
    refine .inr (.inr ⟨fun k => ⟨nofun, nofun⟩, .refl _, fun k => ?_⟩)
    by_cases hk : k = j
    · subst hk
      rw [session_withSession]
      exact move.gone
    · rw [session_withSession_of_ne hk]
  | publish move => exact .inr (.inr ⟨fun k => ⟨nofun, nofun⟩, move.sameRoll, fun k => Iff.rfl⟩)
  | other quiet => exact .inr (.inr ⟨fun k => ⟨nofun, nofun⟩, quiet.sameRoll, fun k => Iff.rfl⟩)
  | _ => exact .inr (.inr ⟨fun k => ⟨nofun, nofun⟩, .refl _, fun k => Iff.rfl⟩)

/-! ## What the history says of it -/

/-- Who is subscribed is told by what has happened. -/
structure Roll (h : List Event) (t : Traffic δ) : Prop where
  came : ∀ k, .connected k ∈ h ↔ k < t.station.telemetry.length
  went : ∀ k, .left k ∈ h ↔ (t.session k).reader = .gone
  known : ∀ k, .left k ∈ h → k < t.station.telemetry.length
  flag : ∀ {k b}, t.station.flags[k]? = some b → (b = true ↔ .left k ∉ h)
  handle : ∀ x ∈ t.station.telemetry, x.topic = .rawTm ∧ x.id < t.station.rawTm.nextId
  distinct : t.station.telemetry.Nodup
  entries : ∀ k, entries k t.station.rawTm.subscribers =
    if .left k ∈ h then [] else (t.station.telemetry[k]?.map fun x => ⟨x.id, .client k⟩).toList

namespace Roll

theorem start (start : Start t) : Roll [] t := by
  have nobody : t.station.telemetry = [] := by rw [Station.telemetry, start.clients, List.map_nil]
  constructor
  case came => intro k; simp [nobody]
  case went => intro k; simp [start.session, Session.fresh]
  case known => exact fun k hleft => nomatch hleft
  case flag => simp [Station.flags, start.clients]
  case handle => simp [nobody]
  case distinct => simp [nobody]
  case entries => intro k; simp [nobody, start.entries]

theorem connect (roll : Roll h t) (name : Text) :
    Roll (.connected t.station.telemetry.length :: h)
      { t with station := t.station.acceptClient name } := by
  have telemetry := Station.telemetry_acceptClient name t.station
  have channel := Station.rawTm_acceptClient name t.station
  have length : (t.station.acceptClient name).telemetry.length = t.station.telemetry.length + 1 := by
    rw [telemetry, List.length_append, List.length_singleton]
  constructor
  case came =>
    intro k
    rw [List.mem_cons, Event.connected.injEq, roll.came, length]
    omega
  case went => exact fun k => ⟨fun hleft => (roll.went k).mp (by simpa using hleft),
    fun gone => List.mem_cons_of_mem _ ((roll.went k).mpr gone)⟩
  case known =>
    intro k hleft
    rw [length]
    exact Nat.lt_succ_of_lt (roll.known k (by simpa using hleft))
  case flag =>
    intro k b hb
    have hleft : Event.left k ∈ .connected t.station.telemetry.length :: h ↔ .left k ∈ h := by simp
    rw [Station.flags_acceptClient] at hb
    rw [hleft]
    rcases Nat.lt_or_ge k t.station.flags.length with hlt | hge
    · rw [List.getElem?_append_left hlt] at hb
      exact roll.flag hb
    · rw [List.getElem?_append_right hge] at hb
      have hflag : b = true := List.mem_singleton.mp (List.mem_of_getElem? hb)
      refine iff_of_true hflag fun hleft => ?_
      have hlt := roll.known k hleft
      rw [Station.length_telemetry] at hlt
      exact Nat.not_lt_of_le hge (by rwa [Station.flags, List.length_map])
  case handle =>
    intro x hx
    rw [telemetry] at hx
    rw [channel]
    rcases List.mem_append.mp hx with hx | hx
    · exact ⟨(roll.handle x hx).1, Nat.lt_succ_of_lt (roll.handle x hx).2⟩
    · rw [List.mem_singleton.mp hx]
      exact ⟨rfl, Nat.lt_succ_self _⟩
  case distinct =>
    rw [telemetry, List.nodup_append]
    refine ⟨roll.distinct, List.nodup_singleton _, ?_⟩
    rintro x hx _ hnew rfl
    rw [List.mem_singleton.mp hnew] at hx
    exact Nat.lt_irrefl _ (roll.handle _ hx).2
  case entries =>
    intro k
    have hleft : Event.left k ∈ .connected t.station.telemetry.length :: h ↔ .left k ∈ h := by simp
    rw [telemetry, channel, Channel.subscribe, entries_append, roll.entries, ← Station.length_telemetry]
    simp only [hleft]
    by_cases hk : t.station.telemetry.length = k
    · -- the client that comes has not been there, nor left
      subst hk
      have new : .left t.station.telemetry.length ∉ h := fun hleft => Nat.lt_irrefl _ (roll.known _ hleft)
      simp [new, GroundStation.entries]
    · have same : (t.station.telemetry ++ [⟨.rawTm, t.station.rawTm.nextId⟩])[k]? =
          t.station.telemetry[k]? := by
        rcases Nat.lt_or_gt_of_ne hk with hlt | hlt
        · rw [List.getElem?_eq_none (by simp; omega), List.getElem?_eq_none (by omega)]
        · rw [List.getElem?_append_left hlt]
      rw [same, entries_cons_other (by simpa using hk)]
      exact List.append_nil _

theorem leave (roll : Roll h t) {k : Nat} (known : k < t.station.telemetry.length) :
    Roll (.left k :: h) (t.leave k) := by
  have telemetry : (t.leave k).station.telemetry = t.station.telemetry :=
    Station.telemetry_dropClient k t.station
  have hx : t.station.telemetry[k]? = some t.station.telemetry[k] := List.getElem?_eq_getElem known
  have channel : (t.leave k).station.rawTm = t.station.rawTm.cancel t.station.telemetry[k].id :=
    Station.rawTm_dropClient hx (roll.handle _ (List.getElem_mem known)).1
  constructor
  case came =>
    intro j
    rw [telemetry, ← roll.came]
    simp
  case went =>
    intro j
    by_cases hj : j = k
    · subst hj
      simp [session_leave]
    · simp [session_leave_of_ne hj, hj, roll.went]
  case known =>
    intro j hleft
    rw [telemetry]
    rcases List.mem_cons.mp hleft with heq | hleft
    · cases heq
      exact known
    · exact roll.known j hleft
  case flag =>
    intro j b hb
    by_cases hj : k = j
    · subst hj
      rw [Station.flags_dropClient hb]
      simp
    · have hleft : Event.left j ∈ .left k :: h ↔ .left j ∈ h := by simp [Ne.symm hj]
      rw [hleft]
      exact roll.flag ((Station.flags_dropClient_of_ne hj t.station).symm.trans hb)
  case handle =>
    intro x hmem
    rw [telemetry] at hmem
    rw [channel, Channel.nextId_cancel]
    exact roll.handle x hmem
  case distinct =>
    rw [telemetry]
    exact roll.distinct
  case entries =>
    intro j
    have agree : t.station.rawTm.Agree := t.station.bus.agree_channel .rawTm
    rw [telemetry, channel, entries_cancel agree, roll.entries]
    by_cases hj : j = k
    · subst hj
      rw [if_pos List.mem_cons_self, hx]
      split <;> simp
    · have hleft : Event.left j ∈ .left k :: h ↔ .left j ∈ h := by simp [hj]
      simp only [hleft]
      split
      · rfl
      · -- another client has another handle, so it stays
        refine List.filter_eq_self.mpr fun sub hsub => ?_
        rw [Option.mem_toList, Option.map_eq_some_iff] at hsub
        obtain ⟨y, hy, rfl⟩ := hsub
        rw [bne_iff_ne]
        intro same
        obtain ⟨hlt, rfl⟩ := List.getElem?_eq_some_iff.mp hy
        have topics := ((roll.handle _ (List.getElem_mem hlt)).1).trans
          (roll.handle _ (List.getElem_mem known)).1.symm
        exact hj ((List.Nodup.getElem_inj_iff roll.distinct).mp (Handle.eq_of_parts topics same))

theorem stay (roll : Roll h t) (event : ∀ k, e ≠ .connected k ∧ e ≠ .left k)
    (same : t.station.SameRoll u.station)
    (gone : ∀ k, (u.session k).reader = .gone ↔ (t.session k).reader = .gone) : Roll (e :: h) u := by
  have hleft (k : Nat) : .left k ∈ e :: h ↔ .left k ∈ h := by
    simp [(event k).2.symm]
  constructor
  case came =>
    intro k
    rw [same.telemetry, ← roll.came]
    simp [(event k).1.symm]
  case went => exact fun k => (hleft k).trans ((roll.went k).trans (gone k).symm)
  case known =>
    intro k hk
    rw [same.telemetry]
    exact roll.known k ((hleft k).mp hk)
  case flag =>
    intro k b hb
    rw [hleft]
    rw [same.flags] at hb
    exact roll.flag hb
  case handle =>
    intro x hx
    rw [same.telemetry] at hx
    exact (roll.handle x hx).imp_right fun old => Nat.lt_of_lt_of_le old same.nextId
  case distinct =>
    rw [same.telemetry]
    exact roll.distinct
  case entries =>
    intro k
    rw [same.entries, same.telemetry, roll.entries]
    simp only [hleft]

theorem step (roll : Roll h t) (step : Step t e u) : Roll (e :: h) u := by
  rcases step.roll with ⟨name, rfl, rfl⟩ | ⟨k, rfl, known, -, rfl⟩ | ⟨event, same, gone⟩
  · exact roll.connect name
  · exact roll.leave known
  · exact roll.stay event same gone

theorem of_path (begin : Start t) (path : Path t h u) : Roll h u := by
  induction path with
  | refl => exact start begin
  | step _ step ih => exact ih.step step

/-- A client is subscribed from when it has connected until it has left, -/
theorem entries_ne_nil_iff (roll : Roll h t) {k : Nat} :
    GroundStation.entries k t.station.rawTm.subscribers ≠ [] ↔ .connected k ∈ h ∧ .left k ∉ h := by
  rw [roll.entries, roll.came]
  split
  · next gone => exact iff_of_false (fun hne => hne rfl) fun standing => standing.2 gone
  · next stays =>
    rw [and_iff_left stays]
    rcases Nat.lt_or_ge k t.station.telemetry.length with hlt | hge
    · rw [List.getElem?_eq_getElem hlt]
      exact iff_of_true nofun hlt
    · rw [List.getElem?_eq_none hge]
      exact iff_of_false (fun hne => hne rfl) (Nat.not_lt_of_le hge)

/-- once, with the handle that it keeps. -/
theorem entry (roll : Roll h t) {k : Nat} : GroundStation.entries k t.station.rawTm.subscribers = [] ∨
    ∃ x, t.station.telemetry[k]? = some x ∧
      GroundStation.entries k t.station.rawTm.subscribers = [⟨x.id, .client k⟩] := by
  rw [roll.entries]
  split
  · exact .inl rfl
  · cases hx : t.station.telemetry[k]? with
    | none => exact .inl rfl
    | some x => exact .inr ⟨x, rfl, rfl⟩

/-- A client on the roll stands. -/
theorem holds (roll : Roll h t) {k : Nat} {x : Handle} (hx : t.station.telemetry[k]? = some x)
    (stays : .left k ∉ h) : t.station.bus.holds ⟨.rawTm, x.id⟩ = true := by
  have entry : ⟨x.id, .client k⟩ ∈ GroundStation.entries k t.station.rawTm.subscribers := by
    rw [roll.entries, if_neg stays, hx]
    exact List.mem_singleton_self _
  exact Bus.holds_of_mem (List.mem_filter.mp entry).1

end Roll

end Traffic

end GroundStation
