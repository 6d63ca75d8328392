/-
# What is written to a client

What a client is told is queued for it in the station, and its writer writes the queue out, a line at a
time.  So what has been written is a beginning of what the client has been told (`Outbox`).  The writer
ends when nobody can put anything into the queue any more and all of it is written: the subscription is
cancelled, and no publish that began before has the client still before it.
-/
import GroundStation.Proofs.Telemetry.Course

namespace GroundStation

/-! ## Lines sent to a client -/

namespace Station

variable {δ : Type}

/-- The lines sent to a client, in the order in which they were. -/
def linesTo (s : Station δ) (k : Nat) : List Text :=
  (s.server.clients[k]?.map fun c => c.sent.reverse).getD []

theorem linesTo_of_getElem? {s : Station δ} {k : Nat} {c : Client} (hc : s.server.clients[k]? = some c) :
    s.linesTo k = c.sent.reverse := by
  rw [linesTo, hc]
  rfl

theorem linesTo_acceptClient (name : Text) (s : Station δ) (k : Nat) :
    (s.acceptClient name).linesTo k = s.linesTo k := by
  have clients : (s.acceptClient name).server.clients =
      s.server.clients ++ [⟨name, (s.subscribe .rawTm (.client s.server.clients.length)).1, true, []⟩] := rfl
  rw [linesTo, linesTo, clients]
  rcases Nat.lt_trichotomy k s.server.clients.length with hlt | rfl | hlt
  · rw [List.getElem?_append_left hlt]
  · rw [List.getElem?_concat_length, List.getElem?_eq_none (Nat.le_refl _)]
    rfl
  · rw [List.getElem?_eq_none (by simp; omega), List.getElem?_eq_none (by omega)]

theorem linesTo_dropClient (j : Nat) (s : Station δ) (k : Nat) :
    (s.dropClient j).linesTo k = s.linesTo k := by
  unfold dropClient
  split
  · rfl
  · rw [linesTo, linesTo, ← List.getElem?_map, ← List.getElem?_map]
    exact congrArg (fun l => l[k]?.getD []) (map_modify_eq fun _ _ => rfl)

theorem linesTo_sendTo {k : Nat} {s : Station δ} (known : k < s.server.clients.length) (line : Text) :
    (s.sendTo k line).linesTo k = s.linesTo k ++ [line] := by
  have hc := List.getElem?_eq_getElem known
  have hmodified : (s.sendTo k line).server.clients[k]? =
      some { s.server.clients[k] with sent := line :: s.server.clients[k].sent } := by
    rw [sendTo, List.getElem?_modify_eq, hc]
    rfl
  rw [linesTo_of_getElem? hmodified, linesTo_of_getElem? hc, List.reverse_cons]

theorem linesTo_sendTo_of_ne {j k : Nat} (ne : j ≠ k) (s : Station δ) (line : Text) :
    (s.sendTo j line).linesTo k = s.linesTo k := by
  have clients : (s.sendTo j line).server.clients[k]? = s.server.clients[k]? := List.getElem?_modify_ne _ _ ne
  rw [linesTo, linesTo, clients]

/-- To call somebody with a line sends it to no other client. -/
theorem linesTo_of_heard {k : Nat} {s s' : Station δ} {line : Text} {l : Listener}
    {r : Except StationError Unit} (heard : hearRawTm (.line line) l s = (r, s')) (other : l ≠ .client k) :
    s'.linesTo k = s.linesTo k := by
  cases l with
  | client j =>
    cases heard
    exact linesTo_sendTo_of_ne (fun same => other (congrArg Listener.client same)) s line
  | _ =>
    cases heard
    rfl

/-- A client does not fail. -/
theorem ok_of_heard_client {j : Nat} {s s' : Station δ} {line : Text} {r : Except StationError Unit}
    (heard : hearRawTm (.line line) (.client j) s = (r, s')) : r = .ok () ∧ s' = s.sendTo j line := by
  cases heard
  exact ⟨rfl, rfl⟩

end Station

namespace Traffic

variable {δ : Type} {k : Nat} {t u : Traffic δ} {e : Event} {h : List Event}

/-- Nobody comes to be among the subscribers that a publish has left. -/
theorem Broadcast.Move.released {s s' : Station δ} {state state' : Broadcast} {stage : Stage}
    (move : Broadcast.Move s state stage state' s') (released : entries k state.rest = []) :
    entries k state'.rest = [] := by
  cases move with
  | find | finish => exact released
  | pass | hear => exact List.filter_eq_nil_iff.mpr fun x hx =>
      List.filter_eq_nil_iff.mp released x (List.mem_cons_of_mem _ hx)
  | fail => rfl

/-! ## What is written -/

/-- The lines of publishes, as they are written. -/
def bytesOf (fs : List (Nat × Text)) : Bytes := fs.flatMap fun f => Utf8.encode f.2

/-- What a client has been told is queued for it, and its writer has written a beginning of it; when the
connection is closed that is all, and nobody can tell it more. -/
structure Outbox (k : Nat) (h : List Event) (t : Traffic δ) : Prop where
  queued : t.station.linesTo k = (told k h).map Prod.snd
  taken : (t.session k).taken ≤ (told k h).length
  written : (t.session k).written = bytesOf ((told k h).take (t.session k).taken)
  closed : .turn k .closed ∈ h → .left k ∈ h ∧ (t.session k).taken = (told k h).length ∧ t.Released k

namespace Outbox

theorem start (start : Start t) : Outbox k [] t where
  queued := by
    rw [Station.linesTo, start.clients]
    rfl
  taken := by
    rw [start.session]
    exact Nat.le_refl _
  written := by
    rw [start.session]
    rfl
  closed := nofun

/-- Where nobody tells a client anything, and its writer writes nothing, its outbox stays. -/
theorem other (outbox : Outbox k h t) (untold : e.told? k = none) (unclosed : e ≠ .turn k .closed)
    (lines : u.station.linesTo k = t.station.linesTo k)
    (taken : (u.session k).taken = (t.session k).taken)
    (written : (u.session k).written = (t.session k).written)
    (released : .left k ∈ h → t.Released k → u.Released k) : Outbox k (e :: h) u := by
  have htold : told k (e :: h) = told k h := told_cons_of_none untold
  constructor
  case queued =>
    rw [htold, lines]
    exact outbox.queued
  case taken =>
    rw [htold, taken]
    exact outbox.taken
  case written =>
    rw [htold, taken, written]
    exact outbox.written
  case closed =>
    intro hclosed
    obtain ⟨hleft, hall, hreleased⟩ := outbox.closed ((List.mem_cons.mp hclosed).resolve_left unclosed.symm)
    rw [htold, taken]
    exact ⟨List.mem_cons_of_mem _ hleft, hall, released hleft hreleased⟩

/-- What a connection does by itself. -/
theorem turn (outbox : Outbox k h t) (roll : Roll h t) {client : Client} {turn : Turn} {c : Session}
    (hclient : t.station.server.clients[k]? = some client)
    (move : Session.Move client.sent.reverse (t.Released k) (t.session k) turn c) :
    Outbox k (.turn k turn :: h) (t.withSession k c) := by
  have lines : client.sent.reverse = (told k h).map Prod.snd :=
    (Station.linesTo_of_getElem? hclient).symm.trans outbox.queued
  have now := session_withSession t k c
  rw [lines] at move
  cases move with
  | @write c line unclosed next =>
    have htold : told k (.turn k .wrote :: h) = told k h := told_cons_of_none rfl
    obtain ⟨f, hf, rfl⟩ := Option.map_eq_some_iff.mp ((List.getElem?_map ..).symm.trans next)
    have hlt : (t.session k).taken < (told k h).length := (List.getElem?_eq_some_iff.mp hf).1
    constructor
    case queued =>
      rw [htold]
      exact outbox.queued
    case taken =>
      rw [htold, now]
      exact hlt
    case written =>
      simp only [htold, now]
      rw [outbox.written, List.take_add_one, hf, bytesOf, bytesOf, List.flatMap_append]
      simp
    case closed =>
      intro hclosed
      -- a connection that is closed has no line to be written
      have hall := (outbox.closed ((List.mem_cons.mp hclosed).resolve_left nofun)).2.1
      exact absurd hall (Nat.ne_of_lt hlt)
  | close gone all released =>
    have htold : told k (.turn k .closed :: h) = told k h := told_cons_of_none rfl
    rw [List.length_map] at all
    constructor
    case queued =>
      rw [htold]
      exact outbox.queued
    case taken =>
      rw [htold, now]
      exact outbox.taken
    case written =>
      rw [htold, now]
      exact outbox.written
    case closed =>
      intro _
      rw [htold, now]
      exact ⟨List.mem_cons_of_mem _ ((roll.went k).mpr gone), all, released⟩
  | _ =>
    refine outbox.other rfl nofun rfl ?_ ?_ fun _ hreleased => hreleased <;> rw [now]

/-- A publish that begins. -/
theorem begin (outbox : Outbox k h t) (roll : Roll h t) (line : Text) :
    Outbox k (.publish t.begun (.began line) :: h) (t.begin line) := by
  refine outbox.other rfl nofun rfl rfl rfl fun hleft released b => ?_
  by_cases hb : b = t.begun
  · subst hb
    rw [broadcast_begin]
    exact (roll.entries k).trans (if_pos hleft)
  · rw [broadcast_begin_of_ne hb]
    exact released b

/-- A publish goes on. -/
theorem publish (outbox : Outbox k h t) (course : Course k h t) {b : Nat} {stage : Stage} {state : Broadcast}
    {s : Station δ} (move : Broadcast.Move t.station (t.broadcast b) stage state s) :
    Outbox k (.publish b stage :: h) { t.withBroadcast b state with station := s } := by
  have released (_ : .left k ∈ h) (released : t.Released k) :
      Released { t.withBroadcast b state with station := s } k := by
    intro b'
    by_cases hb : b' = b
    · subst hb
      simp only [broadcast_withBroadcast]
      exact move.released (released b')
    · have same := broadcast_withBroadcast_of_ne hb t state
      simp only [same]
      exact released b'
  have progress := course.progress b
  have pending (hclosed : .turn k .closed ∈ h) : entries k (t.broadcast b).rest = [] :=
    (outbox.closed hclosed).2.2 b
  generalize t.broadcast b = before at move progress pending
  cases move with
  | @hear line sub rest _ heard =>
    by_cases client : sub.listener = .client k
    · have hentries : entries k (sub :: rest) = sub :: entries k rest := entries_cons_self client rest
      have known : k < t.station.server.clients.length := by
        rw [← Station.length_telemetry]
        rcases progress.entry with none | ⟨x, hx, -⟩
        · rw [hentries] at none
          cases none
        · exact (List.getElem?_eq_some_iff.mp hx).1
      rw [client] at heard ⊢
      obtain ⟨-, rfl⟩ := Station.ok_of_heard_client heard
      have htold := told_heard k b line h
      constructor
      case queued =>
        rw [htold, List.map_append, ← outbox.queued]
        exact Station.linesTo_sendTo known line
      case taken =>
        rw [htold, List.length_append]
        exact Nat.le_add_right_of_le outbox.taken
      case written =>
        rw [htold]
        exact outbox.written.trans (congrArg bytesOf (List.take_append_of_le_length outbox.taken).symm)
      case closed =>
        intro hclosed
        have none := pending ((List.mem_cons.mp hclosed).resolve_left nofun)
        rw [hentries] at none
        cases none
    · refine outbox.other ?_ nofun (Station.linesTo_of_heard heard client) rfl rfl released
      refine Option.eq_none_iff_forall_ne_some.mpr fun f hf => client ?_
      exact (Stage.heard.inj (Event.publish.inj (told?_eq_some_iff.mp hf)).2).1
  | @fail line sub _ _ _ heard =>
    refine outbox.other rfl nofun (Station.linesTo_of_heard heard fun client => ?_) rfl rfl released
    rw [client] at heard
    cases (Station.ok_of_heard_client heard).1
  | _ => exact outbox.other rfl nofun rfl rfl rfl released

theorem step (outbox : Outbox k h t) (roll : Roll h t) (course : Course k h t) (step : Step t e u) :
    Outbox k (e :: h) u := by
  rcases step.session k with ⟨client, turn, c, rfl, hclient, move, rfl⟩ | ⟨elsewhere, reader, same⟩
  · exact outbox.turn roll hclient move
  · have taken : (u.session k).taken = (t.session k).taken := (congrArg Session.taken same).trans rfl
    have written : (u.session k).written = (t.session k).written := (congrArg Session.written same).trans rfl
    cases step with
    | connect name =>
      exact outbox.other rfl nofun (Station.linesTo_acceptClient name _ k) taken written
        fun _ released => released
    | @leave _ j =>
      exact outbox.other rfl nofun (Station.linesTo_dropClient j _ k) taken written
        fun _ released => released
    | turn => exact outbox.other rfl (elsewhere _) rfl taken written fun _ released => released
    | quit => exact outbox.other rfl nofun rfl taken written fun _ released => released
    | begin line => exact outbox.begin roll line
    | publish move => exact outbox.publish course move
    | @other _ s quiet =>
      have lines : s.linesTo k = t.station.linesTo k := by
        rw [Station.linesTo, quiet.clients, Station.linesTo]
      exact outbox.other rfl nofun lines taken written fun _ released => released

theorem of_path (begin : Start t) (path : Path t h u) : Outbox k h u := by
  induction path with
  | refl => exact start begin
  | step path step ih => exact ih.step (.of_path begin path) (.of_path begin path) step

end Outbox

/-! ## Nothing keeps the writer from its end -/

/-- The writer of a client writes what is queued, and if the client is gone and released it ends. -/
theorem path_flush {client : Client} (n : Nat) :
    ∀ {t : Traffic δ}, t.station.server.clients[k]? = some client → (t.session k).reader = .gone →
      t.Released k → (t.session k).closed = false → (t.session k).taken + n = client.sent.length →
      ∃ h u, Path t h u ∧ (∀ e ∈ h, e = .turn k .wrote ∨ e = .turn k .closed) ∧ .turn k .closed ∈ h := by
  induction n with
  | zero =>
    intro t hclient gone released _ hall
    have all : (t.session k).taken = client.sent.reverse.length := by rwa [List.length_reverse]
    refine ⟨[.turn k .closed], _, Path.refl.step (.turn hclient (.close gone all released)), ?_, ?_⟩
    · exact List.forall_mem_singleton.mpr (.inr rfl)
    · exact List.mem_singleton_self _
  | succ n ih =>
    intro t hclient gone released unclosed hall
    have hlt : (t.session k).taken < client.sent.reverse.length := by
      rw [List.length_reverse]
      omega
    have wrote := Path.refl.step (.turn hclient (.write unclosed (List.getElem?_eq_getElem hlt)))
    have now := session_withSession t k { t.session k with
      taken := (t.session k).taken + 1
      written := (t.session k).written ++ Utf8.encode client.sent.reverse[(t.session k).taken] }
    obtain ⟨h, u, path, writes, closed⟩ := ih (t := t.withSession k _) hclient
      ((congrArg Session.reader now).trans gone) released ((congrArg Session.closed now).trans unclosed)
      (by rw [now]; simp only; omega)
    refine ⟨h ++ [.turn k .wrote], u, wrote.trans path, ?_, List.mem_append_left _ closed⟩
    exact List.forall_mem_append.mpr ⟨writes, List.forall_mem_singleton.mpr (.inl rfl)⟩

end Traffic

end GroundStation
