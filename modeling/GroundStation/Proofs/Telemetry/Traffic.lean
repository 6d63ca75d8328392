/-
# Telemetry traffic

A client of the server is served by activities of its own.  Its reader takes what the client sends, a
chunk at a time, and goes on only when the chunk has been published; a callback on `raw_tm` queues the
lines that are published there; its writer writes them out.  Publishes on `raw_tm` are activities too, one
for each thread that has a line: each goes through the subscribers that were there when it began, asks of
one whether it still stands, and then calls it, whatever has happened in between.

`Traffic` is a station together with what these activities hold, and `Step` is the smallest step of any of
them.  Nothing is said of who comes next: a `Path` is any order of steps, of any number of clients and
publishes, and its history lists what has happened, latest first.  The steps that touch the station are
those of the station: `acceptClient`, `dropClient`, and one call of `hearRawTm`.

What else happens in a station, on other topics or to other listeners of `raw_tm`, is a `Quiet` change.
-/
import GroundStation.Proofs.Bus.Standing
import GroundStation.Station.Server
import Mathlib.Logic.Function.Basic

namespace GroundStation

/-- The subscriptions of a client among subscribers of `raw_tm`. -/
def entries (k : Nat) (subs : List (Subscriber Listener)) : List (Subscriber Listener) :=
  subs.filter fun sub => sub.listener = .client k

namespace Station

variable {δ : Type}

/-- The subscribers of `raw_tm`. -/
def rawTm (s : Station δ) : Channel Listener := s.bus.channel .rawTm

/-- A change of a station that its clients do not notice. -/
structure Quiet (s t : Station δ) : Prop where
  clients : t.server.clients = s.server.clients
  entries : ∀ k, entries k t.rawTm.subscribers = entries k s.rawTm.subscribers
  nextId : s.rawTm.nextId ≤ t.rawTm.nextId

end Station

namespace Traffic

variable {δ : Type}

/-! ## One connection -/

/-- What a reader is at. -/
inductive Reader where
  | waiting
  /-- It has a chunk published. -/
  | processing
  | gone
  deriving DecidableEq

/-- What the two ends of a connection hold. -/
structure Session where
  /-- Bytes from the client that have not been read. -/
  inbound : Bytes
  /-- The client sends no more. -/
  halfClosed : Bool
  /-- Reading fails. -/
  broken : Bool
  reader : Reader
  /-- How many of the lines sent to the client its writer has written. -/
  taken : Nat
  written : Bytes
  closed : Bool

/-- A connection that nothing has come through. -/
def Session.fresh : Session := ⟨[], false, false, .waiting, 0, [], false⟩

/-- The reader of a connection is done: the input has ended, reading fails, or the service ends. -/
def Session.Done (quitting : Bool) (c : Session) : Prop :=
  (c.halfClosed = true ∧ c.inbound = []) ∨ c.broken = true ∨ quitting = true

/-- What happens at a connection. -/
inductive Turn where
  | sent (bytes : Bytes)
  | halfClosed
  | broke
  | received (piece : Bytes)
  | processed
  | wrote
  | closed
  deriving DecidableEq

/-- What a connection does by itself.  `lines` are the lines sent to the client so far, and `released` says
that no publish can send it another one when its subscription is gone. -/
inductive Session.Move (lines : List Text) (released : Prop) : Session → Turn → Session → Prop
  | send (bytes : Bytes) {c : Session} : c.halfClosed = false →
      Move lines released c (.sent bytes) { c with inbound := c.inbound ++ bytes }
  | halfClose (c : Session) : Move lines released c .halfClosed { c with halfClosed := true }
  | fail (c : Session) : Move lines released c .broke { c with broken := true }
  | receive {c : Session} {piece rest : Bytes} : c.reader = .waiting → c.inbound = piece ++ rest →
      piece ≠ [] → piece.length ≤ Server.chunkSize →
      Move lines released c (.received piece) { c with inbound := rest, reader := .processing }
  | process {c : Session} : c.reader = .processing →
      Move lines released c .processed { c with reader := .waiting }
  | write {c : Session} {line : Text} : c.closed = false → lines[c.taken]? = some line →
      Move lines released c .wrote { c with taken := c.taken + 1, written := c.written ++ Utf8.encode line }
  | close {c : Session} : c.reader = .gone → c.taken = lines.length → released →
      Move lines released c .closed { c with closed := true }

/-! ## One publish -/

/-- What a publish is at. -/
inductive Phase where
  /-- It turns to the next of the subscribers that are left. -/
  | visiting
  /-- It has found that one standing, and calls it. -/
  | calling
  | ended
  deriving DecidableEq

/-- A publish of a line on `raw_tm`, with the subscribers that are left. -/
structure Broadcast where
  line : Text
  phase : Phase
  rest : List (Subscriber Listener)

/-- What happens at a publish. -/
inductive Stage where
  | began (line : Text)
  /-- The next subscriber stands. -/
  | found
  /-- The next subscriber does not stand, and is passed over. -/
  | passed
  | heard (listener : Listener) (line : Text)
  /-- A subscriber has failed, which ends the publish. -/
  | failed
  | finished
  deriving DecidableEq

/-- What a publish does when it has begun, and what the station comes to by it. -/
inductive Broadcast.Move (s : Station δ) : Broadcast → Stage → Broadcast → Station δ → Prop
  | find {line : Text} {sub : Subscriber Listener} {rest : List (Subscriber Listener)} :
      s.bus.holds ⟨.rawTm, sub.id⟩ = true →
      Move s ⟨line, .visiting, sub :: rest⟩ .found ⟨line, .calling, sub :: rest⟩ s
  | pass {line : Text} {sub : Subscriber Listener} {rest : List (Subscriber Listener)} :
      s.bus.holds ⟨.rawTm, sub.id⟩ = false →
      Move s ⟨line, .visiting, sub :: rest⟩ .passed ⟨line, .visiting, rest⟩ s
  | hear {line : Text} {sub : Subscriber Listener} {rest : List (Subscriber Listener)} {s' : Station δ} :
      Station.hearRawTm (.line line) sub.listener s = (.ok (), s') →
      Move s ⟨line, .calling, sub :: rest⟩ (.heard sub.listener line) ⟨line, .visiting, rest⟩ s'
  | fail {line : Text} {sub : Subscriber Listener} {rest : List (Subscriber Listener)} {e : StationError}
      {s' : Station δ} : Station.hearRawTm (.line line) sub.listener s = (.error e, s') →
      Move s ⟨line, .calling, sub :: rest⟩ .failed ⟨line, .ended, []⟩ s'
  | finish {line : Text} : Move s ⟨line, .visiting, []⟩ .finished ⟨line, .ended, []⟩ s

end Traffic

/-! ## All together -/

/-- A station with what its clients and the publishes on `raw_tm` hold.  Clients have the indices that the
station gives them, publishes are numbered as they begin. -/
structure Traffic (δ : Type) where
  station : Station δ
  session : Nat → Traffic.Session
  broadcast : Nat → Traffic.Broadcast
  /-- The number of publishes that have begun. -/
  begun : Nat
  quitting : Bool

namespace Traffic

variable {δ : Type}

/-- What happens. -/
inductive Event where
  /-- A client has subscribed. -/
  | connected (k : Nat)
  /-- A client's subscription has been cancelled. -/
  | left (k : Nat)
  | turn (k : Nat) (turn : Turn)
  | quit
  | publish (b : Nat) (stage : Stage)
  | other
  deriving DecidableEq

/-- The traffic with another session of a client. -/
def withSession (t : Traffic δ) (k : Nat) (c : Session) : Traffic δ :=
  { t with session := Function.update t.session k c }

/-- The traffic with another state of a publish. -/
def withBroadcast (t : Traffic δ) (b : Nat) (state : Broadcast) : Traffic δ :=
  { t with broadcast := Function.update t.broadcast b state }

/-- The traffic with one more publish, which has before it who is subscribed now. -/
def begin (t : Traffic δ) (line : Text) : Traffic δ :=
  { t.withBroadcast t.begun ⟨line, .visiting, t.station.rawTm.subscribers⟩ with begun := t.begun + 1 }

/-- The traffic when the reader of a client has gone, and has cancelled its subscription. -/
def leave (t : Traffic δ) (k : Nat) : Traffic δ :=
  { t.withSession k { t.session k with reader := .gone } with station := t.station.dropClient k }

/-- No publish has the client among the subscribers that are left. -/
def Released (t : Traffic δ) (k : Nat) : Prop := ∀ b, entries k (t.broadcast b).rest = []

/-- One step of one activity. -/
inductive Step : Traffic δ → Event → Traffic δ → Prop
  | connect (name : Text) (t : Traffic δ) :
      Step t (.connected t.station.server.clients.length) { t with station := t.station.acceptClient name }
  | leave {t : Traffic δ} {k : Nat} : k < t.station.server.clients.length →
      (t.session k).reader = .waiting → (t.session k).Done t.quitting → Step t (.left k) (t.leave k)
  | turn {t : Traffic δ} {k : Nat} {client : Client} {turn : Turn} {c : Session} :
      t.station.server.clients[k]? = some client →
      Session.Move client.sent.reverse (t.Released k) (t.session k) turn c →
      Step t (.turn k turn) (t.withSession k c)
  | quit (t : Traffic δ) : Step t .quit { t with quitting := true }
  | begin (line : Text) (t : Traffic δ) : Step t (.publish t.begun (.began line)) (t.begin line)
  | publish {t : Traffic δ} {b : Nat} {stage : Stage} {state : Broadcast} {s : Station δ} :
      Broadcast.Move t.station (t.broadcast b) stage state s →
      Step t (.publish b stage) { t.withBroadcast b state with station := s }
  | other {t : Traffic δ} {s : Station δ} : t.station.Quiet s → Step t .other { t with station := s }

/-- Steps in any order, with what has happened, latest first. -/
inductive Path (t : Traffic δ) : List Event → Traffic δ → Prop
  | refl : Path t [] t
  | step {h : List Event} {e : Event} {u v : Traffic δ} : Path t h u → Step u e v → Path t (e :: h) v

/-- Nobody has connected and nothing has been published; who else listens is left open. -/
structure Start (t : Traffic δ) : Prop where
  clients : t.station.server.clients = []
  entries : ∀ k, entries k t.station.rawTm.subscribers = []
  session : ∀ k, t.session k = .fresh
  broadcast : ∀ b, (t.broadcast b).phase = .ended ∧ (t.broadcast b).rest = []
  begun : t.begun = 0

/-! ## Histories -/

/-- Of two events of a history, the one had happened when the other did. -/
def Precedes (e e' : Event) : List Event → Prop
  | [] => False
  | x :: h => (x = e' ∧ e ∈ h) ∨ Precedes e e' h

/-- The publish that begins, with its line. -/
def Event.begun? : Event → Option (Nat × Text)
  | .publish b (.began line) => some (b, line)
  | _ => none

/-- The publish that calls a client, with its line. -/
def Event.told? (k : Nat) : Event → Option (Nat × Text)
  | .publish b (.heard (.client j) line) => if j = k then some (b, line) else none
  | _ => none

/-- The bytes that a client sends. -/
def Event.sent? (k : Nat) : Event → Option Bytes
  | .turn j (.sent bytes) => if j = k then some bytes else none
  | _ => none

/-- The chunk of a client that is taken up for publishing. -/
def Event.piece? (k : Nat) : Event → Option Bytes
  | .turn j (.received piece) => if j = k then some piece else none
  | _ => none

/-- The publishes that began while the subscription of a client stood, in the order in which they did. -/
def due (k : Nat) : List Event → List (Nat × Text)
  | [] => []
  | e :: h => due k h ++ if .connected k ∈ h ∧ .left k ∉ h then e.begun?.toList else []

/-- The publishes that have called a client, in the order in which they did. -/
def told (k : Nat) (h : List Event) : List (Nat × Text) := h.reverse.filterMap (Event.told? k)

/-- What a client has sent. -/
def sent (k : Nat) (h : List Event) : Bytes := (h.reverse.filterMap (Event.sent? k)).flatten

/-- The chunks of a client that have been taken up for publishing, in the order in which they were. -/
def pieces (k : Nat) (h : List Event) : List Bytes := h.reverse.filterMap (Event.piece? k)

section History

variable {k : Nat} {e e' x : Event} {h : List Event} {f : Nat × Text}

theorem Precedes.mem (before : Precedes e e' h) : e ∈ h ∧ e' ∈ h := by
  induction h with
  | nil => exact before.elim
  | cons x h ih =>
    rcases before with ⟨rfl, hmem⟩ | before
    · exact ⟨List.mem_cons_of_mem _ hmem, List.mem_cons_self⟩
    · exact (ih before).imp (List.mem_cons_of_mem _) (List.mem_cons_of_mem _)

theorem Precedes.of_cons (before : Precedes e e' (x :: h)) (ne : x ≠ e') : Precedes e e' h :=
  before.resolve_left fun now => ne now.1

theorem begun?_eq_some_iff : e.begun? = some f ↔ e = .publish f.1 (.began f.2) := by
  unfold Event.begun?
  split
  · simp [Prod.ext_iff]
  · next other => exact iff_of_false nofun (other _ _)

theorem told?_eq_some_iff : e.told? k = some f ↔ e = .publish f.1 (.heard (.client k) f.2) := by
  unfold Event.told?
  split
  · split
    · next same => simp [same, Prod.ext_iff]
    · next other => simp [other]
  · next other => exact iff_of_false nofun (other _ _ _)

theorem filterMap_reverse_cons {α : Type} (g : Event → Option α) (e : Event) (h : List Event) :
    (e :: h).reverse.filterMap g = h.reverse.filterMap g ++ (g e).toList := by
  rw [List.reverse_cons, List.filterMap_append]
  cases hg : g e with
  | none => rw [List.filterMap_cons_none hg]; rfl
  | some a => rw [List.filterMap_cons_some hg]; rfl

theorem told_cons (k : Nat) (e : Event) (h : List Event) : told k (e :: h) = told k h ++ (e.told? k).toList :=
  filterMap_reverse_cons ..

theorem told_cons_of_none (untold : e.told? k = none) : told k (e :: h) = told k h := by
  rw [told_cons, untold]
  exact List.append_nil _

theorem told_heard (k b : Nat) (line : Text) (h : List Event) :
    told k (.publish b (.heard (.client k) line) :: h) = told k h ++ [(b, line)] := by
  have now : (Event.publish b (.heard (.client k) line)).told? k = some (b, line) := if_pos rfl
  rw [told_cons, now]
  rfl

theorem mem_due_cons : f ∈ due k (e :: h) ↔
    f ∈ due k h ∨ (e = .publish f.1 (.began f.2) ∧ .connected k ∈ h ∧ .left k ∉ h) := by
  rw [due, List.mem_append]
  split
  · next standing => rw [Option.mem_toList, begun?_eq_some_iff, and_iff_left standing]
  · next hnot => exact or_congr_right (iff_of_false List.not_mem_nil fun now => hnot now.2)

theorem mem_told_cons : f ∈ told k (e :: h) ↔ f ∈ told k h ∨ e = .publish f.1 (.heard (.client k) f.2) := by
  rw [told_cons, List.mem_append, Option.mem_toList, told?_eq_some_iff]

/-- A publish that a client is due is one that began, when the client had connected. -/
theorem began_of_mem_due (hf : f ∈ due k h) : .publish f.1 (.began f.2) ∈ h ∧ .connected k ∈ h := by
  induction h with
  | nil => cases hf
  | cons e h ih =>
    rcases mem_due_cons.mp hf with hf | ⟨rfl, came, -⟩
    · exact (ih hf).imp (List.mem_cons_of_mem _) (List.mem_cons_of_mem _)
    · exact ⟨List.mem_cons_self, List.mem_cons_of_mem _ came⟩

theorem mem_told_append (hf : f ∈ told k h) (later : List Event) : f ∈ told k (later ++ h) := by
  induction later with
  | nil => exact hf
  | cons e later ih => exact mem_told_cons.mpr (.inl ih)

end History

namespace Path

variable {t u v : Traffic δ}

/-- What has happened on the way to a state, and then since. -/
theorem split {later earlier : List Event} (path : Path t (later ++ earlier) v) :
    ∃ u, Path t earlier u ∧ Path u later v := by
  induction later generalizing v with
  | nil => exact ⟨v, path, .refl⟩
  | cons e later ih =>
    cases path with
    | step path step =>
      obtain ⟨u, first, since⟩ := ih path
      exact ⟨u, first, since.step step⟩

theorem trans {earlier later : List Event} (first : Path t earlier u) (since : Path u later v) :
    Path t (later ++ earlier) v := by
  induction since with
  | refl => exact first
  | step _ step ih => exact ih.step step

end Path

/-! ## One session, one publish -/

theorem session_withSession (t : Traffic δ) (k : Nat) (c : Session) : (t.withSession k c).session k = c :=
  Function.update_self ..

theorem session_withSession_of_ne {j k : Nat} (ne : j ≠ k) (t : Traffic δ) (c : Session) :
    (t.withSession k c).session j = t.session j :=
  Function.update_of_ne ne ..

theorem session_leave (t : Traffic δ) (k : Nat) :
    (t.leave k).session k = { t.session k with reader := .gone } :=
  session_withSession ..

theorem session_leave_of_ne {j k : Nat} (ne : j ≠ k) (t : Traffic δ) :
    (t.leave k).session j = t.session j :=
  session_withSession_of_ne ne ..

theorem broadcast_withBroadcast (t : Traffic δ) (b : Nat) (state : Broadcast) :
    (t.withBroadcast b state).broadcast b = state :=
  Function.update_self ..

theorem broadcast_withBroadcast_of_ne {b b' : Nat} (ne : b' ≠ b) (t : Traffic δ) (state : Broadcast) :
    (t.withBroadcast b state).broadcast b' = t.broadcast b' :=
  Function.update_of_ne ne ..

theorem broadcast_begin (t : Traffic δ) (line : Text) :
    (t.begin line).broadcast t.begun = ⟨line, .visiting, t.station.rawTm.subscribers⟩ :=
  broadcast_withBroadcast ..

theorem broadcast_begin_of_ne {b : Nat} {t : Traffic δ} (ne : b ≠ t.begun) (line : Text) :
    (t.begin line).broadcast b = t.broadcast b :=
  broadcast_withBroadcast_of_ne ne ..

/-- A connection makes a move of its own, or nothing happens to it but that its reader goes. -/
theorem Step.session {t u : Traffic δ} {e : Event} (step : Step t e u) (k : Nat) :
    (∃ client turn c, e = .turn k turn ∧ t.station.server.clients[k]? = some client ∧
      Session.Move client.sent.reverse (t.Released k) (t.session k) turn c ∧ u = t.withSession k c) ∨
    ((∀ turn, e ≠ .turn k turn) ∧ ∃ reader, u.session k = { t.session k with reader }) := by
  cases step with
  | @leave _ j =>
    refine .inr ⟨nofun, ?_⟩
    by_cases hj : k = j
    · subst hj
      exact ⟨.gone, session_leave t k⟩
    · exact ⟨(t.session k).reader, session_leave_of_ne hj t⟩
  | @turn _ j client turn c hclient move =>
    by_cases hj : k = j
    · subst hj
      exact .inl ⟨client, turn, c, rfl, hclient, move, rfl⟩
    · exact .inr ⟨fun _ now => hj (Event.turn.inj now).1.symm, (t.session k).reader,
        session_withSession_of_ne hj t c⟩
  | _ => exact .inr ⟨nofun, (t.session k).reader, rfl⟩

end Traffic

end GroundStation
