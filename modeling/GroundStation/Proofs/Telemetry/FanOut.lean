/-
# Fan-out of telemetry

What a client gets is settled for every path, that is for every order in which clients come, send, and go,
and lines are published on `raw_tm` (`fan_out`).  It is told of publishes that began while its subscription
stood, of each once, and of every such publish that came to its end before it left; what is written to it
is the lines of these, in the order in which it was told, all of them when the connection is closed.  A
publish that another subscriber fails in does not come to its end, and need not reach those after it.

Publishes overlap, with each other and with the coming and going of clients.  Where those that are due to a
client do not (`Separate`), there is nothing to choose: it gets just those, in the order in which they
began.  In any case it gets what is published while one of its chunks is being processed, as its reader
takes one chunk after another and does not leave before the last is done.

Paths are made of small steps, and a station takes many of them at once.  That its functions are paths is
shown in `GroundStation.Proofs.Telemetry.AtOnce`: of a client's input in `path_takeInput`, and of the end of
service in `path_stopServer`.
-/
import GroundStation.Proofs.Telemetry.Outbox
import Mathlib.Data.List.Sort

namespace GroundStation

namespace Traffic

variable {δ : Type} {k : Nat} {t u : Traffic δ} {e : Event} {h later mid earlier : List Event}

/-! ## The reader -/

/-- What a client has sent has been taken up for publishing, in order, or is still to be read. -/
def Inbox (k : Nat) (h : List Event) (t : Traffic δ) : Prop :=
  (pieces k h).flatten ++ (t.session k).inbound = sent k h

namespace Inbox

theorem start (start : Start t) : Inbox k [] t := by
  rw [Inbox, start.session]
  rfl

theorem other (inbox : Inbox k h t) (unsent : e.sent? k = none) (untaken : e.piece? k = none)
    (inbound : (u.session k).inbound = (t.session k).inbound) : Inbox k (e :: h) u := by
  have hpieces : pieces k (e :: h) = pieces k h := by
    rw [pieces, filterMap_reverse_cons, untaken]
    exact List.append_nil _
  have hsent : sent k (e :: h) = sent k h := by
    rw [sent, filterMap_reverse_cons, unsent]
    exact congrArg List.flatten (List.append_nil _)
  rw [Inbox, hpieces, hsent, inbound]
  exact inbox

theorem turn (inbox : Inbox k h t) {lines : List Text} {released : Prop} {turn : Turn} {c : Session}
    (move : Session.Move lines released (t.session k) turn c) :
    Inbox k (.turn k turn :: h) (t.withSession k c) := by
  have now := session_withSession t k c
  cases move with
  | send bytes =>
    have hsent : sent k (.turn k (.sent bytes) :: h) = sent k h ++ bytes := by
      have this : (Event.turn k (.sent bytes)).sent? k = some bytes := if_pos rfl
      rw [sent, filterMap_reverse_cons, this]
      simp [sent]
    have hpieces : pieces k (.turn k (.sent bytes) :: h) = pieces k h :=
      (filterMap_reverse_cons ..).trans (List.append_nil _)
    rw [Inbox, hsent, hpieces, now, ← inbox, List.append_assoc]
  | @receive _ piece rest _ hinbound =>
    have hsent : sent k (.turn k (.received piece) :: h) = sent k h :=
      congrArg List.flatten ((filterMap_reverse_cons ..).trans (List.append_nil _))
    have hpieces : pieces k (.turn k (.received piece) :: h) = pieces k h ++ [piece] := by
      have this : (Event.turn k (.received piece)).piece? k = some piece := if_pos rfl
      rw [pieces, filterMap_reverse_cons, this]
      rfl
    rw [Inbox, hsent, hpieces, now, ← inbox, hinbound]
    simp
  | _ => exact inbox.other rfl rfl ((congrArg Session.inbound now).trans rfl)

theorem step (inbox : Inbox k h t) (step : Step t e u) : Inbox k (e :: h) u := by
  rcases step.session k with ⟨client, turn, c, rfl, -, move, rfl⟩ | ⟨elsewhere, reader, same⟩
  · exact inbox.turn move
  · refine inbox.other ?_ ?_ ((congrArg Session.inbound same).trans rfl)
    · unfold Event.sent?
      split
      · exact if_neg fun hj => elsewhere _ (by rw [hj])
      · rfl
    · unfold Event.piece?
      split
      · exact if_neg fun hj => elsewhere _ (by rw [hj])
      · rfl

theorem of_path (begin : Start t) (path : Path t h u) : Inbox k h u := by
  induction path with
  | refl => exact start begin
  | step _ step ih => exact ih.step step

end Inbox

/-- A reader that has a chunk published does nothing else before that is done. -/
theorem processing_step (step : Step t e u) (busy : (t.session k).reader = .processing)
    (undone : e ≠ .turn k .processed) : (u.session k).reader = .processing := by
  cases step with
  | @leave _ j _ waiting =>
    have hj : k ≠ j := by
      rintro rfl
      cases waiting.symm.trans busy
    exact (congrArg Session.reader (session_leave_of_ne hj t)).trans busy
  | @turn _ j _ turn c _ move =>
    by_cases hj : k = j
    · subst hj
      rw [session_withSession]
      cases move with
      | receive waiting => cases waiting.symm.trans busy
      | process => exact absurd rfl undone
      | _ => exact busy
    · rw [session_withSession_of_ne hj]
      exact busy
  | _ => exact busy

theorem processing_path (path : Path t h u) (busy : (t.session k).reader = .processing)
    (undone : .turn k .processed ∉ h) : (u.session k).reader = .processing := by
  induction path with
  | refl => exact busy
  | step _ step ih =>
    exact processing_step step (ih (List.not_mem_of_not_mem_cons undone))
      (List.ne_of_not_mem_cons undone).symm

/-- Who has a chunk taken up has connected, was waiting for it, and is busy with it now. -/
theorem received_step {piece : Bytes} (step : Step t (.turn k (.received piece)) u) :
    k < t.station.telemetry.length ∧ (t.session k).reader = .waiting ∧
      (u.session k).reader = .processing := by
  cases step with
  | turn hclient move =>
    rw [session_withSession]
    cases move with
    | receive waiting =>
      rw [Station.length_telemetry]
      exact ⟨(List.getElem?_eq_some_iff.mp hclient).1, waiting, rfl⟩

/-- On the way from where a chunk was taken up, its reader is busy as long as the chunk is not done. -/
theorem processing_of_received {piece : Bytes} (path : Path t (mid ++ .turn k (.received piece) :: earlier) u)
    (undone : .turn k .processed ∉ mid) : (u.session k).reader = .processing := by
  obtain ⟨v, first, since⟩ := path.split
  cases first with
  | step _ received => exact processing_path since (received_step received).2.2 undone

theorem processed_between {p q : Bytes}
    (path : Path t (later ++ .turn k (.received q) :: (mid ++ .turn k (.received p) :: earlier)) u) :
    .turn k .processed ∈ mid := by
  by_contra undone
  obtain ⟨v, first, -⟩ := path.split
  cases first with
  | step before received =>
    have busy := processing_of_received before undone
    cases busy.symm.trans (received_step received).2.1

/-! ## What is published meanwhile -/

/-- A publish that begins while a client is subscribed is due to it. -/
theorem mem_due_of_began {b : Nat} {line : Text} (began : .publish b (.began line) ∈ later)
    (came : .connected k ∈ earlier) (stays : .left k ∉ later ++ earlier) :
    (b, line) ∈ due k (later ++ earlier) := by
  induction later with
  | nil => cases began
  | cons e later ih =>
    rcases List.mem_cons.mp began with rfl | began
    · exact mem_due_cons.mpr (.inr ⟨rfl, List.mem_append_right _ came, List.not_mem_of_not_mem_cons stays⟩)
    · exact mem_due_cons.mpr (.inl (ih began (List.not_mem_of_not_mem_cons stays)))

/-- A publish that begins and ends while a chunk of a client is being processed tells the client. -/
theorem told_meanwhile (begin : Start t) {piece : Bytes} {b : Nat} {line : Text}
    (path : Path t (later ++ .publish b .finished :: (mid ++ .turn k (.received piece) :: earlier)) u)
    (began : .publish b (.began line) ∈ mid) (undone : .turn k .processed ∉ mid) : (b, line) ∈ told k
      (later ++ .publish b .finished :: (mid ++ .turn k (.received piece) :: earlier)) := by
  obtain ⟨v, finished, -⟩ := path.split
  rw [← List.cons_append] at finished
  have busy : (v.session k).reader = .processing :=
    processing_of_received finished (by simpa using undone)
  have stays : .left k ∉ .publish b .finished :: mid ++ .turn k (.received piece) :: earlier := by
    rw [(Roll.of_path begin finished).went, busy]
    exact nofun
  have came : .connected k ∈ .turn k (.received piece) :: earlier := by
    obtain ⟨w, received, -⟩ := finished.split
    cases received with
    | step before received =>
      exact List.mem_cons_of_mem _ (((Roll.of_path begin before).came k).mpr (received_step received).1)
  have hdue : (b, line) ∈ due k (.publish b .finished :: mid ++ .turn k (.received piece) :: earlier) :=
    mem_due_of_began (List.mem_cons_of_mem _ began) came stays
  have told := (Course.of_path begin finished).complete hdue List.mem_cons_self
  exact mem_told_append (told.resolve_right fun left => stays left.mem.1) later

/-! ## All together -/

/-- The publishes that are due to a client come to their end one after another, and the client does not
leave in the middle of one. -/
structure Separate (k : Nat) (h : List Event) : Prop where
  ended : ∀ f ∈ due k h, .publish f.1 .finished ∈ h
  apart : ∀ f ∈ due k h, ∀ g ∈ due k h, f.1 < g.1 →
    Precedes (.publish f.1 .finished) (.publish g.1 (.began g.2)) h
  whole : ∀ f ∈ due k h, ¬Precedes (.left k) (.publish f.1 .finished) h

/-- Where the publishes due to a client are separate, it is told just those, in the order in which they
began. -/
theorem Course.told_eq_due (course : Course k h t) (separate : Separate k h) : told k h = due k h := by
  have tally := course.tally
  have ascending : (told k h).Pairwise fun f g => f.1 < g.1 := by
    have distinct := List.pairwise_map.mp tally.once
    refine (tally.order.and distinct).imp_of_mem fun {f g} hf hg ⟨inOrder, ne⟩ => ?_
    refine Nat.lt_of_le_of_ne (Nat.le_of_not_lt fun hlt => inOrder ?_) ne
    exact separate.apart g (tally.sound g hg) f (tally.sound f hf) hlt
  have : Std.Antisymm fun f g : Nat × Text => f.1 < g.1 := ⟨fun _ _ hlt hgt => absurd hgt (Nat.lt_asymm hlt)⟩
  have : Std.Irrefl fun f g : Nat × Text => f.1 < g.1 := ⟨fun _ => Nat.lt_irrefl _⟩
  refine ascending.eq_of_mem_iff tally.sorted fun f => ⟨tally.sound f, fun hf => ?_⟩
  exact (course.complete hf (separate.ended f hf)).resolve_right (separate.whole f hf)

/-- What the fan-out of telemetry comes to for a client. -/
structure FanOut (k : Nat) (h : List Event) (t : Traffic δ) : Prop where
  /-- What is written is what the client has been told, but for lines that are queued; none are when the
  connection is closed. -/
  written : ∃ queued, (t.session k).written ++ bytesOf queued = bytesOf (told k h) ∧
    (.turn k .closed ∈ h → queued = [])
  /-- When the client has left and no publish has it before it any more, its writer comes to that point. -/
  flushed : .left k ∈ h → t.Released k → (t.session k).closed = false →
    ∃ h' u, Path t h' u ∧ (∀ e ∈ h', e = .turn k .wrote ∨ e = .turn k .closed) ∧ .turn k .closed ∈ h'
  /-- The client is told only of publishes that began while its subscription stood. -/
  sound : ∀ f ∈ told k h, f ∈ due k h
  /-- It is told of each that came to its end before it left. -/
  complete : ∀ f ∈ due k h, .publish f.1 .finished ∈ h →
    f ∈ told k h ∨ Precedes (.left k) (.publish f.1 .finished) h
  once : ((told k h).map Prod.fst).Nodup
  /-- It is not told of one publish before another that was over when the first began. -/
  order : (told k h).Pairwise fun f g => ¬Precedes (.publish g.1 .finished) (.publish f.1 (.began f.2)) h
  /-- Where the publishes due to it are separate, it is told just those, one after another. -/
  separate : Separate k h → told k h = due k h
  /-- Its chunks are taken up in the order in which it has sent them, -/
  chunks : (pieces k h).flatten ++ (t.session k).inbound = sent k h
  /-- one when the one before is done. -/
  inTurn : ∀ {later mid earlier p q},
    h = later ++ .turn k (.received q) :: (mid ++ .turn k (.received p) :: earlier) → .turn k .processed ∈ mid
  /-- It is told of what is published while one of them is being processed. -/
  meanwhile : ∀ {later mid earlier piece b line},
    h = later ++ .publish b .finished :: (mid ++ .turn k (.received piece) :: earlier) →
    .publish b (.began line) ∈ mid → .turn k .processed ∉ mid → (b, line) ∈ told k h

/-- Telemetry is fanned out to every client, in whatever order clients connect, send, half-close or are
stopped, and lines are published. -/
theorem fan_out (begin : Start t) (path : Path t h u) (k : Nat) : FanOut k h u := by
  have course : Course k h u := .of_path begin path
  have outbox : Outbox k h u := .of_path begin path
  constructor
  case written =>
    refine ⟨(told k h).drop (u.session k).taken, ?_, fun hclosed => ?_⟩
    · rw [outbox.written, bytesOf, bytesOf, bytesOf, ← List.flatMap_append, List.take_append_drop]
    · exact List.drop_eq_nil_of_le (Nat.le_of_eq (outbox.closed hclosed).2.1.symm)
  case flushed =>
    intro hleft released unclosed
    have roll : Roll h u := .of_path begin path
    have known : k < u.station.server.clients.length := Station.length_telemetry _ ▸ roll.known k hleft
    have hclient := List.getElem?_eq_getElem known
    have hlength : u.station.server.clients[k].sent.length = (told k h).length := by
      have queued := congrArg List.length ((Station.linesTo_of_getElem? hclient).symm.trans outbox.queued)
      rwa [List.length_reverse, List.length_map] at queued
    have rest := Nat.add_sub_of_le (hlength ▸ outbox.taken)
    exact path_flush _ hclient ((roll.went k).mp hleft) released unclosed rest
  case sound => exact course.tally.sound
  case complete => exact fun f hf => course.complete hf
  case once => exact course.tally.once
  case order => exact course.tally.order
  case separate => exact course.told_eq_due
  case chunks => exact Inbox.of_path begin path
  case inTurn =>
    rintro later mid earlier p q rfl
    exact processed_between path
  case meanwhile =>
    rintro later mid earlier piece b line rfl began undone
    exact told_meanwhile begin path began undone

/-- A station that nobody has connected to. -/
def unvisited : Traffic Unit := ⟨.bare .empty () .nan, fun _ => .fresh, fun _ => ⟨[], .ended, []⟩, 0, false⟩

/-- A client asks, is answered, half-closes, and leaves in the middle of another publish, which calls it all
the same.  Both lines are written before the connection is closed. -/
theorem fan_out_parting : Start unvisited ∧ ∃ h u, Path unvisited h u ∧ FanOut 0 h u ∧
    .turn 0 .closed ∈ h ∧ sent 0 h = Utf8.encode "helo a\r\n" ∧
    (u.session 0).written = Utf8.encode "> OK helo a\r\n> OK helo b\r\n" := by
  have start : Start unvisited := ⟨rfl, fun _ => rfl, fun _ => rfl, fun _ => ⟨rfl, rfl⟩, rfl⟩
  refine ⟨start, ?_⟩
  have connected : Path unvisited _ _ := .step .refl (.connect "a" _)
  have asked := connected.step (.turn (k := 0) rfl (.send (Utf8.encode "helo a\r\n") rfl))
  have received := asked.step (.turn (k := 0) rfl
    (@Session.Move.receive _ _ _ (Utf8.encode "helo a\r\n") [] rfl rfl (by decide) (by decide)))
  have began := received.step (.begin "> OK helo a\r\n" _)
  have found := began.step (.publish (b := 0) (.find rfl))
  have heard := found.step (.publish (b := 0) (.hear rfl))
  have finished := heard.step (.publish (b := 0) .finish)
  have processed := finished.step (.turn (k := 0) rfl (.process rfl))
  have halfClosed := processed.step (.turn (k := 0) rfl (.halfClose _))
  have again := halfClosed.step (.begin "> OK helo b\r\n" _)
  have standing := again.step (.publish (b := 1) (.find rfl))
  have left := standing.step (.leave (k := 0) (by decide) rfl (.inl ⟨rfl, rfl⟩))
  have wrote := left.step (.turn (k := 0) rfl (.write rfl rfl))
  have called := wrote.step (.publish (b := 1) (.hear rfl))
  have ended := called.step (.publish (b := 1) .finish)
  have all := ended.step (.turn (k := 0) rfl (.write rfl rfl))
  have closed := all.step (.turn (k := 0) rfl (.close rfl rfl fun
    | 0 => rfl
    | 1 => rfl
    | _ + 2 => rfl))
  exact ⟨_, _, closed, fan_out start closed 0, List.mem_cons_self, rfl, rfl⟩

end Traffic

end GroundStation
