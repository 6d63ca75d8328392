/-
# What comes of the publishes, for one client

A publish on `raw_tm` is due to the clients that are subscribed when it begins.  While it goes on, each of
them is told, or is still among the subscribers that are left, or has meanwhile left; only a subscriber who
fails can take it from the others (`Progress.fate`).  So a publish that comes to its end has told everybody
it was due to, except those who left before (`Progress.complete`), and it tells nobody else and nobody
twice (`Tally`).

No two clients need be told of two publishes in the same order, as publishes run side by side.  The order
is never against that of the publishes themselves, though: who is told of one first is not told of a
publish later that had come to its end when the first one began (`Tally.order`).
-/
import GroundStation.Proofs.Telemetry.Roll

namespace GroundStation

namespace Traffic

variable {δ : Type} {k b n : Nat} {t u : Traffic δ} {e : Event} {h : List Event}

/-! ## What the history of a client says -/

/-- The publishes that a client is told of are due to it, each is told once, and the order in which they
are told is not against that of the publishes. -/
structure Tally (k : Nat) (h : List Event) : Prop where
  sound : ∀ f ∈ told k h, f ∈ due k h
  once : ((told k h).map Prod.fst).Nodup
  order : (told k h).Pairwise fun f g => ¬Precedes (.publish g.1 .finished) (.publish f.1 (.began f.2)) h
  sorted : (due k h).Pairwise fun f g => f.1 < g.1

namespace Tally

theorem nil : Tally k [] := ⟨nofun, List.nodup_nil, .nil, .nil⟩

theorem other (tally : Tally k h) (begun : e.begun? = none) (untold : e.told? k = none) :
    Tally k (e :: h) := by
  have hdue : due k (e :: h) = due k h := by
    rw [due, begun]
    exact List.append_right_eq_self.mpr (ite_self _)
  have htold : told k (e :: h) = told k h := told_cons_of_none untold
  have notBegan (b : Nat) (line : Text) : e ≠ .publish b (.began line) := by
    rintro rfl
    cases begun
  constructor
  case sound =>
    rw [hdue, htold]
    exact tally.sound
  case once =>
    rw [htold]
    exact tally.once
  case order =>
    rw [htold]
    exact tally.order.imp fun apart before => apart (before.of_cons (notBegan _ _))
  case sorted =>
    rw [hdue]
    exact tally.sorted

/-- A publish begins whose number is new. -/
theorem began (tally : Tally k h) {line : Text} (new : ∀ {b line}, .publish b (.began line) ∈ h → b < n) :
    Tally k (.publish n (.began line) :: h) := by
  have earlier {f : Nat × Text} (hf : f ∈ due k h) : f.1 < n := new (began_of_mem_due hf).1
  have htold : told k (.publish n (.began line) :: h) = told k h := told_cons_of_none rfl
  constructor
  case sound =>
    intro f hf
    rw [htold] at hf
    exact mem_due_cons.mpr (.inl (tally.sound f hf))
  case once =>
    rw [htold]
    exact tally.once
  case order =>
    rw [htold]
    refine tally.order.imp_of_mem fun hf _ apart before => apart (before.of_cons fun now => ?_)
    obtain ⟨same, -⟩ := Event.publish.inj now
    exact Nat.ne_of_lt (earlier (tally.sound _ hf)) same.symm
  case sorted =>
    rw [due]
    split
    · refine List.pairwise_append.mpr ⟨tally.sorted, List.pairwise_singleton _ _, fun f hf g hg => ?_⟩
      rw [List.mem_singleton.mp hg]
      exact earlier hf
    · rw [List.append_nil]
      exact tally.sorted

/-- A client is told of a publish that is due to it and not over, and that it has not been told of. -/
theorem heard (tally : Tally k h) {line : Text} (due : (b, line) ∈ due k h)
    (new : ∀ line, (b, line) ∉ told k h) (running : .publish b .finished ∉ h) :
    Tally k (.publish b (.heard (.client k) line) :: h) := by
  have htold := told_heard k b line h
  have hdue : Traffic.due k (.publish b (.heard (.client k) line) :: h) = Traffic.due k h :=
    List.append_right_eq_self.mpr (ite_self _)
  constructor
  case sound =>
    rw [htold, hdue]
    intro f hf
    rcases List.mem_append.mp hf with hf | hf
    · exact tally.sound f hf
    · rw [List.mem_singleton.mp hf]
      exact due
  case once =>
    rw [htold, List.map_append, List.nodup_append]
    refine ⟨tally.once, List.nodup_singleton _, ?_⟩
    rintro b' hmem _ hnew rfl
    obtain ⟨f, hf, rfl⟩ := List.mem_map.mp hmem
    have same : f.1 = b := List.mem_singleton.mp hnew
    exact new f.2 (same ▸ hf)
  case order =>
    rw [htold]
    refine List.pairwise_append.mpr
      ⟨tally.order.imp fun apart before => apart (before.of_cons nofun), List.pairwise_singleton _ _, ?_⟩
    intro f _ g hg before
    rw [List.mem_singleton.mp hg] at before
    exact running (before.of_cons nofun).mem.1
  case sorted =>
    rw [hdue]
    exact tally.sorted

end Tally

/-! ## How far a publish has come for a client -/

/-- How far a publish has come for a client that keeps a handle: it is due, told, pending or lost, as the
history says.  `begun` publishes have begun. -/
structure Progress (k : Nat) (h : List Event) (begun : Nat) (handle : Option Handle) (b : Nat)
    (state : Broadcast) : Prop where
  numbered : ∀ {line}, .publish b (.began line) ∈ h → b < begun ∧ state.line = line
  live : state.phase ≠ .ended → b < begun
  ended : .publish b .finished ∈ h ∨ .publish b .failed ∈ h → b < begun ∧ state.phase = .ended
  entry : entries k state.rest = [] ∨ ∃ x, handle = some x ∧ entries k state.rest = [⟨x.id, .client k⟩]
  pending : entries k state.rest ≠ [] → (b, state.line) ∈ due k h ∧ ∀ line, (b, line) ∉ told k h
  fate : (b, state.line) ∈ due k h → (b, state.line) ∈ told k h ∨ entries k state.rest ≠ [] ∨
    .left k ∈ h ∨ .publish b .failed ∈ h
  complete : (b, state.line) ∈ due k h → .publish b .finished ∈ h →
    (b, state.line) ∈ told k h ∨ Precedes (.left k) (.publish b .finished) h

/-- An event that says nothing of a publish for a client. -/
structure Event.Skips (k b : Nat) (e : Event) : Prop where
  began : ∀ line, e ≠ .publish b (.began line)
  heard : ∀ line, e ≠ .publish b (.heard (.client k) line)
  failed : e ≠ .publish b .failed
  finished : e ≠ .publish b .finished

theorem Event.skips_of_ne (ne : ∀ stage, e ≠ .publish b stage) : e.Skips k b :=
  ⟨fun _ => ne _, fun _ => ne _, ne _, ne _⟩

namespace Progress

variable {begun begun' : Nat} {handle handle' : Option Handle} {state state' : Broadcast}

theorem not_over (progress : Progress k h begun handle b state) (running : state.phase ≠ .ended) :
    .publish b .finished ∉ h ∧ .publish b .failed ∉ h :=
  ⟨fun hmem => running (progress.ended (.inl hmem)).2, fun hmem => running (progress.ended (.inr hmem)).2⟩

/-- Nothing happens to a publish for a client, but that it is passed over when it has left. -/
theorem skip (progress : Progress k h begun handle b state) (skips : e.Skips k b) (le : begun ≤ begun')
    (keeps : ∀ x, handle = some x → handle' = some x) (line : state'.line = state.line)
    (phase : state'.phase = .ended ↔ state.phase = .ended)
    (rest : entries k state'.rest = entries k state.rest ∨ (entries k state'.rest = [] ∧ .left k ∈ h)) :
    Progress k (e :: h) begun' handle' b state' := by
  have hdue (l : Text) : (b, l) ∈ due k (e :: h) ↔ (b, l) ∈ due k h :=
    mem_due_cons.trans (or_iff_left fun now => skips.began l now.1)
  have htold (l : Text) : (b, l) ∈ told k (e :: h) ↔ (b, l) ∈ told k h :=
    mem_told_cons.trans (or_iff_left (skips.heard l))
  have hfinished : .publish b .finished ∈ e :: h ↔ .publish b .finished ∈ h :=
    List.mem_cons.trans (or_iff_right skips.finished.symm)
  have hfailed : .publish b .failed ∈ e :: h ↔ .publish b .failed ∈ h :=
    List.mem_cons.trans (or_iff_right skips.failed.symm)
  constructor
  case numbered =>
    intro l hmem
    rw [line]
    exact (progress.numbered ((List.mem_cons.mp hmem).resolve_left (skips.began l).symm)).imp_left
      fun hlt => Nat.lt_of_lt_of_le hlt le
  case live =>
    exact fun running => Nat.lt_of_lt_of_le (progress.live fun hover => running (phase.mpr hover)) le
  case ended =>
    intro hmem
    rw [phase]
    exact (progress.ended (hmem.imp hfinished.mp hfailed.mp)).imp_left fun hlt => Nat.lt_of_lt_of_le hlt le
  case entry =>
    rcases rest with same | ⟨none, -⟩
    · rw [same]
      exact progress.entry.imp_right fun ⟨x, hx, hrest⟩ => ⟨x, keeps x hx, hrest⟩
    · exact .inl none
  case pending =>
    intro hpending
    rcases rest with same | ⟨none, -⟩
    · obtain ⟨hmem, hnew⟩ := progress.pending (same ▸ hpending)
      rw [line, hdue]
      exact ⟨hmem, fun l => (not_congr (htold l)).mpr (hnew l)⟩
    · exact absurd none hpending
  case fate =>
    rw [line, hdue, htold, hfailed]
    intro hmem
    rcases progress.fate hmem with hmem | hpending | hleft | hfailed
    · exact .inl hmem
    · rcases rest with same | ⟨-, hleft⟩
      · exact .inr (.inl (same ▸ hpending))
      · exact .inr (.inr (.inl (List.mem_cons_of_mem _ hleft)))
    · exact .inr (.inr (.inl (List.mem_cons_of_mem _ hleft)))
    · exact .inr (.inr (.inr hfailed))
  case complete =>
    rw [line, hdue, htold, hfinished]
    exact fun hmem before => (progress.complete hmem before).imp_right .inr

/-- A client that a publish calls has been told, and is not among the subscribers that are left. -/
theorem heard {line : Text} {sub : Subscriber Listener} {rest : List (Subscriber Listener)}
    (progress : Progress k h begun handle b ⟨line, .calling, sub :: rest⟩)
    (client : sub.listener = .client k) :
    Progress k (.publish b (.heard (.client k) line) :: h) begun handle b ⟨line, .visiting, rest⟩ := by
  have last : entries k rest = [] := by
    have entry := progress.entry
    rw [entries_cons_self client] at entry
    rcases entry with none | ⟨x, -, one⟩
    · cases none
    · exact (List.cons.inj one).2
  have now : (b, line) ∈ told k (.publish b (.heard (.client k) line) :: h) := mem_told_cons.mpr (.inr rfl)
  constructor
  case numbered => exact fun hmem => progress.numbered ((List.mem_cons.mp hmem).resolve_left nofun)
  case live => exact fun _ => progress.live nofun
  case ended =>
    intro hmem
    have running := progress.not_over nofun
    exact absurd (by simpa using hmem) (not_or.mpr running)
  case entry => exact .inl last
  case pending => exact fun hpending => absurd last hpending
  case fate => exact fun _ => .inl now
  case complete => exact fun _ _ => .inl now

/-- A publish is over, be it that somebody has failed or that nobody is left. -/
theorem close (progress : Progress k h begun handle b state) (running : state.phase ≠ .ended)
    (ending : e = .publish b .failed ∨ (e = .publish b .finished ∧ state.rest = [])) :
    Progress k (e :: h) begun handle b ⟨state.line, .ended, []⟩ := by
  have notBegan (l : Text) : e ≠ .publish b (.began l) := by
    rcases ending with rfl | ⟨rfl, -⟩ <;> exact nofun
  have notHeard (l : Text) : e ≠ .publish b (.heard (.client k) l) := by
    rcases ending with rfl | ⟨rfl, -⟩ <;> exact nofun
  have hdue (l : Text) : (b, l) ∈ due k (e :: h) ↔ (b, l) ∈ due k h :=
    mem_due_cons.trans (or_iff_left fun now => notBegan l now.1)
  have htold (l : Text) : (b, l) ∈ told k (e :: h) ↔ (b, l) ∈ told k h :=
    mem_told_cons.trans (or_iff_left (notHeard l))
  constructor
  case numbered =>
    exact fun hmem => progress.numbered ((List.mem_cons.mp hmem).resolve_left (notBegan _).symm)
  case live => exact fun hlive => absurd rfl hlive
  case ended => exact fun _ => ⟨progress.live running, rfl⟩
  case entry => exact .inl rfl
  case pending => exact fun hpending => absurd rfl hpending
  case fate =>
    rw [hdue, htold]
    intro hmem
    rcases ending with rfl | ⟨rfl, nobody⟩
    · exact .inr (.inr (.inr List.mem_cons_self))
    · rcases progress.fate hmem with hmem | hpending | hleft | hfailed
      · exact .inl hmem
      · rw [nobody] at hpending
        exact absurd rfl hpending
      · exact .inr (.inr (.inl (List.mem_cons_of_mem _ hleft)))
      · exact absurd hfailed (progress.not_over running).2
  case complete =>
    rw [hdue, htold]
    intro hmem hfinished
    rcases ending with rfl | ⟨rfl, nobody⟩
    · exact absurd (by simpa using hfinished) (progress.not_over running).1
    · -- whom the publish has not told has left
      rcases progress.fate hmem with hmem | hpending | hleft | hfailed
      · exact .inl hmem
      · rw [nobody] at hpending
        exact absurd rfl hpending
      · exact .inr (.inl ⟨rfl, hleft⟩)
      · exact absurd hfailed (progress.not_over running).2

/-- A publish begins that has a client before it just where it is due to the client. -/
theorem began {line : Text} {subs : List (Subscriber Listener)} (fresh : Progress k h b handle b state)
    (tally : Tally k h) (standing : entries k subs ≠ [] ↔ .connected k ∈ h ∧ .left k ∉ h)
    (entry : entries k subs = [] ∨ ∃ x, handle = some x ∧ entries k subs = [⟨x.id, .client k⟩]) :
    Progress k (.publish b (.began line) :: h) (b + 1) handle b ⟨line, .visiting, subs⟩ := by
  have unbegun (l : Text) : .publish b (.began l) ∉ h := fun hmem =>
    Nat.lt_irrefl _ (fresh.numbered hmem).1
  have unended : .publish b .finished ∉ h ∧ .publish b .failed ∉ h :=
    ⟨fun hmem => Nat.lt_irrefl _ (fresh.ended (.inl hmem)).1,
      fun hmem => Nat.lt_irrefl _ (fresh.ended (.inr hmem)).1⟩
  have hdue : (b, line) ∈ due k (.publish b (.began line) :: h) ↔ .connected k ∈ h ∧ .left k ∉ h :=
    mem_due_cons.trans ((or_iff_right fun hmem => unbegun _ (began_of_mem_due hmem).1).trans (and_iff_right rfl))
  constructor
  case numbered =>
    intro l hmem
    rcases List.mem_cons.mp hmem with now | before
    · exact ⟨Nat.lt_succ_self _, (Stage.began.inj (Event.publish.inj now).2).symm⟩
    · exact absurd before (unbegun l)
  case live => exact fun _ => Nat.lt_succ_self _
  case ended => exact fun hmem => absurd (by simpa using hmem) (not_or.mpr unended)
  case entry => exact entry
  case pending =>
    refine fun hpending => ⟨hdue.mpr (standing.mp hpending), fun l hmem => ?_⟩
    have before := (mem_told_cons.mp hmem).resolve_right nofun
    exact unbegun _ (began_of_mem_due (tally.sound _ before)).1
  case fate => exact fun hmem => .inr (.inl (standing.mpr (hdue.mp hmem)))
  case complete => exact fun _ hmem => absurd (by simpa using hmem) unended.1

/-- What a publish does by itself.  A client that stands is not passed over. -/
theorem move (progress : Progress k h begun handle b state) {s s' : Station δ} {stage : Stage}
    (move : Broadcast.Move s state stage state' s')
    (stands : ∀ x, handle = some x → .left k ∉ h → s.bus.holds ⟨.rawTm, x.id⟩ = true) :
    Progress k (.publish b stage :: h) begun handle b state' := by
  have self (x : Handle) (hx : handle = some x) : handle = some x := hx
  cases move with
  | find =>
    exact progress.skip ⟨nofun, nofun, nofun, nofun⟩ (Nat.le_refl _) self rfl (iff_of_false nofun nofun)
      (.inl rfl)
  | @pass line sub rest gone =>
    refine progress.skip ⟨nofun, nofun, nofun, nofun⟩ (Nat.le_refl _) self rfl (iff_of_false nofun nofun) ?_
    by_cases client : sub.listener = .client k
    · have entry := progress.entry
      rw [entries_cons_self client] at entry ⊢
      rcases entry with none | ⟨x, hx, one⟩
      · cases none
      · obtain ⟨rfl, last⟩ := List.cons.inj one
        refine .inr ⟨last, ?_⟩
        by_contra stays
        exact Bool.false_ne_true (gone.symm.trans (stands x hx stays))
    · exact .inl (entries_cons_other client rest).symm
  | @hear line sub rest =>
    by_cases client : sub.listener = .client k
    · rw [client]
      exact progress.heard client
    · refine progress.skip ⟨nofun, fun l now => client ?_, nofun, nofun⟩ (Nat.le_refl _) self rfl
        (iff_of_false nofun nofun) (.inl (entries_cons_other client rest).symm)
      exact (Stage.heard.inj (Event.publish.inj now).2).1
  | fail => exact progress.close nofun (.inl rfl)
  | finish => exact progress.close nofun (.inr ⟨rfl, rfl⟩)

end Progress

/-! ## All publishes -/

/-- What the publishes come to for a client. -/
structure Course (k : Nat) (h : List Event) (t : Traffic δ) : Prop where
  tally : Tally k h
  progress : ∀ b, Progress k h t.begun t.station.telemetry[k]? b (t.broadcast b)

namespace Course

theorem start (start : Start t) : Course k [] t where
  tally := .nil
  progress b := by
    obtain ⟨hover, hrest⟩ := start.broadcast b
    exact {
      numbered := nofun
      live := fun running => absurd hover running
      ended := fun hmem => by simp at hmem
      entry := .inl (by rw [hrest]; rfl)
      pending := fun hpending => absurd (by rw [hrest]; rfl) hpending
      fate := nofun
      complete := nofun }

/-- Where nothing happens to any publish, their course goes on. -/
theorem other (course : Course k h t) (unpublished : ∀ b stage, e ≠ .publish b stage)
    (begun : u.begun = t.begun) (broadcast : u.broadcast = t.broadcast)
    (keeps : ∀ x, t.station.telemetry[k]? = some x → u.station.telemetry[k]? = some x) :
    Course k (e :: h) u where
  tally := by
    refine course.tally.other ?_ ?_
    · exact Option.eq_none_iff_forall_ne_some.mpr fun f hf => unpublished _ _ (begun?_eq_some_iff.mp hf)
    · exact Option.eq_none_iff_forall_ne_some.mpr fun f hf => unpublished _ _ (told?_eq_some_iff.mp hf)
  progress b := by
    rw [begun, broadcast]
    exact (course.progress b).skip (Event.skips_of_ne (unpublished b)) (Nat.le_refl _) keeps rfl Iff.rfl
      (.inl rfl)

/-- A publish that begins is due to those on the roll, and has them before it. -/
theorem begin (course : Course k h t) (roll : Roll h t) (line : Text) :
    Course k (.publish t.begun (.began line) :: h) (t.begin line) where
  tally := course.tally.began fun hmem => ((course.progress _).numbered hmem).1
  progress b := by
    by_cases hb : b = t.begun
    · subst hb
      rw [broadcast_begin]
      exact (course.progress t.begun).began course.tally roll.entries_ne_nil_iff roll.entry
    · rw [broadcast_begin_of_ne hb]
      refine (course.progress b).skip (Event.skips_of_ne fun stage now => hb ?_) (Nat.le_succ _)
        (fun x hx => hx) rfl Iff.rfl (.inl rfl)
      exact (Event.publish.inj now).1.symm

/-- A publish goes on. -/
theorem publish (course : Course k h t) (roll : Roll h t) {stage : Stage} {state : Broadcast} {s : Station δ}
    (move : Broadcast.Move t.station (t.broadcast b) stage state s) :
    Course k (.publish b stage :: h) { t.withBroadcast b state with station := s } where
  tally := by
    have progress := course.progress b
    generalize t.broadcast b = before at move progress
    cases move with
    | @hear line sub rest =>
      by_cases client : sub.listener = .client k
      · have hpending : entries k (sub :: rest) ≠ [] := by
          rw [entries_cons_self client]
          exact nofun
        obtain ⟨hdue, hnew⟩ := progress.pending hpending
        rw [client]
        exact course.tally.heard hdue hnew (progress.not_over nofun).1
      · refine course.tally.other rfl (Option.eq_none_iff_forall_ne_some.mpr fun f hf => client ?_)
        exact (Stage.heard.inj (Event.publish.inj (told?_eq_some_iff.mp hf)).2).1
    | _ => exact course.tally.other rfl rfl
  progress b' := by
    simp only [move.sameRoll.telemetry]
    by_cases hb : b' = b
    · subst hb
      simp only [broadcast_withBroadcast]
      exact (course.progress b').move move fun x hx stays => roll.holds hx stays
    · have same := broadcast_withBroadcast_of_ne hb t state
      simp only [same]
      refine (course.progress b').skip (Event.skips_of_ne fun stage now => hb ?_) (Nat.le_refl _)
        (fun x hx => hx) rfl Iff.rfl (.inl rfl)
      exact (Event.publish.inj now).1.symm

theorem step (course : Course k h t) (roll : Roll h t) (step : Step t e u) : Course k (e :: h) u := by
  cases step with
  | connect name =>
    refine course.other nofun rfl rfl fun x hx => ?_
    rw [Station.telemetry_acceptClient, List.getElem?_append_left (List.getElem?_eq_some_iff.mp hx).1]
    exact hx
  | @leave _ j =>
    exact course.other nofun rfl rfl fun x hx => (Station.telemetry_dropClient j t.station).symm ▸ hx
  | turn => exact course.other nofun rfl rfl fun x hx => hx
  | quit => exact course.other nofun rfl rfl fun x hx => hx
  | begin line => exact course.begin roll line
  | publish move => exact course.publish roll move
  | other quiet => exact course.other nofun rfl rfl fun x hx => by rwa [quiet.sameRoll.telemetry]

/-- A publish that has come to its end has told whom it was due to, but those who left before. -/
theorem complete (course : Course k h t) {f : Nat × Text} (hf : f ∈ due k h)
    (finished : .publish f.1 .finished ∈ h) :
    f ∈ told k h ∨ Precedes (.left k) (.publish f.1 .finished) h := by
  obtain ⟨b, line⟩ := f
  have progress := course.progress b
  obtain ⟨-, rfl⟩ := progress.numbered (began_of_mem_due hf).1
  exact progress.complete hf finished

theorem of_path (begin : Start t) (path : Path t h u) : Course k h u := by
  induction path with
  | refl => exact start begin
  | step path step ih => exact ih.step (.of_path begin path) step

end Course

end Traffic

end GroundStation
