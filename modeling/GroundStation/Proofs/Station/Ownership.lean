/-
# Who answers for a subscription

The subscriptions of a station have owners: the controller, which has two for good and one as long as it
waits for an answer, the gateway, and each instrument in service.  An owner keeps the handles of its
subscriptions and gives one up only in the step that cancels it.  So no part of the station listens on any
topic whose handle is not kept somewhere (`Owned`), and who cancels all handles that are kept leaves
nobody listening but those outside.
-/
import GroundStation.Proofs.Station.Reach

namespace GroundStation

/-! ## A list with one element changed -/

section Modify

variable {α β : Type} {f : α → α} {l : List α} {index : Nat} {a : α}

theorem mem_or_eq_of_mem_modify (h : a ∈ l.modify index f) :
    a ∈ l ∨ ∃ b, l[index]? = some b ∧ a = f b := by
  obtain ⟨j, hj⟩ := List.mem_iff_getElem?.mp h
  rw [List.getElem?_modify] at hj
  obtain ⟨b, hb, rfl⟩ := Option.map_eq_some_iff.mp hj
  split
  · next heq => exact .inr ⟨b, heq ▸ hb, rfl⟩
  · exact .inl (List.mem_of_getElem? hb)

theorem map_modify_eq {g : α → β} (same : ∀ a, l[index]? = some a → g (f a) = g a) :
    (l.modify index f).map g = l.map g := by
  refine List.ext_getElem? fun j => ?_
  rw [List.getElem?_map, List.getElem?_map, List.getElem?_modify]
  cases ha : l[j]? with
  | none => rfl
  | some a =>
    show some (g (if index = j then f a else a)) = some (g a)
    split
    · next heq => rw [same a (heq ▸ ha)]
    · rfl

theorem modify_eq_self (same : ∀ a, l[index]? = some a → f a = a) : l.modify index f = l := by
  have kept : (l.modify index f).map id = l.map id := map_modify_eq same
  rwa [List.map_id, List.map_id] at kept

/-- A count with the element there was makes up for one with the element there is. -/
theorem countP_modify {q : α → Bool} (ha : l[index]? = some a) :
    (l.modify index f).countP q + (q a).toNat = l.countP q + (q (f a)).toNat := by
  induction l generalizing index with
  | nil => cases ha
  | cons b rest ih =>
    cases index with
    | zero =>
      cases ha
      rw [List.modify_zero_cons, List.countP_cons, List.countP_cons]
      cases q a <;> cases q (f a) <;> rfl
    | succ index =>
      have later := ih ha
      rw [List.modify_succ_cons, List.countP_cons, List.countP_cons]
      omega

end Modify

namespace Station

variable {δ : Type}

/-! ## Handles that are kept -/

/-- The handles of the subscriptions of the station. -/
def handles (s : Station δ) : List Handle :=
  s.controller.subscriptions ++ s.controller.pending.toList ++ s.gateway ++
    s.services.flatMap Service.subscriptions

/-- No part of the station listens whose handle is not kept. -/
def Owned (s : Station δ) : Prop :=
  ∀ topic, ∀ sub ∈ (s.bus.channel topic).subscribers, sub.listener.isOutside = false →
    (⟨topic, sub.id⟩ : Handle) ∈ s.handles

/-- Where each subscriber has been there, with a handle that is not given up, or has one that is kept. -/
theorem Owned.of_subscribers {s t : Station δ} (owned : Owned s)
    (each : ∀ topic, ∀ sub ∈ (t.bus.channel topic).subscribers, sub.listener.isOutside = false →
      (sub ∈ (s.bus.channel topic).subscribers ∧
        ((⟨topic, sub.id⟩ : Handle) ∈ s.handles → (⟨topic, sub.id⟩ : Handle) ∈ t.handles)) ∨
      (⟨topic, sub.id⟩ : Handle) ∈ t.handles) : Owned t := by
  intro topic sub hsub own
  rcases each topic sub hsub own with ⟨hold, kept⟩ | hnew
  · exact kept (owned topic sub hold own)
  · exact hnew

/-- To cancel subscriptions of whomever leaves all handles kept. -/
theorem Owned.cancelAll {s t : Station δ} (owned : Owned s) (hs : List Handle)
    (bus : t.bus = s.bus.cancelAll hs) (same : t.handles = s.handles) : Owned t := by
  refine owned.of_subscribers fun topic sub hsub _ => .inl ?_
  rw [bus] at hsub
  exact ⟨(Bus.mem_channel_cancelAll.mp hsub).1, fun h => same ▸ h⟩

theorem Owned.subscribe {s t : Station δ} (owned : Owned s) {topic : Topic} {l : Listener}
    (bus : t.bus = (s.bus.subscribe topic l).2) (outside : l.isOutside = true)
    (same : t.handles = s.handles) : Owned t := by
  refine owned.of_subscribers fun other sub hsub own => .inl ?_
  rw [bus] at hsub
  rcases Bus.mem_channel_subscribe.mp hsub with hold | ⟨-, rfl⟩
  · exact ⟨hold, fun h => same ▸ h⟩
  · cases own.symm.trans outside

theorem handles_withInstrument (s : Station δ) (index : Nat) (i : Instrument δ) (d : δ) :
    (s.withInstrument index i d).handles = s.handles := by
  have same : (s.withInstrument index i d).services.map Service.subscriptions =
      s.services.map Service.subscriptions := by
    exact map_modify_eq fun _ _ => rfl
  rw [handles, handles, List.flatMap_def, List.flatMap_def, same]
  rfl

theorem handles_enter (s : Station δ) (i : Instrument δ) :
    (s.enter i).handles = s.handles ++
      [⟨.ioRequest, (s.bus.channel .ioRequest).nextId⟩, ⟨.quit, (s.bus.channel .quit).nextId⟩] := by
  rw [enter_eq]
  simp [handles, List.flatMap_append]

/-- To wait with another handle, or with none, gives up no other. -/
theorem mem_handles_withPending {s : Station δ} {h : Handle} (mem : h ∈ s.handles)
    (kept : h ∉ s.controller.pending.toList) (pending : Option Handle) :
    h ∈ (s.withPending pending).handles := by
  simp only [handles, List.mem_append] at mem ⊢
  exact mem.imp_left (Or.imp_left (Or.imp_right fun hpending => absurd hpending kept))

namespace Owned

variable {s : Station δ}

theorem await (owned : Owned s) : Owned s.await := by
  refine owned.of_subscribers fun topic sub hsub _ => ?_
  obtain ⟨hsub, kept⟩ := Bus.mem_channel_cancelAll.mp hsub
  rcases Bus.mem_channel_subscribe.mp hsub with hold | ⟨rfl, rfl⟩
  · exact .inl ⟨hold, fun h => mem_handles_withPending h kept _⟩
  · refine .inr ?_
    simp only [handles, List.mem_append]
    exact .inl (.inl (.inr (List.mem_singleton.mpr rfl)))

theorem answered (owned : Owned s) {h : Handle} (full : s.controller.pending = some h) :
    Owned ((s.withPending none).cancelAll [h]) := by
  refine owned.of_subscribers fun topic sub hsub _ => .inl ?_
  obtain ⟨hsub, kept⟩ := Bus.mem_channel_cancelAll.mp hsub
  refine ⟨hsub, fun mem => mem_handles_withPending mem ?_ none⟩
  rw [full]
  exact kept

/-- An instrument that leaves holds nothing that still stands. -/
theorem leave (owned : Owned s) {index : Nat} {v : Service δ} (hv : s.services[index]? = some v) :
    Owned { s.cancelAll v.subscriptions with
      services := s.services.modify index fun w => { w with subscriptions := [] } } := by
  refine owned.of_subscribers fun topic sub hsub _ => .inl ?_
  obtain ⟨hsub, kept⟩ := Bus.mem_channel_cancelAll.mp hsub
  refine ⟨hsub, fun mem => ?_⟩
  simp only [handles, List.mem_append] at mem ⊢
  refine mem.imp_right fun hservice => ?_
  obtain ⟨w, hw, hmem⟩ := List.mem_flatMap.mp hservice
  obtain ⟨j, hj⟩ := List.mem_iff_getElem?.mp hw
  have ne : index ≠ j := by
    rintro rfl
    cases hv.symm.trans hj
    exact kept hmem
  refine List.mem_flatMap.mpr ⟨w, List.mem_iff_getElem?.mpr ⟨j, ?_⟩, hmem⟩
  exact (List.getElem?_modify_ne _ _ ne).trans hj

theorem enter (owned : Owned s) (i : Instrument δ) : Owned (s.enter i) := by
  have hquit : (s.bus.subscribe .ioRequest (.instrument s.services.length)).2.channel .quit =
      s.bus.channel .quit := Bus.channel_subscribe_of_ne (by decide) _ _
  have grown := handles_enter s i
  refine owned.of_subscribers fun topic sub hsub _ => ?_
  rcases Bus.mem_channel_subscribe.mp hsub with hsub | ⟨rfl, rfl⟩
  · rcases Bus.mem_channel_subscribe.mp hsub with hold | ⟨rfl, rfl⟩
    · exact .inl ⟨hold, fun h => grown ▸ List.mem_append_left _ h⟩
    · exact .inr (grown ▸ List.mem_append_right _ List.mem_cons_self)
  · have last : (⟨.quit, ((s.bus.subscribe .ioRequest (.instrument s.services.length)).2.channel
        .quit).nextId⟩ : Handle) ∈ (s.enter i).handles := by
      rw [hquit, grown]
      exact List.mem_append_right _ (List.mem_cons_of_mem _ List.mem_cons_self)
    exact .inr last

theorem refuse (owned : Owned s) : Owned s.refuse := by
  refine owned.of_subscribers fun topic sub hsub _ => .inl ⟨?_, id⟩
  obtain ⟨hsub, kept⟩ := Bus.mem_channel_cancelAll.mp hsub
  rcases Bus.mem_channel_subscribe.mp hsub with hsub | ⟨rfl, rfl⟩
  · rcases Bus.mem_channel_subscribe.mp hsub with hold | ⟨rfl, rfl⟩
    · exact hold
    · exact absurd List.mem_cons_self kept
  · exact absurd (List.mem_cons_of_mem _ List.mem_cons_self) kept

theorem detach (owned : Owned s) : Owned s.detach := by
  refine owned.of_subscribers fun topic sub hsub _ => .inl ?_
  obtain ⟨hsub, -⟩ := Bus.mem_channel_cancelAll.mp hsub
  obtain ⟨hsub, kept⟩ := Bus.mem_channel_cancelAll.mp hsub
  rw [List.mem_append, not_or] at kept
  exact ⟨hsub, fun h => mem_handles_withPending h kept.2 none⟩

end Owned

theorem Lasting.owned : Lasting (fun s : Station δ => s.Owned) where
  change := by
    intro s t change owned
    cases change with
    | heard | registered | sent => exact owned
    | awaited => exact owned.await
    | answered full => exact owned.answered full
    | operated op hv => exact owned.cancelAll [] rfl (handles_withInstrument ..)
    | left hv => exact owned.leave hv
    | joined topic _ outside => exact owned.subscribe rfl outside rfl
    | departed => exact owned.cancelAll _ rfl rfl
    | opened | accepted => exact owned.subscribe rfl rfl rfl
    | dropped index =>
      unfold dropClient
      split
      · exact owned
      · exact owned.cancelAll _ rfl rfl
    | stopped => exact owned.cancelAll _ rfl rfl
  enter := fun _ owned => owned.enter _
  refuse := Owned.refuse

theorem owned_run {registry : Registry δ} {devices : δ} {now : Binary64}
    {early : List (Topic × Option Text)} (acts : List Act) :
    Owned (run acts (opened registry devices now early)) := by
  refine Lasting.owned.run Owned.detach acts ?_
  obtain ⟨bus, -, outside, heq⟩ := opened_eq registry devices now early
  rw [heq]
  have fresh : Owned (start { (bare registry devices now : Station δ) with bus }) := by
    intro topic sub hsub own
    rcases Bus.mem_channel_subscribe.mp hsub with hsub | ⟨rfl, rfl⟩
    · rcases Bus.mem_channel_subscribe.mp hsub with hsub | ⟨rfl, rfl⟩
      · rcases Bus.mem_channel_subscribe.mp hsub with hsub | ⟨rfl, rfl⟩
        · rcases Bus.mem_channel_subscribe.mp hsub with hold | ⟨rfl, rfl⟩
          · have early := outside topic _ (List.mem_map_of_mem hold)
            cases own.symm.trans early
          · exact List.mem_cons_self
        · exact List.mem_cons_of_mem _ List.mem_cons_self
      · exact List.mem_cons_of_mem _ (List.mem_cons_of_mem _ List.mem_cons_self)
    · exact List.mem_cons_of_mem _ (List.mem_cons_of_mem _ (List.mem_cons_of_mem _ List.mem_cons_self))
  exact fresh

end Station

end GroundStation
