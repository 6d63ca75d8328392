/-
# What one publish comes to

`deliver` calls the subscribers that a channel had when the publish began, on a state that the calls
change.  In a station nearly every publish is of one of two shapes, and both are settled here:

* the topic has one listener, and the publish is the call of it (`deliver_one`);
* of many listeners one takes the message and the others, before and behind it, pass it by
  (`deliver_only`).

Where listeners act on what they hear, a publish is no more than its calls.  What holds of each call, and
adds up, holds of the publish (`deliver_calls`), also of one that a failure cuts short.

The second part is about who listens to a topic.  `Bus.listeners` forgets the ids of subscriptions, which
is what a property of a station wants to say; a subscription adds a listener at the end, and to cancel
it leaves the listeners of every other topic alone.
-/
import GroundStation.Bus.Basic

namespace GroundStation

/-! ## One publish -/

section Deliver

variable {κ σ ε : Type} {stands : Nat → σ → Bool} {call : κ → σ → Except ε Unit × σ}

/-- Who does not stand any more is passed over. -/
theorem deliver_cons_of_not_stands {sub : Subscriber κ} {rest : List (Subscriber κ)} {s : σ}
    (hs : ¬stands sub.id s = true) :
    deliver stands call (sub :: rest) s = deliver stands call rest s := by
  rw [deliver, if_neg hs]

/-- A call that fails ends the publish. -/
theorem deliver_cons_of_error {sub : Subscriber κ} {rest : List (Subscriber κ)} {s t : σ} {e : ε}
    (hs : stands sub.id s = true) (hcall : call sub.listener s = (.error e, t)) :
    deliver stands call (sub :: rest) s = (.error e, t) := by
  rw [deliver, if_pos hs, hcall]

/-- A call that does not fail counts, and the publish goes on from where it has led. -/
theorem deliver_cons_of_ok {sub : Subscriber κ} {rest : List (Subscriber κ)} {s t : σ}
    (hs : stands sub.id s = true) (hcall : call sub.listener s = (.ok (), t)) :
    deliver stands call (sub :: rest) s =
      ((deliver stands call rest t).1.map (· + 1), (deliver stands call rest t).2) := by
  rw [deliver, if_pos hs, hcall]
  dsimp only
  rcases deliver stands call rest t with ⟨_ | _, _⟩ <;> rfl

/-- Subscribers who pass a message by leave the state as it is. -/
theorem deliver_inert {s : σ} :
    ∀ {subs : List (Subscriber κ)}, (∀ sub ∈ subs, call sub.listener s = (.ok (), s)) →
      ∃ n, deliver stands call subs s = (.ok n, s)
  | [], _ => ⟨0, rfl⟩
  | sub :: rest, h => by
      obtain ⟨n, hn⟩ := deliver_inert fun x hx => h x (List.mem_cons_of_mem _ hx)
      by_cases hs : stands sub.id s = true
      · refine ⟨n + 1, ?_⟩
        rw [deliver, if_pos hs, h sub List.mem_cons_self]
        simp only [hn]
      · refine ⟨n, ?_⟩
        rw [deliver, if_neg hs, hn]

/-- Where nobody of a first list of subscribers fails, a publish goes on to the second. -/
theorem deliver_append_of_ok {s t : σ} {n : Nat} {post : List (Subscriber κ)} :
    ∀ {pre : List (Subscriber κ)}, deliver stands call pre s = (.ok n, t) →
      deliver stands call (pre ++ post) s =
        ((deliver stands call post t).1.map fun m => n + m, (deliver stands call post t).2)
  | [], hpre => by
      cases hpre
      rw [List.nil_append]
      rcases deliver stands call post s with ⟨_ | m, u⟩
      · rfl
      · simp only [Except.map, Nat.zero_add]
  | sub :: rest, hpre => by
      rw [List.cons_append, deliver]
      rw [deliver] at hpre
      by_cases hs : stands sub.id s = true
      · rw [if_pos hs] at hpre ⊢
        rcases hc : call sub.listener s with ⟨_ | _, s'⟩
        · rw [hc] at hpre
          cases hpre
        · rw [hc] at hpre
          dsimp only at hpre ⊢
          rcases hd : deliver stands call rest s' with ⟨_ | k, t'⟩
          · rw [hd] at hpre
            cases hpre
          · rw [hd] at hpre
            cases hpre
            rw [deliver_append_of_ok hd]
            rcases deliver stands call post t with ⟨_ | m, u⟩
            · rfl
            · simp only [Except.map, Nat.add_right_comm]
      · rw [if_neg hs] at hpre ⊢
        exact deliver_append_of_ok hpre

/-- A publish to two lists of subscribers goes on to the second where the first has left the state. -/
theorem deliver_append {s t u : σ} {n m : Nat} {pre post : List (Subscriber κ)}
    (hpre : deliver stands call pre s = (.ok n, t)) (hpost : deliver stands call post t = (.ok m, u)) :
    deliver stands call (pre ++ post) s = (.ok (n + m), u) := by
  rw [deliver_append_of_ok hpre, hpost]
  rfl

/-- A publish to one standing subscriber is the call of it. -/
theorem deliver_one {s : σ} {sub : Subscriber κ} (hs : stands sub.id s = true) :
    deliver stands call [sub] s =
      ((call sub.listener s).1.map fun _ => 1, (call sub.listener s).2) := by
  rw [deliver, if_pos hs]
  rcases call sub.listener s with ⟨_ | _, t⟩ <;> rfl

/-- Where all subscribers but one pass the message by, the publish comes to the call of that one. -/
theorem deliver_only {s t : σ} {pre post : List (Subscriber κ)} {sub : Subscriber κ}
    (hpre : ∀ x ∈ pre, call x.listener s = (.ok (), s))
    (hs : stands sub.id s = true) (hsub : call sub.listener s = (.ok (), t))
    (hpost : ∀ x ∈ post, call x.listener t = (.ok (), t)) :
    ∃ n, deliver stands call (pre ++ sub :: post) s = (.ok n, t) := by
  obtain ⟨k, hk⟩ : ∃ k, deliver stands call pre s = (.ok k, s) := deliver_inert hpre
  obtain ⟨m, hm⟩ : ∃ m, deliver stands call post t = (.ok m, t) := deliver_inert hpost
  have hone : deliver stands call [sub] s = (.ok 1, t) := by
    rw [deliver_one hs, hsub]
    rfl
  exact ⟨k + (1 + m), deliver_append hk (deliver_append hone hm)⟩

/-! ### Calls that say something

Where the subscribers do not pass a message by, a publish comes to the calls that it makes, one after
another.  It makes them up to the first that fails, and this one has acted too. -/

/-- The calls that a publish makes: who is called, and in which state. -/
def calls (stands : Nat → σ → Bool) (call : κ → σ → Except ε Unit × σ) :
    List (Subscriber κ) → σ → List (κ × σ)
  | [], _ => []
  | sub :: rest, s =>
    if stands sub.id s then
      (sub.listener, s) :: match call sub.listener s with
        | (.ok (), t) => calls stands call rest t
        | (.error _, _) => []
    else calls stands call rest s

/-- Only subscribers are called. -/
theorem mem_calls {subs : List (Subscriber κ)} {s : σ} {c : κ × σ} (h : c ∈ calls stands call subs s) :
    c.1 ∈ subs.map Subscriber.listener := by
  induction subs generalizing s with
  | nil => cases h
  | cons sub rest ih =>
    rw [calls] at h
    rw [List.map_cons]
    split at h
    · rcases List.mem_cons.mp h with rfl | h
      · exact List.mem_cons_self
      · split at h
        · exact List.mem_cons_of_mem _ (ih h)
        · cases h
    · exact List.mem_cons_of_mem _ (ih h)

/-- What each call comes to, one after another, is what the publish comes to, whether it fails or not. -/
theorem deliver_calls {α : Type} {R : σ → List α → σ → Prop} {f : κ → σ → List α}
    (refl : ∀ s, R s [] s) (trans : ∀ {s t u as bs}, R s as t → R t bs u → R s (as ++ bs) u)
    {subs : List (Subscriber κ)}
    (step : ∀ sub ∈ subs, ∀ s, R s (f sub.listener s) (call sub.listener s).2) (s : σ) :
    R s ((calls stands call subs s).flatMap fun c => f c.1 c.2) (deliver stands call subs s).2 := by
  induction subs generalizing s with
  | nil => exact refl s
  | cons sub rest ih =>
    have later := ih fun x hx => step x (List.mem_cons_of_mem _ hx)
    have first := step sub List.mem_cons_self s
    rw [calls, deliver]
    by_cases hs : stands sub.id s = true
    · rw [if_pos hs, if_pos hs, List.flatMap_cons]
      rcases hc : call sub.listener s with ⟨_ | _, t⟩
      · rw [hc] at first
        rw [List.flatMap_nil, List.append_nil]
        exact first
      · rw [hc] at first
        have both := trans first (later t)
        dsimp only
        rcases hd : deliver stands call rest t with ⟨_ | _, u⟩ <;> rw [hd] at both <;> exact both
    · rw [if_neg hs, if_neg hs]
      exact later s

/-- What every call keeps is kept by the publish. -/
theorem deliver_keeps {R : σ → σ → Prop} (refl : ∀ s, R s s) (trans : ∀ {s t u}, R s t → R t u → R s u)
    {subs : List (Subscriber κ)} (step : ∀ sub ∈ subs, ∀ s, R s (call sub.listener s).2) (s : σ) :
    R s (deliver stands call subs s).2 :=
  deliver_calls (α := Unit) (R := fun s _ t => R s t) (f := fun _ _ => []) refl trans step s

/-- Where no call fails, the publish does not, and it keeps what every call keeps. -/
theorem deliver_passes {R : σ → σ → Prop} (refl : ∀ s, R s s) (trans : ∀ {s t u}, R s t → R t u → R s u)
    {subs : List (Subscriber κ)}
    (step : ∀ sub ∈ subs, ∀ s, (call sub.listener s).1 = .ok () ∧ R s (call sub.listener s).2) (s : σ) :
    ∃ n t, deliver stands call subs s = (.ok n, t) ∧ R s t := by
  induction subs generalizing s with
  | nil => exact ⟨0, s, rfl, refl s⟩
  | cons sub rest ih =>
    have later := ih fun x hx => step x (List.mem_cons_of_mem _ hx)
    rw [deliver]
    by_cases hs : stands sub.id s = true
    · obtain ⟨hok, hR⟩ := step sub List.mem_cons_self s
      rcases hc : call sub.listener s with ⟨r, t⟩
      rw [hc] at hok hR
      cases hok
      obtain ⟨n, u, hd, hR'⟩ := later t
      rw [if_pos hs]
      exact ⟨n + 1, u, by simp only [hd], trans hR hR'⟩
    · rw [if_neg hs]
      exact later s

/-- Where every call answers to one on another state, so does the publish. -/
theorem deliver_map {f : σ → σ} {I : σ → Prop} (same : ∀ id s, I s → stands id (f s) = stands id s)
    (keeps : ∀ l s, I s → I (call l s).2)
    (calls : ∀ l s, I s → call l (f s) = ((call l s).1, f (call l s).2)) (subs : List (Subscriber κ)) :
    ∀ {s : σ}, I s → deliver stands call subs (f s) =
      ((deliver stands call subs s).1, f (deliver stands call subs s).2) := by
  induction subs with
  | nil => exact fun _ => rfl
  | cons sub rest ih =>
    intro s h
    rw [deliver, deliver, same sub.id s h]
    split
    · have hI := keeps sub.listener s h
      rw [calls sub.listener s h]
      rcases hcall : call sub.listener s with ⟨_ | _, t⟩
      · rfl
      · rw [hcall] at hI
        have later := ih hI
        dsimp only
        rw [later]
        rcases deliver stands call rest t with ⟨_ | _, u⟩ <;> rfl
    · exact ih h

/-- A subscriber who stands when its turn comes is called, unless a failure ends the publish before. -/
theorem deliver_called {R : σ → σ → Prop} (refl : ∀ s, R s s)
    (trans : ∀ {s t u}, R s t → R t u → R s u) {subs : List (Subscriber κ)}
    (step : ∀ sub ∈ subs, ∀ s, R s (call sub.listener s).2) {sub : Subscriber κ} (hsub : sub ∈ subs)
    {s t : σ} {n : Nat} (h : deliver stands call subs s = (.ok n, t))
    (turn : ∀ u, R s u → R u t → stands sub.id u = true) :
    ∃ u v, R s u ∧ call sub.listener u = (.ok (), v) ∧ R v t := by
  induction subs generalizing s n with
  | nil => cases hsub
  | cons x rest ih =>
    have later := fun y hy => step y (List.mem_cons_of_mem _ hy)
    have kept : ∀ u, R u (deliver stands call rest u).2 := deliver_keeps refl trans later
    by_cases hs : stands x.id s = true
    · rcases hcall : call x.listener s with ⟨_ | _, s'⟩
      · rw [deliver_cons_of_error hs hcall] at h
        cases h
      · have first := step x List.mem_cons_self s
        have onward := kept s'
        rw [hcall] at first
        rw [deliver_cons_of_ok hs hcall] at h
        rcases hrest : deliver stands call rest s' with ⟨_ | m, t'⟩ <;> rw [hrest] at h onward
        · cases h
        · cases h
          rcases List.mem_cons.mp hsub with rfl | hmem
          · exact ⟨s, s', refl s, hcall, onward⟩
          · obtain ⟨u, v, hu, hv, ht⟩ := ih later hmem hrest fun u h₁ h₂ => turn u (trans first h₁) h₂
            exact ⟨u, v, trans first hu, hv, ht⟩
    · rw [deliver_cons_of_not_stands hs] at h
      rcases List.mem_cons.mp hsub with rfl | hmem
      · have reached := kept s
        rw [h] at reached
        exact absurd (turn s (refl s) reached) hs
      · exact ih later hmem h turn

end Deliver

/-! ## Who listens -/

/-- A subscription that is not the newest may be cancelled before or behind it. -/
theorem Channel.cancel_subscribe {κ : Type} {c : Channel κ} {id : Nat} (ne : c.nextId ≠ id) (l : κ) :
    (c.subscribe l).cancel id = (c.cancel id).subscribe l := by
  have same : (c.subscribe l).holds id = c.holds id := by
    rw [Bool.eq_iff_iff, holds_eq_true_iff, holds_eq_true_iff]
    simp [subscribe, ne.symm]
  by_cases h : c.holds id = true
  · rw [cancel, cancel, same, if_pos h, if_pos h]
    simp [subscribe, lower, unlist, ne]
  · rw [cancel, cancel, same, if_neg h, if_neg h]

namespace Bus

variable {κ : Type}

/-- The listeners of a topic, in the order in which they are called. -/
def listeners (b : Bus κ) (topic : Topic) : List κ :=
  (b.channel topic).subscribers.map Subscriber.listener

/-- Every subscriber of a channel stands. -/
theorem holds_of_mem {b : Bus κ} {topic : Topic} {sub : Subscriber κ}
    (h : sub ∈ (b.channel topic).subscribers) : b.holds ⟨topic, sub.id⟩ = true :=
  (b.agree_channel topic).holds_iff.mpr ⟨sub, h, rfl⟩

theorem channel_subscribe (b : Bus κ) (topic other : Topic) (l : κ) :
    (b.subscribe topic l).2.channel other =
      if topic = other then (b.channel other).subscribe l else b.channel other := by
  by_cases h : topic = other
  · subst h
    simp [subscribe]
  · simp [subscribe, h]

theorem channel_cancel (b : Bus κ) (h : Handle) (other : Topic) :
    (b.cancel h).channel other =
      if h.topic = other then (b.channel other).cancel h.id else b.channel other := by
  by_cases ht : h.topic = other
  · subst ht
    simp [cancel]
  · simp [cancel, ht]

/-- A cancellation gives no id back. -/
theorem nextId_cancel (b : Bus κ) (h : Handle) (topic : Topic) :
    ((b.cancel h).channel topic).nextId = (b.channel topic).nextId := by
  rw [channel_cancel]
  split
  · exact Channel.nextId_cancel _ _
  · rfl

theorem channel_subscribe_of_ne {topic other : Topic} (ne : topic ≠ other) (b : Bus κ) (l : κ) :
    (b.subscribe topic l).2.channel other = b.channel other := by
  rw [channel_subscribe, if_neg ne]

theorem channel_cancel_of_ne {h : Handle} {other : Topic} (ne : h.topic ≠ other) (b : Bus κ) :
    (b.cancel h).channel other = b.channel other := by
  rw [channel_cancel, if_neg ne]

/-- A new listener is the last to be called. -/
theorem listeners_subscribe (b : Bus κ) (topic other : Topic) (l : κ) :
    (b.subscribe topic l).2.listeners other =
      if topic = other then b.listeners other ++ [l] else b.listeners other := by
  by_cases h : topic = other <;> simp [listeners, channel_subscribe, h, Channel.subscribe]

/-- To cancel a subscription changes no other topic. -/
theorem listeners_cancel {b : Bus κ} {h : Handle} {topic : Topic} (ne : h.topic ≠ topic) :
    (b.cancel h).listeners topic = b.listeners topic := by
  rw [listeners, channel_cancel_of_ne ne, listeners]

/-- A topic that only the holder of a subscription listens to is empty when that is cancelled. -/
theorem listeners_cancel_subscribe {b : Bus κ} {topic : Topic} {l : κ} (h : b.listeners topic = []) :
    ((b.subscribe topic l).2.cancel (b.subscribe topic l).1).listeners topic = [] := by
  have hnil : (b.channel topic).subscribers = [] := List.map_eq_nil_iff.mp h
  have hhandle : (b.subscribe topic l).1 = ⟨topic, (b.channel topic).nextId⟩ := rfl
  rw [hhandle, listeners, channel_cancel, if_pos rfl, channel_subscribe, if_pos rfl,
    ((b.agree_channel topic).subscribe l).subscribers_cancel]
  simp [Channel.subscribe, hnil]

end Bus

end GroundStation
