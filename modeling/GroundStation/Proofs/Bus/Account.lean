/-
# Callbacks that subscribe, cancel and publish

What a callback publishes calls further callbacks, which may publish in turn, so a run of a program is a
tree of publishes.  `Account` gives an account of such a tree: it leads through all the moments of the run,
and it describes every publish by its visits, those deep inside other publishes too.

Every run has an account, and an account leaves nothing open: the program runs in this way and in no other
(`Program.run_account`).  A run is given a bound on the depth of publishes inside publishes.  Where it meets
the bound, the account goes as far as the run does; where an account does not meet it, every bound that is
high enough gives this run.
-/
import GroundStation.Proofs.Bus.Standing
import GroundStation.Proofs.Bus.Visits

namespace GroundStation

variable {σ μ ε : Type}

/-- An account of a run of a program, from moment to moment. -/
inductive Account : Program σ μ ε → Moment σ μ ε → Except (Halt ε) Unit → Moment σ μ ε → Prop
  | done {m} : Account .done m (.ok ()) m
  | fail {e m} : Account (.fail e) m (.error (.failed e)) m
  | read {next m r m'} : Account (next m.hub.state) m r m' → Account (.read next) m r m'
  | write {change next m r m'} :
      Account next (m.write change) r m' → Account (.write change next) m r m'
  | subscribe {topic callback next m r m'} :
      Account (next (m.hub.bus.subscribe topic callback).1) (m.subscribe topic callback) r m' →
      Account (.subscribe topic callback next) m r m'
  | cancel {handle next m r m'} :
      Account next (m.cancel handle) r m' → Account (.cancel handle next) m r m'
  /-- A publish, and how the program goes on by its answer. -/
  | publish {topic message next m visits m₁ r m'} {answer : Except ε Nat} :
      Delivery topic m (m.present topic) m visits (answer.mapError .failed) m₁ →
      Visit.EveryCall (fun sub => Account (sub.listener message)) visits →
      Account (next answer) m₁ r m' → Account (.publish topic message next) m r m'
  /-- A publish that ends with one inside it that is beyond the bound. -/
  | cut {topic message next m visits m'} :
      Delivery topic m (m.present topic) m visits (.error .tooDeep) m' →
      Visit.EveryCall (fun sub => Account (sub.listener message)) visits →
      Account (.publish topic message next) m (.error .tooDeep) m'
  /-- A publish that is itself beyond the bound. -/
  | beyond {topic message next m} : Account (.publish topic message next) m (.error .tooDeep) m

/-- The past of a moment begins with that of an earlier one. -/
theorem Account.grows {p : Program σ μ ε} {m m' : Moment σ μ ε} {r : Except (Halt ε) Unit}
    (account : Account p m r m') : m.past <+: m'.past := by
  induction account with
  | done => exact List.prefix_rfl
  | fail => exact List.prefix_rfl
  | read _ ih => exact ih
  | write _ ih => exact ih
  | subscribe _ ih => exact (List.prefix_append _ _).trans ih
  | cancel _ ih => exact (List.prefix_append _ _).trans ih
  | publish hdelivery _ _ ihcalls ih => exact (hdelivery.consecutive.grows ihcalls).trans ih
  | cut hdelivery _ ihcalls => exact hdelivery.consecutive.grows ihcalls
  | beyond => exact List.prefix_rfl

/-! ## Every run has an account -/

/-- A run from a moment has an account, and it leads to the hub that the run leaves. -/
def Accounted (p : Program σ μ ε) (m : Moment σ μ ε) (outcome : Except (Halt ε) Unit × Hub σ μ ε) :
    Prop :=
  ∃ m', m'.hub = outcome.2 ∧ Account p m outcome.1 m'

/-- A publish is beyond the bound, or it has visits and an account of each call. -/
def Told (topic : Topic) (message : μ) (m : Moment σ μ ε) (outcome : Except (Halt ε) Nat × Hub σ μ ε) :
    Prop :=
  outcome = (.error .tooDeep, m.hub) ∨
    ∃ visits m', m'.hub = outcome.2 ∧ Delivery topic m (m.present topic) m visits outcome.1 m' ∧
      Visit.EveryCall (fun sub => Account (sub.listener message)) visits

/-- Where all runs of callbacks have an account, what is left of a publish has visits. -/
theorem exists_delivery {run : Program σ μ ε → Hub σ μ ε → Except (Halt ε) Unit × Hub σ μ ε}
    (runs : ∀ p m, Accounted p m (run p m.hub)) {topic : Topic} {message : μ} {start : Moment σ μ ε} :
    ∀ {subs : List (Subscriber (μ → Program σ μ ε))} {m : Moment σ μ ε},
      (∀ sub ∈ subs, sub ∈ start.present topic) → start.past <+: m.past →
      ∃ visits m', m'.hub = (deliver (fun id h => (h.bus.channel topic).holds id)
          (fun callback => run (callback message)) subs m.hub).2 ∧
        Delivery topic start subs m visits (deliver (fun id h => (h.bus.channel topic).holds id)
          (fun callback => run (callback message)) subs m.hub).1 m' ∧
        Visit.EveryCall (fun sub => Account (sub.listener message)) visits
  | [], m, _, _ => ⟨[], m, rfl, .nil, Visit.everyCall_nil⟩
  | sub :: subs, m, hpresent, hextends => by
      obtain ⟨present, hrest⟩ := List.forall_mem_cons.mp hpresent
      have still_iff := Moment.holds_iff hextends present
      by_cases hholds : (m.hub.bus.channel topic).holds sub.id = true
      · have still := still_iff.mp hholds
        obtain ⟨m₁, hhub, account⟩ := runs (sub.listener message) m
        rcases hrun : run (sub.listener message) m.hub with ⟨halt | _, h₁⟩
        · rw [hrun] at hhub account
          rw [deliver_cons_of_error hholds hrun]
          exact ⟨_, m₁, hhub, .halt present still,
            Visit.everyCall_called.mpr ⟨account, Visit.everyCall_nil⟩⟩
        · rw [hrun] at hhub account
          subst hhub
          obtain ⟨visits, m', hhub', hdelivery, hcalls⟩ :=
            exists_delivery runs hrest (hextends.trans account.grows)
          rw [deliver_cons_of_ok hholds hrun]
          exact ⟨_, m', hhub', hdelivery.call present still,
            Visit.everyCall_called.mpr ⟨account, hcalls⟩⟩
      · have cancelled := Classical.not_not.mp fun still => hholds (still_iff.mpr still)
        obtain ⟨visits, m', hhub, hdelivery, hcalls⟩ := exists_delivery runs hrest hextends
        rw [deliver_cons_of_not_stands hholds]
        exact ⟨_, m', hhub, hdelivery.skip present cancelled, Visit.everyCall_skipped.mpr hcalls⟩

/-- Where all publishes can be told, all runs have an account. -/
theorem accounted_run {publish : Topic → μ → Hub σ μ ε → Except (Halt ε) Nat × Hub σ μ ε}
    (publishes : ∀ topic message m, Told topic message m (publish topic message m.hub))
    (p : Program σ μ ε) : ∀ m : Moment σ μ ε, Accounted p m (p.run publish m.hub) := by
  induction p with
  | done => exact fun m => ⟨m, rfl, .done⟩
  | fail e => exact fun m => ⟨m, rfl, .fail⟩
  | read next ih =>
      intro m
      obtain ⟨m', hhub, account⟩ := ih m.hub.state m
      exact ⟨m', hhub, .read account⟩
  | write change next ih =>
      intro m
      obtain ⟨m', hhub, account⟩ := ih (m.write change)
      exact ⟨m', hhub, .write account⟩
  | subscribe topic callback next _ ih =>
      intro m
      obtain ⟨m', hhub, account⟩ := ih _ (m.subscribe topic callback)
      exact ⟨m', hhub, .subscribe account⟩
  | cancel handle next ih =>
      intro m
      obtain ⟨m', hhub, account⟩ := ih (m.cancel handle)
      exact ⟨m', hhub, .cancel account⟩
  | publish topic message next ih =>
      intro m
      have told := publishes topic message m
      rw [Program.run]
      generalize publish topic message m.hub = outcome at told ⊢
      rcases outcome with ⟨(⟨e⟩ | _) | n, h₁⟩
      · rcases told with hbeyond | ⟨visits, m₁, rfl, hdelivery, hcalls⟩
        · cases hbeyond
        · obtain ⟨m', hhub, account⟩ := ih (.error e) m₁
          exact ⟨m', hhub, .publish hdelivery hcalls account⟩
      · rcases told with hbeyond | ⟨visits, m₁, rfl, hdelivery, hcalls⟩
        · cases hbeyond
          exact ⟨m, rfl, .beyond⟩
        · exact ⟨m₁, rfl, .cut hdelivery hcalls⟩
      · rcases told with hbeyond | ⟨visits, m₁, rfl, hdelivery, hcalls⟩
        · cases hbeyond
        · obtain ⟨m', hhub, account⟩ := ih (.ok n) m₁
          exact ⟨m', hhub, .publish hdelivery hcalls account⟩

/-- The induction is on the bound: what a publish calls runs under a lower one. -/
theorem told_publish (depth : Nat) (topic : Topic) (message : μ) (m : Moment σ μ ε) :
    Told topic message m (Hub.publish depth topic message m.hub) := by
  induction depth generalizing topic message m with
  | zero => exact .inl rfl
  | succ depth ih =>
      right
      have hsubs : (m.hub.bus.channel topic).subscribers = m.present topic := m.recorded.subscribers topic
      rw [Hub.publish, hsubs]
      exact exists_delivery (accounted_run ih) (fun _ h => h) List.prefix_rfl

/-! ## An account leaves nothing open -/

/-- A publish comes to what its visits say, where its calls do. -/
theorem deliver_eq_of_delivery {topic : Topic} {message : μ} {start m' : Moment σ μ ε}
    {run : Program σ μ ε → Hub σ μ ε → Except (Halt ε) Unit × Hub σ μ ε} :
    ∀ {visits : List (Visit σ μ ε)} {subs : List (Subscriber (μ → Program σ μ ε))} {m : Moment σ μ ε}
      {answer : Except (Halt ε) Nat},
      Visit.EveryCall (fun _ before _ after => before.past <+: after.past) visits →
      Visit.EveryCall (fun sub before result after =>
        run (sub.listener message) before.hub = (result, after.hub)) visits →
      (∀ sub ∈ subs, sub ∈ start.present topic) → start.past <+: m.past →
      Delivery topic start subs m visits answer m' →
      deliver (fun id h => (h.bus.channel topic).holds id) (fun callback => run (callback message)) subs
        m.hub = (answer, m'.hub)
  | [], subs, m, answer, _, _, _, _, delivery => by
      obtain ⟨rfl, rfl, rfl⟩ := delivery.eq_nil
      rfl
  | visit :: visits, [], m, answer, _, _, _, _, delivery =>
      absurd delivery.ordered.length_le (Nat.not_succ_le_zero _)
  | visit :: visits, sub :: subs, m, answer, hgrow, hruns, hpresent, hextends, delivery => by
      obtain ⟨present, hrest⟩ := List.forall_mem_cons.mp hpresent
      obtain rfl : visit.sub = sub := (List.cons_prefix_cons.mp delivery.ordered).1
      obtain rfl : visit.before = m := delivery.consecutive.1
      have still_iff := Moment.holds_iff hextends present
      have call_iff := (List.forall_mem_cons.mp delivery.isCall_iff).1
      cases visit with
      | skipped sub moment =>
          have hgone := fun hholds => Bool.false_ne_true (call_iff.mpr (still_iff.mp hholds))
          obtain ⟨rest, hdelivery, rfl⟩ := delivery.tail rfl
          rw [deliver_cons_of_not_stands hgone, deliver_eq_of_delivery (Visit.everyCall_skipped.mp hgrow)
            (Visit.everyCall_skipped.mp hruns) hrest hextends hdelivery]
          cases rest <;> rfl
      | called sub before result after =>
          obtain ⟨hpast, hgrow'⟩ := Visit.everyCall_called.mp hgrow
          obtain ⟨hrun, hruns'⟩ := Visit.everyCall_called.mp hruns
          have hstands := still_iff.mpr (call_iff.mp rfl)
          rcases result with halt | _
          · obtain ⟨rfl, rfl⟩ := delivery.halted rfl
            rw [deliver_cons_of_error hstands hrun]
          · obtain ⟨rest, hdelivery, rfl⟩ := delivery.tail rfl
            rw [deliver_cons_of_ok hstands hrun,
              deliver_eq_of_delivery hgrow' hruns' hrest (hextends.trans hpast) hdelivery]
            rfl

/-- What is so of each call from some bound on is so of all calls from some bound on. -/
theorem exists_bound_everyCall
    {P : Nat → Subscriber (μ → Program σ μ ε) → Moment σ μ ε → Except (Halt ε) Unit → Moment σ μ ε → Prop} :
    ∀ {visits : List (Visit σ μ ε)},
      Visit.EveryCall (fun sub before result after =>
        ∃ bound, ∀ depth ≥ bound, P depth sub before result after) visits →
      ∃ bound, ∀ depth ≥ bound, Visit.EveryCall (P depth) visits
  | [], _ => ⟨0, fun _ _ => Visit.everyCall_nil⟩
  | .skipped _ _ :: _, h => by
      obtain ⟨bound, hbound⟩ := exists_bound_everyCall (Visit.everyCall_skipped.mp h)
      exact ⟨bound, fun depth hdepth => Visit.everyCall_skipped.mpr (hbound depth hdepth)⟩
  | .called _ _ _ _ :: _, h => by
      obtain ⟨⟨first, hfirst⟩, hrest⟩ := Visit.everyCall_called.mp h
      obtain ⟨rest, hrest⟩ := exists_bound_everyCall hrest
      refine ⟨max first rest, fun depth hdepth => Visit.everyCall_called.mpr ⟨?_, ?_⟩⟩
      · exact hfirst depth (Nat.le_trans (Nat.le_max_left _ _) hdepth)
      · exact hrest depth (Nat.le_trans (Nat.le_max_right _ _) hdepth)

/-- What has an account that does not meet the bound is run in this way under every bound that is high
enough. -/
theorem run_eq_of_account {p : Program σ μ ε} {m m' : Moment σ μ ε} {r : Except (Halt ε) Unit}
    (account : Account p m r m') (shallow : r ≠ .error .tooDeep) :
    ∃ bound, ∀ depth ≥ bound, p.run (Hub.publish depth) m.hub = (r, m'.hub) := by
  induction account with
  | done => exact ⟨0, fun _ _ => rfl⟩
  | fail => exact ⟨0, fun _ _ => rfl⟩
  | read _ ih => exact ih shallow
  | write _ ih => exact ih shallow
  | subscribe _ ih => exact ih shallow
  | cancel _ ih => exact ih shallow
  | cut => exact absurd rfl shallow
  | beyond => exact absurd rfl shallow
  | @publish topic message next m visits m₁ r m' answer hdelivery hcalls _ ihcalls ih =>
      have hanswer : answer.mapError Halt.failed ≠ .error .tooDeep := by
        cases answer <;> nofun
      obtain ⟨calls, hruns⟩ := exists_bound_everyCall fun sub before result after hcall =>
        ihcalls sub before result after hcall (hdelivery.ne_tooDeep hanswer hcall)
      obtain ⟨rest, hrest⟩ := ih shallow
      refine ⟨max (calls + 1) rest, fun depth hdepth => ?_⟩
      have hnext := hrest depth (Nat.le_trans (Nat.le_max_right _ _) hdepth)
      obtain ⟨below, rfl⟩ : ∃ below, depth = below + 1 := ⟨depth - 1, by omega⟩
      have hpublish :
          Hub.publish (below + 1) topic message m.hub = (answer.mapError Halt.failed, m₁.hub) := by
        have hsubs : (m.hub.bus.channel topic).subscribers = m.present topic :=
          m.recorded.subscribers topic
        rw [Hub.publish, hsubs]
        exact deliver_eq_of_delivery (fun sub before result after hcall =>
          (hcalls sub before result after hcall).grows) (hruns below (by omega)) (fun _ h => h)
          List.prefix_rfl hdelivery
      rw [Program.run, hpublish]
      cases answer with
      | error e => exact hnext
      | ok n => exact hnext

/-! ## What becomes of a run -/

/-- Every run of a program has an account: from moment to moment, also inside publishes inside publishes,
every channel holds the subscriptions made and not cancelled, in the order in which they were made, and
each publish calls those that were present when it began and have not been cancelled before their visit,
in this order and up to the first that fails.  And what has such an account, to its end, is what the
program does as soon as the bound on the depth allows it.  To cancel twice is to cancel once, whatever
happens in between. -/
theorem Program.run_account (p : Program σ μ ε) (m : Moment σ μ ε) :
    (∀ depth, ∃ m' : Moment σ μ ε, m'.hub = (p.run (Hub.publish depth) m.hub).2 ∧
      Account p m (p.run (Hub.publish depth) m.hub).1 m') ∧
    (∀ r m', Account p m r m' → r ≠ .error .tooDeep →
      ∃ bound, ∀ depth ≥ bound, p.run (Hub.publish depth) m.hub = (r, m'.hub)) ∧
    (∀ handle, (m.hub.bus.cancel handle).cancel handle = m.hub.bus.cancel handle) ∧
    ∀ handle ∈ Bus.made m.past, ∀ m' : Moment σ μ ε, m.CancelledSince m' handle →
      ∀ topic, (m'.hub.bus.cancel handle).channel topic = m'.hub.bus.channel topic := by
  refine ⟨fun depth => accounted_run (told_publish depth) p m, fun _ _ => run_eq_of_account,
    fun handle => Bus.cancel_cancel _ handle, ?_⟩
  rintro handle known m' ⟨changes, hpast, hcancelled⟩
  have recorded : Bus.Recorded (m.past ++ changes) m'.hub.bus := hpast ▸ m'.recorded
  exact Bus.channel_cancel_of_not_holds (recorded.not_holds_of_cancelled known hcancelled)

/-- Notes the name of a callback. -/
def Program.note (name : Nat) (next : Program (List Nat) Unit Unit) : Program (List Nat) Unit Unit :=
  .write (· ++ [name]) next

/-- Of two subscribers the first publishes elsewhere, and who hears of that cancels the second and
subscribes another in its place. -/
def Program.replacing : Program (List Nat) Unit Unit :=
  .subscribe .tm (fun _ => note 1 (.publish .rawTm () fun _ => .done)) fun _ =>
    .subscribe .tm (fun _ => note 2 .done) fun second =>
      .subscribe .rawTm (fun _ => note 3 (.cancel second (.subscribe .tm (fun _ => note 4 .done)
        fun _ => .done))) fun _ => .publish .tm () fun _ => .done

/-- Neither the subscriber that has been cancelled nor the one that has come in its place is called. -/
theorem Program.run_account_replacing :
    (∃ m' : Moment (List Nat) Unit Unit, Account replacing (.start []) (.ok ()) m' ∧
      m'.hub.state = [1, 3] ∧ (m'.present .tm).map Subscriber.id = [1, 3] ∧
      ∃ bound, ∀ depth ≥ bound, replacing.run (Hub.publish depth) ⟨.empty, []⟩ = (.ok (), m'.hub)) ∧
    let m : Moment (List Nat) Unit Unit := (Moment.start []).subscribe .tm fun _ => note 1 .done
    let m' := (m.cancel ⟨.tm, 1⟩).subscribe .tm fun _ => note 2 .done
    ⟨.tm, 1⟩ ∈ Bus.made m.past ∧ m.CancelledSince m' ⟨.tm, 1⟩ ∧
      ∀ topic, (m'.hub.bus.cancel ⟨.tm, 1⟩).channel topic = m'.hub.bus.channel topic := by
  constructor
  · obtain ⟨haccount, hexact, -⟩ := replacing.run_account (.start [])
    obtain ⟨m', hhub, account⟩ := haccount 2
    have hpresent : m'.present .tm = (m'.hub.bus.channel .tm).subscribers :=
      (m'.recorded.subscribers .tm).symm
    refine ⟨m', account, ?_, ?_, hexact (.ok ()) m' account nofun⟩
    · rw [hhub]
      rfl
    · rw [hpresent, hhub]
      rfl
  · intro m m'
    have known : ⟨.tm, 1⟩ ∈ Bus.made m.past := List.mem_cons_self
    have cancelled : m.CancelledSince m' ⟨.tm, 1⟩ := ⟨_, rfl, List.mem_cons_self⟩
    exact ⟨known, cancelled, (replacing.run_account m).2.2.2 _ known m' cancelled⟩

end GroundStation
