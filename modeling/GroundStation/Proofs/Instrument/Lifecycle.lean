/-
# The life of a link

Requests open and close the link of an instrument; commands, polls and drains find it lost; the end of
service closes it.  Each of them moves the state, the link and the worker apart from each other, and each
can fail half way.  Whatever is done in whatever order, and whatever the transport makes of it
(`run_lifecycle`):

* no operation leaves the instrument connecting, it holds a link exactly when it is connected, and it has
  a worker only then;
* every link that was ever opened has been closed once, but for the one that is held, and nothing was
  sent or read on a link that was closed.

The first is about the instrument alone (`Settled`).  The second is about its transport, and is read off a
ledger.  `audited` puts the ledger beside the devices; what the instrument does then is what it does
without one (`Follows`), so the ledger tells of the instrument as it is.
-/
import GroundStation.Proofs.Instrument.Assembly
import GroundStation.Proofs.Instrument.Ledger
import GroundStation.Proofs.Instrument.Make

namespace GroundStation

/-! ## Operations -/

/-- What may be done with an instrument. -/
inductive Operation where
  | execute (request : Request)
  /-- A worker polls. -/
  | poll
  /-- A worker takes what the device has sent, holding an unfinished record. -/
  | drain (held : Record.Accumulator)
  | shutdown

namespace Instrument

variable {δ : Type}

/-- The parameters that are polled. -/
def polled (i : Instrument δ) : List Text := (i.config.cyclic.map CyclicConfig.parameters).getD []

/-- Does one operation.  A worker whose instrument is not connected leaves it alone. -/
def act (i : Instrument δ) : Operation → δ → Instrument δ × δ
  | .execute r, d => (i.execute r d).2
  | .poll, d => if i.state = .connected ∧ i.held then (i.pollFrom i.polled d).2 else (i, d)
  | .drain a, d => if i.state = .connected ∧ i.held then (i.drain a d).2 else (i, d)
  | .shutdown, d => i.shutdown d

/-- Does operations in order. -/
def run : List Operation → Instrument δ → δ → Instrument δ × δ
  | [], i, d => (i, d)
  | op :: rest, i, d => run rest (i.act op d).1 (i.act op d).2

/-- A round of acquisition is one of the operations, or nothing. -/
theorem round_eq_act (i : Instrument δ) (d : δ) :
    (i.round d).2 = (i, d) ∨ ∃ op, (i.round d).2 = i.act op d := by
  unfold round
  split
  · next a cyclic _ hcyclic =>
    split
    · next hlink =>
      split
      · refine .inr ⟨.poll, ?_⟩
        have hpolled : i.polled = cyclic.parameters := by rw [polled, hcyclic]; rfl
        rw [act, if_pos hlink, hpolled]
      · refine .inr ⟨.drain a, ?_⟩
        rw [act, if_pos hlink]
    · exact .inl rfl
  · exact .inl rfl

theorem sameMake_act (i : Instrument δ) (op : Operation) (d : δ) : SameMake i (i.act op d).1 := by
  cases op with
  | execute r => exact sameMake_execute i r d
  | poll =>
      rw [act]
      split
      · exact sameMake_pollFrom d _ i
      · exact .refl i
  | drain a =>
      rw [act]
      split
      · exact sameMake_drain i a d
      · exact .refl i
  | shutdown => exact sameMake_disconnect i [] d

/-- Whatever is done with an instrument, it stays what it was configured to be. -/
theorem sameMake_run (ops : List Operation) :
    ∀ (i : Instrument δ) (d : δ), SameMake i (run ops i d).1 := by
  induction ops with
  | nil => exact fun i _ => .refl i
  | cons op rest ih => exact fun i d => (sameMake_act i op d).trans (ih _ _)

/-! ## State, link and worker -/

/-- State, link and worker of an instrument that nothing is being done with. -/
structure Settled (i : Instrument δ) : Prop where
  state : i.state ≠ .connecting
  held : i.held = true ↔ i.state = .connected
  worker : i.worker.isSome = true → i.state = .connected

namespace Settled

theorem withMemory {i : Instrument δ} (h : Settled i) (m : Memory) : Settled (i.withMemory m) :=
  ⟨h.state, h.held, h.worker⟩

theorem withoutLink (i : Instrument δ) {state : ConnectionState} (hconnecting : state ≠ .connecting)
    (hconnected : state ≠ .connected) : Settled (i.withoutLink state) :=
  ⟨hconnecting, ⟨nofun, fun h => absurd h hconnected⟩, nofun⟩

theorem degrade (i : Instrument δ) (d : δ) : Settled (i.degrade d).1 :=
  withoutLink i nofun nofun

theorem connect {i : Instrument δ} (h : Settled i) (args : List Text) (d : δ) :
    Settled (i.connect args d).2.1 := by
  unfold Instrument.connect
  split
  · exact h
  · split
    · exact h
    · dsimp only
      split
      · exact withoutLink _ nofun nofun
      · split
        · exact withoutLink _ nofun nofun
        · exact ⟨nofun, ⟨fun _ => rfl, fun _ => rfl⟩, fun _ => rfl⟩

theorem disconnect {i : Instrument δ} (h : Settled i) (args : List Text) (d : δ) :
    Settled (i.disconnect args d).1 := by
  unfold Instrument.disconnect
  split
  · exact withoutLink _ nofun nofun
  · exact h

theorem command {i : Instrument δ} (h : Settled i) (r : Request) (d : δ) :
    Settled (i.command r d).2.1 := by
  unfold Instrument.command
  split
  · exact h
  · next p _ =>
    split
    · obtain ⟨m, hm⟩ := exchange_eq i p r d
      have hexchange := h.withMemory m
      rw [← hm] at hexchange
      split
      · next heq => rw [heq] at hexchange; exact hexchange
      · next heq => rw [heq] at hexchange; exact hexchange
      · exact degrade _ _
    · exact h

theorem perform {i : Instrument δ} (h : Settled i) (r : Request) (d : δ) :
    Settled (i.perform r d).2.1 := by
  unfold Instrument.perform
  split
  · split
    · exact h.connect r.args d
    · split
      · exact h.disconnect r.args d
      · exact h.command r d
  · exact h.command r d
  · exact h

theorem pollFrom (names : List Text) {i : Instrument δ} (h : Settled i) (d : δ) :
    Settled (i.pollFrom names d).2.1 := by
  induction names generalizing i d with
  | nil => exact h
  | cons name rest ih =>
      rw [Instrument.pollFrom]
      split
      · exact ih h d
      · next p _ =>
        obtain ⟨m, hm⟩ := read_eq i p [] d
        have hread := h.withMemory m
        rw [← hm] at hread
        split
        · next heq => rw [heq] at hread; exact ih hread _
        · exact degrade _ _
        · next heq => rw [heq] at hread; exact ih hread _

theorem drain {i : Instrument δ} (h : Settled i) (connected : i.state = .connected)
    (a : Record.Accumulator) (d : δ) : Settled (i.drain a d).2.1 := by
  unfold Instrument.drain
  split
  · next bytes d _ =>
    have hworker : Settled { i with worker := some (a.push bytes).2 } :=
      ⟨h.state, h.held, fun _ => connected⟩
    obtain ⟨m, hm⟩ := absorb_eq ((a.push bytes).1.flatMap Record.fields)
      { i with worker := some (a.push bytes).2 }
    dsimp only
    rw [hm]
    exact hworker.withMemory m
  · split
    · exact degrade i _
    · exact h

theorem act {i : Instrument δ} (h : Settled i) (op : Operation) (d : δ) : Settled (i.act op d).1 := by
  cases op with
  | execute r =>
      rw [Instrument.act, execute]
      split
      · exact h.perform r d
      · exact h
  | poll =>
      rw [Instrument.act]
      split
      · exact h.pollFrom _ d
      · exact h
  | drain a =>
      rw [Instrument.act]
      split
      · next hlink => exact h.drain hlink.1 a d
      · exact h
  | shutdown => exact h.disconnect [] d

theorem run (ops : List Operation) :
    ∀ {i : Instrument δ} {d : δ}, Settled i → Settled (Instrument.run ops i d).1 := by
  induction ops with
  | nil => exact fun h => h
  | cons op rest ih => exact fun h => ih (h.act op _)

end Settled

/-- An instrument is settled when it is put together. -/
theorem settled_of_assemble {registry : Registry δ} {c : InstrumentConfig} {i : Instrument δ}
    (accepted : assemble registry c = .ok i) : Settled i := by
  obtain ⟨_, _, -, -, -, rfl⟩ := assemble_eq_ok accepted
  exact ⟨nofun, ⟨nofun, nofun⟩, nofun⟩

/-! ## Under audit -/

/-- The instrument, with a ledger of its links beside the devices. -/
def audited (i : Instrument δ) : Instrument (δ × Ledger) where
  config := i.config
  parameters := i.parameters
  transport := i.transport.audited
  memory := i.memory
  state := i.state
  held := i.held
  worker := i.worker

@[simp] theorem audited_state (i : Instrument δ) : i.audited.state = i.state := rfl

@[simp] theorem audited_held (i : Instrument δ) : i.audited.held = i.held := rfl

@[simp] theorem audited_provider (i : Instrument δ) : i.audited.provider = i.provider := rfl

@[simp] theorem audited_parameter? (i : Instrument δ) (name : Text) :
    i.audited.parameter? name = i.parameter? name := rfl

@[simp] theorem audited_setter? (i : Instrument δ) (name : Text) :
    i.audited.setter? name = i.setter? name := rfl

@[simp] theorem audited_connectFault? (i : Instrument δ) (args : List Text) :
    i.audited.connectFault? args = i.connectFault? args := rfl

@[simp] theorem audited_fieldParameter? (i : Instrument δ) (key : Text) :
    i.audited.fieldParameter? key = i.fieldParameter? key := rfl

/-- An audited outcome follows one without a ledger: it is the same, and its ledger is consistent. -/
def Follows {α : Type} (a : α × Instrument (δ × Ledger) × δ × Ledger) (b : α × Instrument δ × δ) : Prop :=
  ∃ l, a = (b.1, b.2.1.audited, b.2.2, l) ∧ Ledger.Consistent b.2.1.held l

variable {i : Instrument δ} {l : Ledger} {d : δ}

/-! ### On an open link -/

theorem send_audited (live : Ledger.Consistent true l) (step : Step) (command : Text) :
    ∃ l', i.audited.send step command (d, l) =
        ((i.send step command d).1, (i.send step command d).2, l') ∧ Ledger.Consistent true l' := by
  refine ⟨l.afterUse, ?_, live.afterUse⟩
  cases step with
  | write template =>
      simp only [send, audited, Transport.audited]
      rcases i.transport.write i.config command d with ⟨_ | _, d'⟩ <;> rfl
  | query template =>
      simp only [send, audited, Transport.audited]
      rcases i.transport.query i.config command d with ⟨_ | _, d'⟩ <;> rfl

theorem runSteps_audited (id : Text) (args : List Text) :
    ∀ {steps : List Step} {last : Option Text} {d : δ} {l : Ledger}, Ledger.Consistent true l →
      ∃ l', i.audited.runSteps id args steps last (d, l) =
          ((i.runSteps id args steps last d).1, (i.runSteps id args steps last d).2, l') ∧
        Ledger.Consistent true l'
  | [], last, d, l, live => ⟨l, rfl, live⟩
  | step :: rest, last, d, l, live => by
      rw [runSteps, runSteps]
      cases Template.render id step.template args with
      | error e => exact ⟨l, rfl, live⟩
      | ok command =>
          obtain ⟨l', hsend, live'⟩ := send_audited (i := i) (d := d) live step command
          dsimp only
          rw [hsend]
          rcases i.send step command d with ⟨e | reply, d'⟩
          · exact ⟨l', rfl, live'⟩
          · exact runSteps_audited id args live'

theorem remember_audited (p : Parameter) (value : Option Json) :
    i.audited.remember p value = (i.remember p value).audited := by
  cases value <;> rfl

theorem settle_audited (p : Parameter) (outcome : Except CommandError (Option Json)) :
    i.audited.settle p (d, l) outcome =
      ((i.settle p d outcome).1, (i.settle p d outcome).2.1.audited, (i.settle p d outcome).2.2, l) := by
  cases outcome with
  | ok value => rw [settle, settle, remember_audited]
  | error e => rfl

theorem read_audited (live : Ledger.Consistent true l) (p : Parameter) (args : List Text) :
    ∃ l', i.audited.read p args (d, l) =
        ((i.read p args d).1, (i.read p args d).2.1.audited, (i.read p args d).2.2, l') ∧
      Ledger.Consistent true l' := by
  unfold read
  cases p.getter with
  | none => exact ⟨l, rfl, live⟩
  | some steps =>
      dsimp only
      split
      · obtain ⟨l', hsteps, live'⟩ : ∃ l', i.audited.runSteps p.name args steps none (d, l) = _ ∧ _ :=
          runSteps_audited p.name args live
        rw [hsteps]
        rcases i.runSteps p.name args steps none d with ⟨e | reply, d'⟩
        · exact ⟨l', rfl, live'⟩
        · exact ⟨l', settle_audited p _, live'⟩
      · exact ⟨l, rfl, live⟩

theorem write_audited (live : Ledger.Consistent true l) (p : Parameter) (args : List Text) :
    ∃ l', i.audited.write p args (d, l) =
        ((i.write p args d).1, (i.write p args d).2.1.audited, (i.write p args d).2.2, l') ∧
      Ledger.Consistent true l' := by
  unfold write
  cases p.setter with
  | none => exact ⟨l, rfl, live⟩
  | some setter =>
      dsimp only
      cases p.checkArgs setter args with
      | error e => exact ⟨l, rfl, live⟩
      | ok typed =>
          dsimp only
          obtain ⟨l', hsteps, live'⟩ :
              ∃ l', i.audited.runSteps p.name args setter.steps none (d, l) = _ ∧ _ :=
            runSteps_audited p.name args live
          rw [hsteps]
          rcases i.runSteps p.name args setter.steps none d with ⟨e | _ | reply, d'⟩
          · exact ⟨l', rfl, live'⟩
          · exact ⟨l', settle_audited p _, live'⟩
          · exact ⟨l', settle_audited p _, live'⟩

theorem lifecycleSteps_audited (live : Ledger.Consistent true l) (name : Text) (args : List Text) :
    ∃ l', i.audited.lifecycleSteps name args (d, l) =
        ((i.lifecycleSteps name args d).1, (i.lifecycleSteps name args d).2, l') ∧
      Ledger.Consistent true l' := by
  rw [lifecycleSteps, lifecycleSteps, audited_setter?]
  rcases i.setter? name with _ | ⟨p, w⟩
  · exact ⟨l, rfl, live⟩
  · exact runSteps_audited name args live

theorem closingSteps_audited (live : Ledger.Consistent true l) (args : List Text) :
    ∃ l', i.audited.closingSteps args (d, l) = (i.closingSteps args d, l') ∧
      Ledger.Consistent true l' := by
  rw [closingSteps, closingSteps, audited_setter?]
  rcases i.setter? disconnectName with _ | ⟨p, w⟩
  · exact ⟨l, rfl, live⟩
  · dsimp only
    cases p.checkArgs w args with
    | error e => exact ⟨l, rfl, live⟩
    | ok typed =>
        obtain ⟨l', hsteps, live'⟩ :
            ∃ l', i.audited.runSteps disconnectName args w.steps none (d, l) = _ ∧ _ :=
          runSteps_audited disconnectName args live
        refine ⟨l', ?_, live'⟩
        dsimp only
        rw [hsteps]

/-! ### Opening, closing and losing it -/

theorem degrade_audited (consistent : Ledger.Consistent i.held l) :
    ∃ l', i.audited.degrade (d, l) = ((i.degrade d).1.audited, (i.degrade d).2, l') ∧
      Ledger.Consistent false l' := by
  rw [degrade, degrade, audited_held]
  by_cases hheld : i.held = true
  · rw [hheld] at consistent
    refine ⟨l.afterClose, ?_, consistent.afterClose⟩
    rw [if_pos hheld, if_pos hheld]
    rfl
  · refine ⟨l, ?_, ?_⟩
    · rw [if_neg hheld, if_neg hheld]
      rfl
    · rw [Bool.not_eq_true] at hheld
      rw [hheld] at consistent
      exact consistent

theorem connect_follows (settled : Settled i) (consistent : Ledger.Consistent i.held l)
    (args : List Text) : Follows (i.audited.connect args (d, l)) (i.connect args d) := by
  rw [connect, connect, audited_connectFault?]
  cases i.connectFault? args with
  | some e => exact ⟨l, rfl, consistent⟩
  | none =>
      dsimp only
      rw [audited_state]
      by_cases hstate : i.state = .connected
      · rw [if_pos hstate, if_pos hstate]
        exact ⟨l, rfl, consistent⟩
      · -- no link is held, so the one that is opened is the only one
        rw [if_neg hstate, if_neg hstate]
        have hheld : i.held = false := by
          rw [← Bool.not_eq_true]
          exact fun hheld => hstate (settled.held.mp hheld)
        rw [hheld] at consistent
        simp only [audited, Transport.audited]
        rcases i.transport.connect i.config d with ⟨e | _, d'⟩
        · exact ⟨l, rfl, consistent⟩
        · obtain ⟨l', hsteps, live⟩ :=
            lifecycleSteps_audited (i := { i with state := .connecting }) (d := d') consistent.afterOpen
              connectName args
          simp only [audited, Transport.audited] at hsteps
          dsimp only
          rw [hsteps]
          rcases lifecycleSteps { i with state := .connecting } connectName args d' with ⟨e | reply, d''⟩
          · exact ⟨l'.afterClose, rfl, live.afterClose⟩
          · exact ⟨l', rfl, live⟩

theorem disconnect_audited (consistent : Ledger.Consistent i.held l) (args : List Text) :
    ∃ l', i.audited.disconnect args (d, l) =
        ((i.disconnect args d).1.audited, (i.disconnect args d).2, l') ∧
      Ledger.Consistent (i.disconnect args d).1.held l' := by
  rw [disconnect, disconnect, audited_state, audited_held]
  by_cases hstate : i.state = .connected
  · rw [if_pos hstate, if_pos hstate]
    by_cases hheld : i.held = true
    · rw [hheld] at consistent
      obtain ⟨l', hsteps, live⟩ := closingSteps_audited (i := i) (d := d) consistent args
      refine ⟨l'.afterClose, ?_, live.afterClose⟩
      rw [if_pos hheld, if_pos hheld, hsteps]
      rfl
    · refine ⟨l, ?_, ?_⟩
      · rw [if_neg hheld, if_neg hheld]
        rfl
      · rw [Bool.not_eq_true] at hheld
        rw [hheld] at consistent
        exact consistent
  · rw [if_neg hstate, if_neg hstate]
    exact ⟨l, rfl, consistent⟩

/-! ### Requests -/

theorem exchange_audited (live : Ledger.Consistent true l) (p : Parameter) (r : Request) :
    ∃ l', (if r.kind = .get then i.audited.read p r.args (d, l) else i.audited.write p r.args (d, l)) =
        ((if r.kind = .get then i.read p r.args d else i.write p r.args d).1,
          (if r.kind = .get then i.read p r.args d else i.write p r.args d).2.1.audited,
          (if r.kind = .get then i.read p r.args d else i.write p r.args d).2.2, l') ∧
      Ledger.Consistent true l' := by
  split
  · exact read_audited live p r.args
  · exact write_audited live p r.args

theorem command_follows (consistent : Ledger.Consistent i.held l) (r : Request) :
    Follows (i.audited.command r (d, l)) (i.command r d) := by
  rw [command, command, audited_parameter?]
  cases i.parameter? r.id with
  | none => exact ⟨l, rfl, consistent⟩
  | some p =>
      dsimp only
      rw [audited_state, audited_held]
      by_cases hlink : i.state = .connected ∧ i.held
      · rw [if_pos hlink, if_pos hlink]
        rw [hlink.2] at consistent
        obtain ⟨l', hexchange, live⟩ := exchange_audited (i := i) (d := d) consistent p r
        obtain ⟨m, hm⟩ := exchange_eq i p r d
        rw [hexchange]
        rcases hplain : (if r.kind = .get then i.read p r.args d else i.write p r.args d) with
          ⟨⟨e⟩ | value, j, d'⟩
        all_goals
          rw [hplain] at hm
          have hheld : j.held = true := (congrArg Instrument.held hm).trans hlink.2
        · cases e with
          | command e => exact ⟨l', rfl, hheld ▸ live⟩
          | lost e =>
              obtain ⟨l'', hdegrade, closed⟩ := degrade_audited (i := j) (d := d') (hheld ▸ live)
              refine ⟨l'', ?_, closed⟩
              dsimp only
              rw [hdegrade]
        · exact ⟨l', rfl, hheld ▸ live⟩
      · rw [if_neg hlink, if_neg hlink]
        exact ⟨l, rfl, consistent⟩

theorem perform_follows (settled : Settled i) (consistent : Ledger.Consistent i.held l) (r : Request) :
    Follows (i.audited.perform r (d, l)) (i.perform r d) := by
  unfold perform
  split
  · split
    · exact connect_follows settled consistent r.args
    · split
      · obtain ⟨l', hdisconnect, consistent'⟩ := disconnect_audited (i := i) (d := d) consistent r.args
        refine ⟨l', ?_, consistent'⟩
        rw [hdisconnect]
      · exact command_follows consistent r
  · exact command_follows consistent r
  · exact ⟨l, rfl, consistent⟩

theorem execute_follows (settled : Settled i) (consistent : Ledger.Consistent i.held l) (r : Request) :
    Follows (i.audited.execute r (d, l)) (i.execute r d) := by
  rw [execute, execute, audited_provider]
  by_cases hprovider : r.provider = some i.provider
  · rw [if_pos hprovider, if_pos hprovider]
    obtain ⟨l', hperform, consistent'⟩ := perform_follows (d := d) settled consistent r
    refine ⟨l', ?_, consistent'⟩
    rw [hperform]
  · rw [if_neg hprovider, if_neg hprovider]
    exact ⟨l, rfl, consistent⟩

/-! ### Acquisition -/

theorem pollFrom_follows :
    ∀ {names : List Text} {i : Instrument δ} {d : δ} {l : Ledger}, i.held = true →
      Ledger.Consistent true l → Follows (i.audited.pollFrom names (d, l)) (i.pollFrom names d)
  | [], i, d, l, hheld, live => ⟨l, rfl, by rw [pollFrom, hheld]; exact live⟩
  | name :: rest, i, d, l, hheld, live => by
      rw [pollFrom, pollFrom, audited_parameter?]
      cases i.parameter? name with
      | none => exact pollFrom_follows hheld live
      | some p =>
          dsimp only
          obtain ⟨l', hread, live'⟩ := read_audited (i := i) (d := d) live p []
          obtain ⟨m, hm⟩ := read_eq i p [] d
          rw [hread]
          rcases hplain : i.read p [] d with ⟨⟨e⟩ | value, j, d'⟩
          all_goals
            rw [hplain] at hm
            have hj : j.held = true := (congrArg Instrument.held hm).trans hheld
          · cases e with
            | command e => exact pollFrom_follows hj live'
            | lost e =>
                obtain ⟨l'', hdegrade, closed⟩ := degrade_audited (i := j) (d := d') (hj ▸ live')
                refine ⟨l'', ?_, closed⟩
                dsimp only
                rw [hdegrade]
          · cases value with
            | none => exact pollFrom_follows hj live'
            | some value =>
                obtain ⟨l'', hrest, consistent⟩ :
                    Follows (j.audited.pollFrom rest (d', l')) (j.pollFrom rest d') :=
                  pollFrom_follows hj live'
                refine ⟨l'', ?_, consistent⟩
                dsimp only
                rw [hrest]
                rfl

theorem absorb_audited :
    ∀ (fields : List (Text × Text)) (i : Instrument δ),
      i.audited.absorb fields = ((i.absorb fields).1, (i.absorb fields).2.audited)
  | [], i => rfl
  | (key, text) :: rest, i => by
      rw [absorb, absorb, audited_fieldParameter?]
      rcases (i.fieldParameter? key).bind fun p => (fieldValue? p text).map fun v => (p, v) with
        _ | ⟨p, value⟩
      · exact absorb_audited rest i
      · dsimp only
        rw [remember_audited, absorb_audited]
        rfl

theorem drain_follows (hheld : i.held = true) (live : Ledger.Consistent true l)
    (a : Record.Accumulator) : Follows (i.audited.drain a (d, l)) (i.drain a d) := by
  unfold drain
  simp only [audited, Transport.audited]
  rcases i.transport.readAvailable i.config d with ⟨e | bytes, d'⟩
  · dsimp only
    by_cases hloss : e.isLoss = true
    · rw [if_pos hloss, if_pos hloss]
      obtain ⟨l', hdegrade, closed⟩ := degrade_audited (i := i) (d := d') (hheld ▸ live.afterUse)
      simp only [audited, Transport.audited] at hdegrade
      refine ⟨l', ?_, closed⟩
      rw [hdegrade]
      rfl
    · rw [if_neg hloss, if_neg hloss]
      exact ⟨l.afterUse, rfl, hheld ▸ live.afterUse⟩
  · have habsorb := absorb_audited ((a.push bytes).1.flatMap Record.fields)
      { i with worker := some (a.push bytes).2 }
    simp only [audited, Transport.audited] at habsorb
    obtain ⟨m, hm⟩ := absorb_eq ((a.push bytes).1.flatMap Record.fields)
      { i with worker := some (a.push bytes).2 }
    refine ⟨l.afterUse, ?_, ?_⟩
    · dsimp only
      rw [habsorb]
      rfl
    · dsimp only
      rw [hm]
      exact hheld ▸ live.afterUse

/-! ## Runs -/

theorem act_audited (settled : Settled i) (consistent : Ledger.Consistent i.held l) (op : Operation) :
    ∃ l', i.audited.act op (d, l) = ((i.act op d).1.audited, (i.act op d).2, l') ∧
      Ledger.Consistent (i.act op d).1.held l' := by
  cases op with
  | execute r =>
      obtain ⟨l', hexecute, consistent'⟩ := execute_follows (d := d) settled consistent r
      exact ⟨l', congrArg Prod.snd hexecute, consistent'⟩
  | poll =>
      rw [act, act, audited_state, audited_held]
      by_cases hlink : i.state = .connected ∧ i.held
      · rw [if_pos hlink, if_pos hlink]
        obtain ⟨l', hpoll, consistent'⟩ : Follows (i.audited.pollFrom i.polled (d, l)) _ :=
          pollFrom_follows hlink.2 (hlink.2 ▸ consistent)
        exact ⟨l', congrArg Prod.snd hpoll, consistent'⟩
      · rw [if_neg hlink, if_neg hlink]
        exact ⟨l, rfl, consistent⟩
  | drain a =>
      rw [act, act, audited_state, audited_held]
      by_cases hlink : i.state = .connected ∧ i.held
      · rw [if_pos hlink, if_pos hlink]
        obtain ⟨l', hdrain, consistent'⟩ :=
          drain_follows (d := d) hlink.2 (hlink.2 ▸ consistent) a
        exact ⟨l', congrArg Prod.snd hdrain, consistent'⟩
      · rw [if_neg hlink, if_neg hlink]
        exact ⟨l, rfl, consistent⟩
  | shutdown => exact disconnect_audited consistent []

theorem run_audited :
    ∀ (ops : List Operation) {i : Instrument δ} {d : δ} {l : Ledger}, Settled i →
      Ledger.Consistent i.held l →
      Settled (run ops i d).1 ∧
      ∃ l', run ops i.audited (d, l) = ((run ops i d).1.audited, (run ops i d).2, l') ∧
        Ledger.Consistent (run ops i d).1.held l'
  | [], _, _, l, settled, consistent => ⟨settled, l, rfl, consistent⟩
  | op :: rest, i, d, l, settled, consistent => by
      obtain ⟨l', hact, consistent'⟩ := act_audited (d := d) settled consistent op
      rw [run, run, hact]
      exact run_audited rest (settled.act op d) consistent'

/-- For every instrument that is accepted, every transport and every sequence of operations, and so
behind each operation: what the state, the link and the worker are, and what has become of the links.
The ledger is that of the same run under audit. -/
theorem run_lifecycle {registry : Registry δ} {c : InstrumentConfig} {i : Instrument δ}
    (accepted : assemble registry c = .ok i) (ops : List Operation) (d : δ) :
    ∃ j d' ledger,
      run ops i d = (j, d') ∧ run ops i.audited (d, .blank) = (j.audited, d', ledger) ∧
      j.state ≠ .connecting ∧
      (j.held = true ↔ j.state = .connected) ∧
      (j.worker.isSome = true → j.state = .connected) ∧
      (j.held = true → .opened ledger.links ∈ ledger.events) ∧
      (∀ n, .opened n ∈ ledger.events →
        ledger.events.count (.opened n) = 1 ∧
        ledger.events.count (.closed n) = if j.held = true ∧ n = ledger.links then 0 else 1) ∧
      (∀ n later earlier, ledger.events = later ++ .used n :: earlier →
        .opened n ∈ earlier ∧ .closed n ∉ earlier) := by
  have settled := settled_of_assemble accepted
  have hheld : i.held = false := by
    obtain ⟨_, _, -, -, -, rfl⟩ := assemble_eq_ok accepted
    rfl
  obtain ⟨settled', ledger, haudited, consistent⟩ :=
    run_audited ops (d := d) settled (hheld ▸ Ledger.Consistent.blank)
  refine ⟨(run ops i d).1, (run ops i d).2, ledger, rfl, haudited, settled'.state, settled'.held,
    settled'.worker, ?_, ?_, consistent.used⟩
  · intro h
    exact consistent.opened_of_le (consistent.some_link h) (Nat.le_refl _)
  · intro n hn
    have hle := consistent.le_of_opened hn
    rw [consistent.opened, consistent.closed, if_pos hle]
    refine ⟨rfl, ?_⟩
    by_cases hlast : (run ops i d).1.held = true ∧ n = ledger.links
    · rw [if_neg fun hpast => hpast.2 hlast, if_pos hlast]
    · rw [if_pos ⟨hle, hlast⟩, if_neg hlast]

/-- The supply with a worker that polls the voltage. -/
def polledSupply : InstrumentConfig := { InstrumentConfig.supply with cyclic := some ⟨.poll, 1000, ["volt"]⟩ }

/-- The supply cannot be opened, is opened, read, and lost in a round of its worker.  It is asked in vain, opened
again, and lost in a read.  It is opened once more, looked for records, and shut. -/
def supplyOperations : List Operation :=
  [.execute ⟨some "psu", connectName, .set, []⟩, .execute ⟨some "psu", connectName, .set, []⟩,
    .execute ⟨some "psu", "volt", .get, []⟩, .poll, .execute ⟨some "psu", "volt", .get, []⟩,
    .execute ⟨some "psu", connectName, .set, []⟩, .execute ⟨some "psu", "volt", .get, []⟩,
    .execute ⟨some "psu", connectName, .set, []⟩, .drain (.start []), .shutdown]

/-- Before the round there is a worker, and behind it neither worker nor link. -/
theorem run_lifecycle_supply :
    ∃ i : Instrument Bench, assemble Bench.registry polledSupply = .ok i ∧
      (run (supplyOperations.take 3) i .supply).1.worker.isSome = true ∧
      (run (supplyOperations.take 4) i .supply).1.worker = none ∧
      (run (supplyOperations.take 4) i .supply).1.held = false ∧
      ∃ j d' ledger,
        run supplyOperations i .supply = (j, d') ∧
        run supplyOperations i.audited (.supply, .blank) = (j.audited, d', ledger) ∧
        j.state ≠ .connecting ∧
        (j.held = true ↔ j.state = .connected) ∧
        (j.worker.isSome = true → j.state = .connected) ∧
        (j.held = true → .opened ledger.links ∈ ledger.events) ∧
        (∀ n, .opened n ∈ ledger.events →
          ledger.events.count (.opened n) = 1 ∧
          ledger.events.count (.closed n) = if j.held = true ∧ n = ledger.links then 0 else 1) ∧
        (∀ n later earlier, ledger.events = later ++ .used n :: earlier →
          .opened n ∈ earlier ∧ .closed n ∉ earlier) := by
  obtain ⟨i, accepted, working, gone, lost⟩ : ∃ i, assemble Bench.registry polledSupply = .ok i ∧
      (run (supplyOperations.take 3) i .supply).1.worker.isSome = true ∧
      (run (supplyOperations.take 4) i .supply).1.worker = none ∧
      (run (supplyOperations.take 4) i .supply).1.held = false := ⟨_, rfl, rfl, rfl, rfl⟩
  exact ⟨i, accepted, working, gone, lost, run_lifecycle accepted supplyOperations .supply⟩

end Instrument

end GroundStation
