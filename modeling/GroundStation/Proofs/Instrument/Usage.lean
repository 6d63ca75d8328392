/-
# How an instrument uses its link

Whatever is asked of an instrument, what it does with its device keeps to one discipline: a link is opened
only where none is open, commands are sent and bytes are read only on the link that is open, and that link
is closed before another is opened.  `Transport.Usage` is this discipline as a relation.  It tells where
the device has got to, and with which commands on the way, and it tells nothing of the instrument; so what
is true of every disciplined use of a transport is true of whatever is done with an instrument, for any
transport (`usage_act`).

Of a request to set a parameter it tells more.  The commands are the steps declared for it, from the first
as far as they got, each with the arguments of the request filled in (`Rendered`).
-/
import GroundStation.Proofs.Instrument.Lifecycle
import Mathlib.Data.List.Forall2

namespace GroundStation

/-- What may be done with a device: from one state to another, the link being open or not at either end,
with these commands sent. -/
inductive Transport.Usage {δ : Type} (t : Transport δ) (c : InstrumentConfig) :
    Bool → δ → List Text → Bool → δ → Prop
  | idle {held : Bool} {d : δ} : Usage t c held d [] held d
  | opened {d d' d'' : δ} {commands : List Text} {held : Bool} : t.connect c d = (.ok (), d') →
      Usage t c true d' commands held d'' → Usage t c false d commands held d''
  | refused {d d' d'' : δ} {e : LinkError} {commands : List Text} {held : Bool} :
      t.connect c d = (.error e, d') →
      Usage t c false d' commands held d'' → Usage t c false d commands held d''
  | wrote {d d' : δ} (command : Text) {commands : List Text} {held : Bool} :
      Usage t c true (t.write c command d).2 commands held d' →
      Usage t c true d (command :: commands) held d'
  | queried {d d' : δ} (command : Text) {commands : List Text} {held : Bool} :
      Usage t c true (t.query c command d).2 commands held d' →
      Usage t c true d (command :: commands) held d'
  | read {d d' : δ} {commands : List Text} {held : Bool} :
      Usage t c true (t.readAvailable c d).2 commands held d' → Usage t c true d commands held d'
  | closed {d d' : δ} {commands : List Text} {held : Bool} :
      Usage t c false (t.close c d) commands held d' → Usage t c true d commands held d'

namespace Transport.Usage

variable {δ : Type} {t : Transport δ} {c : InstrumentConfig}

theorem trans {held held' held'' : Bool} {d d' d'' : δ} {commands more : List Text}
    (h : t.Usage c held d commands held' d') (h' : t.Usage c held' d' more held'' d'') :
    t.Usage c held d (commands ++ more) held'' d'' := by
  induction h with
  | idle => exact h'
  | opened hconnect _ ih => exact .opened hconnect (ih h')
  | refused hconnect _ ih => exact .refused hconnect (ih h')
  | wrote command _ ih => exact .wrote command (ih h')
  | queried command _ ih => exact .queried command (ih h')
  | read _ ih => exact .read (ih h')
  | closed _ ih => exact .closed (ih h')

/-- A use of an open link, which is closed then. -/
theorem close {d d' : δ} {commands : List Text} (h : t.Usage c true d commands true d') :
    t.Usage c true d commands false (t.close c d') := by
  have closed := h.trans (.closed .idle)
  rwa [List.append_nil] at closed

end Transport.Usage

/-- Commands that are steps with arguments filled in, from the first step as far as they go. -/
def Rendered (args : List Text) (steps : List Step) (commands : List Text) : Prop :=
  ∃ done, done <+: steps ∧
    List.Forall₂ (fun step command => ∃ id, Template.render id step.template args = .ok command) done commands

namespace Rendered

variable {args : List Text} {steps : List Step}

theorem nil : Rendered args steps [] := ⟨[], List.nil_prefix, .nil⟩

theorem cons {id command : Text} {step : Step} {commands : List Text}
    (hcommand : Template.render id step.template args = .ok command) (h : Rendered args steps commands) :
    Rendered args (step :: steps) (command :: commands) := by
  obtain ⟨done, hprefix, hdone⟩ := h
  exact ⟨step :: done, (List.prefix_cons_inj step).mpr hprefix, .cons ⟨id, hcommand⟩ hdone⟩

end Rendered

namespace Instrument

variable {δ : Type} {i : Instrument δ}

/-! ## On an open link -/

theorem usage_send (step : Step) (command : Text) (d : δ) :
    i.transport.Usage i.config true d [command] true (i.send step command d).2 := by
  unfold send
  cases step with
  | write template =>
    have wrote : i.transport.Usage i.config true d [command] true
        (i.transport.write i.config command d).2 := .wrote command .idle
    dsimp only
    split <;> next heq => rw [heq] at wrote; exact wrote
  | query template =>
    have queried : i.transport.Usage i.config true d [command] true
        (i.transport.query i.config command d).2 := .queried command .idle
    dsimp only
    split <;> next heq => rw [heq] at queried; exact queried

theorem usage_runSteps (id : Text) (args : List Text) (steps : List Step) :
    ∀ (last : Option Text) (d : δ), ∃ commands,
      i.transport.Usage i.config true d commands true (i.runSteps id args steps last d).2 ∧
      Rendered args steps commands := by
  induction steps with
  | nil => exact fun _ _ => ⟨[], .idle, .nil⟩
  | cons step rest ih =>
    intro last d
    rw [runSteps]
    cases hrender : Template.render id step.template args with
    | error e => exact ⟨[], .idle, .nil⟩
    | ok command =>
      have sent := usage_send (i := i) step command d
      dsimp only
      rcases hsend : i.send step command d with ⟨e | reply, d'⟩ <;> rw [hsend] at sent
      · exact ⟨[command], sent, .cons hrender .nil⟩
      · obtain ⟨commands, usage, rendered⟩ := ih (reply <|> last) d'
        exact ⟨command :: commands, sent.trans usage, .cons hrender rendered⟩

theorem settle_devices (p : Parameter) (d : δ) (outcome : Except CommandError (Option Json)) :
    (i.settle p d outcome).2.2 = d := by
  cases outcome <;> rfl

theorem usage_read (p : Parameter) (args : List Text) (d : δ) :
    ∃ commands, i.transport.Usage i.config true d commands true (i.read p args d).2.2 := by
  unfold read
  split
  · exact ⟨[], .idle⟩
  · next steps _ =>
    split
    · obtain ⟨commands, usage, -⟩ := usage_runSteps (i := i) p.name args steps none d
      refine ⟨commands, ?_⟩
      split <;> next heq => rw [heq] at usage; first | exact usage | rw [settle_devices]; exact usage
    · exact ⟨[], .idle⟩

theorem usage_write (p : Parameter) (args : List Text) (d : δ) :
    ∃ commands, i.transport.Usage i.config true d commands true (i.write p args d).2.2 ∧
      ∀ w, p.setter = some w → Rendered args w.steps commands := by
  unfold write
  cases p.setter with
  | none => exact ⟨[], .idle, nofun⟩
  | some w =>
    dsimp only
    split
    · exact ⟨[], .idle, fun _ _ => .nil⟩
    · obtain ⟨commands, usage, rendered⟩ := usage_runSteps (i := i) p.name args w.steps none d
      refine ⟨commands, ?_, ?_⟩
      · split <;> next heq => rw [heq] at usage; first | exact usage | rw [settle_devices]; exact usage
      · rintro _ ⟨⟩
        exact rendered

/-! ## Requests -/

theorem usage_degrade (held : i.held = true) (d : δ) :
    i.transport.Usage i.config true d [] (i.degrade d).1.held (i.degrade d).2 := by
  rw [degrade, if_pos held]
  exact .closed .idle

/-- What is read or written, before it is known whether the link is lost. -/
theorem usage_exchange (p : Parameter) (r : Request) (d : δ) :
    ∃ commands, i.transport.Usage i.config true d commands true
        (if r.kind = .get then i.read p r.args d else i.write p r.args d).2.2 ∧
      ∀ w, r.kind = .set → p.setter = some w → Rendered r.args w.steps commands := by
  split
  · next hget =>
    obtain ⟨commands, usage⟩ := usage_read (i := i) p r.args d
    refine ⟨commands, usage, fun _ hset => ?_⟩
    cases hget.symm.trans hset
  · obtain ⟨commands, usage, rendered⟩ := usage_write (i := i) p r.args d
    exact ⟨commands, usage, fun w _ => rendered w⟩

theorem usage_command (r : Request) (d : δ) :
    ∃ commands, i.transport.Usage i.config i.held d commands (i.command r d).2.1.held
        (i.command r d).2.2 ∧
      ∀ p w, r.kind = .set → i.setter? r.id = some (p, w) → Rendered r.args w.steps commands := by
  unfold command setter?
  cases i.parameter? r.id with
  | none => exact ⟨[], .idle, nofun⟩
  | some p =>
    dsimp only
    split
    · next link =>
      obtain ⟨commands, usage, rendered⟩ := usage_exchange (i := i) p r d
      obtain ⟨m, hm⟩ := exchange_eq i p r d
      have steps : ∀ q w, r.kind = .set → (Option.map (fun w => (p, w)) p.setter) = some (q, w) →
          Rendered r.args w.steps commands := by
        rintro q w hset hsetter
        obtain ⟨_, hw, ⟨⟩⟩ := Option.map_eq_some_iff.mp hsetter
        exact rendered w hset hw
      rw [link.2]
      split <;> next heq =>
        rw [heq] at usage hm
        dsimp only at hm
        subst hm
        refine ⟨commands, ?_, steps⟩
        first
          | exact link.2 ▸ usage
          | have lost := usage.trans (usage_degrade (i := i.withMemory m) link.2 _)
            rwa [List.append_nil] at lost
    · exact ⟨[], .idle, fun _ _ _ _ => .nil⟩

theorem usage_lifecycleSteps (name : Text) (args : List Text) (d : δ) :
    ∃ commands, i.transport.Usage i.config true d commands true (i.lifecycleSteps name args d).2 ∧
      ∀ p w, i.setter? name = some (p, w) → Rendered args w.steps commands := by
  unfold lifecycleSteps
  cases hsetter : i.setter? name with
  | none => exact ⟨[], .idle, nofun⟩
  | some declared =>
    obtain ⟨p, w⟩ := declared
    obtain ⟨commands, usage, rendered⟩ := usage_runSteps (i := i) name args w.steps none d
    refine ⟨commands, usage, ?_⟩
    rintro _ _ ⟨⟩
    exact rendered

theorem usage_connect (settled : Settled i) (args : List Text) (d : δ) :
    ∃ commands, i.transport.Usage i.config i.held d commands (i.connect args d).2.1.held
        (i.connect args d).2.2 ∧
      ∀ p w, i.setter? connectName = some (p, w) → Rendered args w.steps commands := by
  unfold connect
  split
  · exact ⟨[], .idle, fun _ _ _ => .nil⟩
  · split
    · exact ⟨[], .idle, fun _ _ _ => .nil⟩
    · next closed =>
      have free : i.held = false := Bool.eq_false_iff.mpr fun held => closed (settled.held.mp held)
      dsimp only
      split
      · next heq =>
        refine ⟨[], ?_, fun _ _ _ => .nil⟩
        exact (congrArg (i.transport.Usage i.config · d [] false _) free).mpr (.refused heq .idle)
      · next d' hopen =>
        obtain ⟨commands, usage, rendered⟩ :=
          usage_lifecycleSteps (i := { i with state := .connecting }) connectName args d'
        refine ⟨commands, ?_, rendered⟩
        split <;> next heq =>
          rw [heq] at usage
          refine (congrArg (i.transport.Usage i.config · d commands _ _) free).mpr (.opened hopen ?_)
          first
            | exact usage
            | exact usage.close

theorem usage_closingSteps (args : List Text) (d : δ) :
    ∃ commands, i.transport.Usage i.config true d commands true (i.closingSteps args d) ∧
      ∀ p w, i.setter? disconnectName = some (p, w) → Rendered args w.steps commands := by
  unfold closingSteps
  cases hsetter : i.setter? disconnectName with
  | none => exact ⟨[], .idle, nofun⟩
  | some declared =>
    obtain ⟨p, w⟩ := declared
    dsimp only
    split
    · obtain ⟨commands, usage, rendered⟩ := usage_runSteps (i := i) disconnectName args w.steps none d
      refine ⟨commands, usage, ?_⟩
      rintro _ _ ⟨⟩
      exact rendered
    · exact ⟨[], .idle, fun _ _ _ => .nil⟩

theorem usage_disconnect (settled : Settled i) (args : List Text) (d : δ) :
    ∃ commands, i.transport.Usage i.config i.held d commands (i.disconnect args d).1.held
        (i.disconnect args d).2 ∧
      ∀ p w, i.setter? disconnectName = some (p, w) → Rendered args w.steps commands := by
  unfold disconnect
  split
  · next connected =>
    obtain ⟨commands, usage, rendered⟩ := usage_closingSteps (i := i) args d
    rw [settled.held.mpr connected]
    exact ⟨commands, usage.close, rendered⟩
  · exact ⟨[], .idle, fun _ _ _ => .nil⟩

theorem usage_perform (settled : Settled i) (r : Request) (d : δ) :
    ∃ commands, i.transport.Usage i.config i.held d commands (i.perform r d).2.1.held
        (i.perform r d).2.2 ∧
      ∀ p w, r.kind = .set → i.setter? r.id = some (p, w) → Rendered r.args w.steps commands := by
  unfold perform
  split
  · split
    · next hid =>
      obtain ⟨commands, usage, rendered⟩ := usage_connect settled r.args d
      exact ⟨commands, usage, fun p w _ hsetter => rendered p w (hid ▸ hsetter)⟩
    · split
      · next hid =>
        obtain ⟨commands, usage, rendered⟩ := usage_disconnect settled r.args d
        exact ⟨commands, usage, fun p w _ hsetter => rendered p w (hid ▸ hsetter)⟩
      · exact usage_command r d
  · exact usage_command r d
  · exact ⟨[], .idle, fun _ _ _ _ => .nil⟩

/-- What a request does with the link, and which commands a declared setter makes it send. -/
theorem usage_execute (settled : Settled i) (r : Request) (d : δ) :
    ∃ commands, i.transport.Usage i.config i.held d commands (i.execute r d).2.1.held
        (i.execute r d).2.2 ∧
      ∀ p w, r.kind = .set → i.setter? r.id = some (p, w) → Rendered r.args w.steps commands := by
  rw [execute]
  split
  · exact usage_perform settled r d
  · exact ⟨[], .idle, fun _ _ _ _ => .nil⟩

/-! ## Acquisition -/

theorem usage_pollFrom (names : List Text) :
    ∀ {i : Instrument δ}, i.held = true → ∀ d, ∃ commands,
      i.transport.Usage i.config true d commands (i.pollFrom names d).2.1.held
        (i.pollFrom names d).2.2 := by
  induction names with
  | nil =>
    intro i held d
    exact ⟨[], held ▸ .idle⟩
  | cons name rest ih =>
    intro i held d
    rw [pollFrom]
    split
    · exact ih held d
    · next p _ =>
      obtain ⟨commands, usage⟩ := usage_read (i := i) p [] d
      obtain ⟨m, hm⟩ := read_eq i p [] d
      have held' : (i.withMemory m).held = true := held
      split <;> next heq =>
        rw [heq] at usage hm
        dsimp only at hm
        subst hm
        first
          | obtain ⟨more, later⟩ := ih held' _
            exact ⟨commands ++ more, usage.trans later⟩
          | exact ⟨commands ++ [], usage.trans (usage_degrade held' _)⟩

theorem usage_drain (held : i.held = true) (a : Record.Accumulator) (d : δ) :
    ∃ commands, i.transport.Usage i.config true d commands (i.drain a d).2.1.held (i.drain a d).2.2 := by
  have read : i.transport.Usage i.config true d [] true (i.transport.readAvailable i.config d).2 :=
    .read .idle
  refine ⟨[], ?_⟩
  unfold drain
  split
  · next bytes d' heq =>
    rw [heq] at read
    obtain ⟨m, hm⟩ := absorb_eq ((a.push bytes).1.flatMap Record.fields)
      { i with worker := some (a.push bytes).2 }
    dsimp only
    rw [hm]
    exact held ▸ read
  · next e d' heq =>
    rw [heq] at read
    split
    · exact read.trans (usage_degrade held _)
    · exact held ▸ read

/-- Whatever is done with an instrument, it uses its link with discipline. -/
theorem usage_act (settled : Settled i) (op : Operation) (d : δ) :
    ∃ commands, i.transport.Usage i.config i.held d commands (i.act op d).1.held (i.act op d).2 := by
  cases op with
  | execute r =>
    obtain ⟨commands, usage, -⟩ := usage_execute settled r d
    exact ⟨commands, usage⟩
  | poll =>
    rw [act]
    split
    · next link =>
      rw [link.2]
      exact usage_pollFrom _ link.2 d
    · exact ⟨[], .idle⟩
  | drain a =>
    rw [act]
    split
    · next link =>
      rw [link.2]
      exact usage_drain link.2 a d
    · exact ⟨[], .idle⟩
  | shutdown =>
    obtain ⟨commands, usage, -⟩ := usage_disconnect settled [] d
    exact ⟨commands, usage⟩

/-- And so it is with one thing after another. -/
theorem usage_run (ops : List Operation) :
    ∀ {i : Instrument δ} {d : δ}, Settled i → ∃ commands,
      i.transport.Usage i.config i.held d commands (run ops i d).1.held (run ops i d).2 := by
  induction ops with
  | nil => exact fun _ => ⟨[], .idle⟩
  | cons op rest ih =>
    intro i d settled
    obtain ⟨commands, usage⟩ := usage_act settled op d
    obtain ⟨more, later⟩ := ih (d := (i.act op d).2) (settled.act op d)
    have make := sameMake_act i op d
    rw [make.transport, make.config] at later
    exact ⟨commands ++ more, usage.trans later⟩

end Instrument

end GroundStation
