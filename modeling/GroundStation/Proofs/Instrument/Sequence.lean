/-
# The steps of a write, one by one

To write a parameter is to run the steps of its setter.  What the transport sees of that is a list of
commands, and `Transport.recorded` is any transport that keeps this list: each command with the operation it
came by, and what came of it.  The transport itself does and answers what it did before.

The list follows the steps (`Sequenced`).  It holds the commands of the first steps in their order, each step
with its arguments filled in; it ends at the latest with the step that fails; and what the transport carried
out is the whole list of steps if and only if none has failed.  A step may fail before the transport sees it
or in the transport, and the command of one that fails there has been received.  So the transport may have
received the commands of all steps although one failed, which is the last one then.

If no step fails, one thing decides the value, the answer and what is remembered alike (`Ends`): the reply of
the last query where there is one, else the single argument.
-/
import GroundStation.Proofs.Instrument.Arity
import GroundStation.Proofs.Parameter.Arguments
import GroundStation.Proofs.Parameter.WellFormed

namespace GroundStation

/-! ## What a transport sees -/

/-- A command given to a transport, as a step with its arguments filled in, and what came of it. -/
structure Transmission where
  command : Step
  outcome : Except LinkError (Option Text)

namespace Transmission

/-- Whether the transport failed. -/
def failed (t : Transmission) : Bool :=
  match t.outcome with
  | .ok _ => false
  | .error _ => true

/-- The reply, if there was one. -/
def reply? (t : Transmission) : Option Text :=
  match t.outcome with
  | .ok reply => reply
  | .error _ => none

end Transmission

/-- A transport that keeps the commands it is given, with what came of them, beside the state of the devices. -/
def Transport.recorded {δ : Type} (t : Transport δ) : Transport (δ × List Transmission) where
  connect := fun c s => ((t.connect c s.1).1, (t.connect c s.1).2, s.2)
  write := fun c command s =>
    ((t.write c command s.1).1, (t.write c command s.1).2,
      s.2 ++ [⟨.write command, (t.write c command s.1).1.map fun _ => none⟩])
  query := fun c command s =>
    ((t.query c command s.1).1, (t.query c command s.1).2,
      s.2 ++ [⟨.query command, (t.query c command s.1).1.map some⟩])
  readAvailable := fun c s => ((t.readAvailable c s.1).1, (t.readAvailable c s.1).2, s.2)
  close := fun c s => (t.close c s.1, s.2)

/-- The same operation with another text. -/
def Step.withText (text : Text) : Step → Step
  | write _ => write text
  | query _ => query text

/-- A step with its arguments filled in. -/
def Step.fill (name : Text) (args : List Text) (step : Step) : Except CommandError Step :=
  (Template.render name step.template args).map step.withText

/-- The step at a position fails: its arguments cannot be filled in when its turn comes, or the transport
fails on it. -/
def FailsAt (name : Text) (args : List Text) (steps : List Step) (log : List Transmission) (n : Nat) : Prop :=
  (n = log.length ∧ (∀ t ∈ log, t.failed = false) ∧
      ∃ step e, steps[n]? = some step ∧ step.fill name args = .error e) ∨
    ∃ t, log[n]? = some t ∧ t.failed = true

/-- What a transport has seen of the steps of a command. -/
structure Sequenced (name : Text) (args : List Text) (steps : List Step) (log : List Transmission) : Prop where
  rendered : List.Forall₂ (fun step t => step.fill name args = .ok t.command) (steps.take log.length) log
  stops : ∀ n, FailsAt name args steps log n → log.length ≤ n + 1
  carriedOut : (log.filter fun t => !t.failed).length = steps.length ↔ ∀ n, ¬FailsAt name args steps log n
  received : log.length = steps.length ↔
    ∀ n, FailsAt name args steps log n → n + 1 = steps.length ∧ n < log.length

/-- What it comes to that no step has failed. -/
inductive Ends (p : Parameter) (w : Setter) (args : List Text) (log : List Transmission) :
    Except CommandError (Option Json) → Prop
  | replied {reply : Text} {type : ValueType} {v : Json} : w.steps.any Step.isQuery = true →
      (log.filterMap Transmission.reply?).getLast? = some reply → p.valueType = some type →
      type.parse? reply = some v → Ends p w args log (.ok (some v))
  | unreadable {reply : Text} {type : ValueType} : w.steps.any Step.isQuery = true →
      (log.filterMap Transmission.reply?).getLast? = some reply → p.valueType = some type →
      type.parse? reply = none → Ends p w args log (.error (.unparsableReply p.name reply))
  | typed {arg : Text} {type : ValueType} {v : Json} : w.steps.any Step.isQuery = false → args = [arg] →
      w.argTypes = [some type] → type.parse? arg = some v → Ends p w args log (.ok (some v))
  | untyped {arg : Text} : w.steps.any Step.isQuery = false → args = [arg] → w.argTypes = [none] →
      Ends p w args log (.ok (some (.str arg)))
  | nothing : w.steps.any Step.isQuery = false → args.length ≠ 1 → Ends p w args log (.ok none)

/-! ## The steps in turn -/

/-- The steps in turn: each is filled in and carried out, up to the first that fails.  The last index tells
whether none does. -/
inductive Course (name : Text) (args : List Text) : List Step → List Transmission → Bool → Prop
  | done : Course name args [] [] true
  | unfilled {step : Step} {rest : List Step} {e : CommandError} : step.fill name args = .error e →
      Course name args (step :: rest) [] false
  | failed {step command : Step} {rest : List Step} {e : LinkError} : step.fill name args = .ok command →
      Course name args (step :: rest) [⟨command, .error e⟩] false
  | went {step command : Step} {rest : List Step} {reply : Option Text} {log : List Transmission}
      {whole : Bool} : step.fill name args = .ok command → reply.isSome = step.isQuery →
      Course name args rest log whole →
      Course name args (step :: rest) (⟨command, .ok reply⟩ :: log) whole

namespace Course

variable {name : Text} {args : List Text} {steps : List Step} {log : List Transmission} {whole : Bool}

theorem rendered (h : Course name args steps log whole) :
    List.Forall₂ (fun step t => step.fill name args = .ok t.command) (steps.take log.length) log := by
  induction h with
  | done => exact .nil
  | unfilled => exact .nil
  | failed hfill => exact .cons hfill .nil
  | went hfill _ _ ih => exact .cons hfill ih

theorem length_le (h : Course name args steps log whole) : log.length ≤ steps.length := by
  have hlength := h.rendered.length_eq
  rw [List.length_take] at hlength
  omega

/-- The transport carried out all steps if none fails, and fewer otherwise. -/
theorem carriedOut_iff (h : Course name args steps log whole) :
    (log.filter fun t => !t.failed).length = steps.length ↔ whole = true := by
  induction h with
  | done => exact iff_of_true rfl rfl
  | unfilled => simp
  | failed => simp [Transmission.failed]
  | went _ _ _ ih => simpa [Transmission.failed] using ih

/-- The step that fails is the first that the transport has not carried out. -/
theorem failsAt_iff (h : Course name args steps log whole) :
    ∀ n, FailsAt name args steps log n ↔ whole = false ∧ n = (log.filter fun t => !t.failed).length := by
  induction h with
  | done => simp [FailsAt]
  | unfilled hfill =>
    intro n
    simp +contextual [FailsAt, hfill]
  | failed =>
    intro n
    cases n <;> simp [FailsAt, Transmission.failed]
  | went _ _ _ ih =>
    intro n
    cases n with
    | zero => simp [FailsAt, Transmission.failed]
    | succ n => simpa [FailsAt, Transmission.failed] using ih n

theorem forall_not_failsAt_iff (h : Course name args steps log whole) :
    (∀ n, ¬FailsAt name args steps log n) ↔ whole = true := by
  simp [h.failsAt_iff]

/-- Nothing is sent behind a command that the transport failed on. -/
theorem length_le_carriedOut (h : Course name args steps log whole) :
    log.length ≤ (log.filter fun t => !t.failed).length + 1 := by
  induction h with
  | done => exact Nat.zero_le 1
  | unfilled => exact Nat.zero_le 1
  | failed => exact Nat.le_refl 1
  | went _ _ _ ih => simpa [Transmission.failed] using ih

theorem sequenced (h : Course name args steps log whole) : Sequenced name args steps log := by
  have hle := h.length_le
  have hcarried := h.length_le_carriedOut
  have hfilter : (log.filter fun t => !t.failed).length ≤ log.length := List.length_filter_le _ _
  have hiff := h.carriedOut_iff
  constructor
  case rendered => exact h.rendered
  case stops =>
    intro n hn
    rw [((h.failsAt_iff n).mp hn).2]
    exact hcarried
  case carriedOut => rw [hiff, h.forall_not_failsAt_iff]
  case received =>
    simp only [h.failsAt_iff, and_imp, forall_eq_apply_imp_iff]
    cases whole with
    | true =>
      have hall := hiff.mpr rfl
      exact iff_of_true (by omega) nofun
    | false =>
      have hnot : (log.filter fun t => !t.failed).length ≠ steps.length := fun heq =>
        Bool.false_ne_true (hiff.mp heq)
      constructor
      · intro hlength _
        omega
      · intro hlast
        obtain ⟨hsteps, hseen⟩ := hlast rfl
        omega

/-- Where all steps go there is a reply if and only if one of them queries. -/
theorem reply_eq_none_iff (h : Course name args steps log whole) (none : whole = true) :
    (log.filterMap Transmission.reply?).getLast? = Option.none ↔ steps.any Step.isQuery = false := by
  induction h with
  | done => simp
  | unfilled => cases none
  | failed => cases none
  | @went step command rest reply log whole hfill hreply _ ih =>
    rw [List.any_cons, ← hreply]
    cases reply with
    | none => simpa [Transmission.reply?] using ih none
    | some reply => simp [Transmission.reply?]

end Course

namespace Instrument

variable {δ : Type}

/-- The instrument, with what its transport sees kept beside the devices. -/
def recorded (i : Instrument δ) : Instrument (δ × List Transmission) where
  config := i.config
  parameters := i.parameters
  transport := i.transport.recorded
  memory := i.memory
  state := i.state
  held := i.held
  worker := i.worker

variable {i : Instrument δ}

theorem send_recorded (step : Step) (command : Text) (d : δ) (log : List Transmission) :
    i.recorded.send step command (d, log) = ((i.send step command d).1, (i.send step command d).2,
      log ++ [⟨step.withText command, (i.send step command d).1⟩]) := by
  cases step with
  | write template =>
    simp only [send, recorded, Transport.recorded]
    rcases i.transport.write i.config command d with ⟨_ | _, d'⟩ <;> rfl
  | query template =>
    simp only [send, recorded, Transport.recorded]
    rcases i.transport.query i.config command d with ⟨_ | _, d'⟩ <;> rfl

theorem isSome_of_send {step : Step} {command : Text} {d d' : δ} {reply : Option Text}
    (h : i.send step command d = (.ok reply, d')) : reply.isSome = step.isQuery := by
  unfold send at h
  split at h
  · split at h <;> cases h
    rfl
  · split at h <;> cases h
    rfl

/-- Steps are run on a transport that keeps its commands as on the transport itself, and what is kept is their
course. -/
theorem runSteps_recorded (name : Text) (args : List Text) (steps : List Step) :
    ∀ (last : Option Text) (d : δ), ∃ log whole, Course name args steps log whole ∧
      (∀ before, i.recorded.runSteps name args steps last (d, before) =
        ((i.runSteps name args steps last d).1, (i.runSteps name args steps last d).2, before ++ log)) ∧
      (whole = true → (i.runSteps name args steps last d).1 =
        .ok ((log.filterMap Transmission.reply?).getLast?.or last)) ∧
      (whole = false → ∃ f, (i.runSteps name args steps last d).1 = .error f) := by
  induction steps with
  | nil =>
    intro last d
    refine ⟨[], true, .done, fun before => ?_, fun _ => rfl, Bool.noConfusion⟩
    rw [List.append_nil]
    rfl
  | cons step rest ih =>
    intro last d
    simp only [runSteps, send_recorded]
    cases hrender : Template.render name step.template args with
    | error e =>
      have hfill : step.fill name args = .error e := by
        rw [Step.fill, hrender]
        rfl
      refine ⟨[], false, .unfilled hfill, fun before => ?_, Bool.noConfusion, fun _ => ⟨_, rfl⟩⟩
      rw [List.append_nil]
    | ok command =>
      have hfill : step.fill name args = .ok (step.withText command) := by
        rw [Step.fill, hrender]
        rfl
      dsimp only
      rcases hsend : i.send step command d with ⟨e | reply, d'⟩
      · exact ⟨_, false, .failed hfill, fun before => rfl, Bool.noConfusion, fun _ => ⟨_, rfl⟩⟩
      · obtain ⟨log, whole, course, hrecorded, hok, herror⟩ := ih (reply <|> last) d'
        refine ⟨⟨step.withText command, .ok reply⟩ :: log, whole, .went hfill (isSome_of_send hsend) course,
          fun before => ?_, fun hwhole => ?_, herror⟩
        · dsimp only
          rw [hrecorded, List.append_assoc]
          rfl
        · dsimp only
          rw [hok hwhole]
          cases reply with
          | none => rfl
          | some reply =>
            -- a reply takes the place of the last one, unless a later one comes
            have hreplies : (⟨step.withText command, .ok (some reply)⟩ :: log : List Transmission).filterMap
                Transmission.reply? = reply :: log.filterMap Transmission.reply? := rfl
            rw [hreplies, List.getLast?_cons]
            cases (log.filterMap Transmission.reply?).getLast? <;> rfl

theorem remember_recorded (p : Parameter) (value : Option Json) :
    i.recorded.remember p value = (i.remember p value).recorded := by
  cases value <;> rfl

theorem settle_recorded (p : Parameter) (d : δ) (log : List Transmission)
    (outcome : Except CommandError (Option Json)) :
    i.recorded.settle p (d, log) outcome =
      ((i.settle p d outcome).1, (i.settle p d outcome).2.1.recorded, (i.settle p d outcome).2.2, log) := by
  cases outcome with
  | ok value => rw [settle, settle, remember_recorded]
  | error e => rfl

theorem conclude_recorded (result : Except Failure (Option Json) × Instrument δ × δ) (log : List Transmission) :
    conclude (result.1, result.2.1.recorded, result.2.2, log) =
      ((conclude result).1, (conclude result).2.1.recorded, (conclude result).2.2, log) := by
  obtain ⟨(e | e) | value, i, d⟩ := result
  · rfl
  · simp only [conclude, degrade]
    cases hheld : i.held with
    | false => simp [hheld, recorded, withoutLink]
    | true => simp [hheld, recorded, withoutLink, Transport.recorded]
  · rfl

/-- What the last reply, or the arguments if there is none, stand for. -/
def valueOf (p : Parameter) (typed : List (Option Json)) (args : List Text) (log : List Transmission) :
    Except CommandError (Option Json) :=
  match (log.filterMap Transmission.reply?).getLast? with
  | some reply => p.parseReply reply
  | none => .ok (writtenValue typed args)

/-- A write with suited arguments: the course of its steps, and then the value where none fails. -/
theorem write_recorded {p : Parameter} {w : Setter} {args : List Text} {typed : List (Option Json)}
    (setter : p.setter = some w) (suited : p.checkArgs w args = .ok typed) (d : δ) :
    ∃ log whole, Course p.name args w.steps log whole ∧
      (∀ before, i.recorded.write p args (d, before) = ((i.write p args d).1, (i.write p args d).2.1.recorded,
        (i.write p args d).2.2, before ++ log)) ∧
      (whole = true → ∃ d', i.write p args d = i.settle p d' (valueOf p typed args log)) ∧
      (whole = false → ∃ f d', i.write p args d = (.error f, i, d')) := by
  obtain ⟨log, whole, course, hrecorded, hok, herror⟩ := runSteps_recorded (i := i) p.name args w.steps none d
  refine ⟨log, whole, course, fun before => ?_, fun hwhole => ?_, fun hwhole => ?_⟩
  · simp only [write, setter, suited, hrecorded]
    rcases i.runSteps p.name args w.steps none d with ⟨e | _ | reply, d'⟩
    · rfl
    · exact settle_recorded p _ _ _
    · exact settle_recorded p _ _ _
  · have hreply := hok hwhole
    rcases hrun : i.runSteps p.name args w.steps none d with ⟨outcome, d'⟩
    rw [hrun] at hreply
    dsimp only at hreply
    subst hreply
    refine ⟨d', ?_⟩
    simp only [write, setter, suited, hrun, valueOf, Option.or_none]
    cases (log.filterMap Transmission.reply?).getLast? <;> rfl
  · obtain ⟨f, hf⟩ := herror hwhole
    rcases hrun : i.runSteps p.name args w.steps none d with ⟨outcome, d'⟩
    rw [hrun] at hf
    dsimp only at hf
    subst hf
    refine ⟨f, d', ?_⟩
    simp only [write, setter, suited, hrun]

end Instrument

/-! ## The value -/

namespace Parameter

theorem length_of_typedFrom {id : Text} {args : List Text} :
    ∀ {index : Nat} {types : List (Option ValueType)} {typed : List (Option Json)},
      typedFrom id index args types = .ok typed → types.length = args.length → typed.length = args.length := by
  induction args with
  | nil =>
    intro index types typed h _
    cases h
    rfl
  | cons arg args ih =>
    intro index types typed h hlength
    cases types with
    | nil => cases hlength
    | cons type types =>
      rcases typedFrom_cons id index arg args type types with ⟨_, -, -, heq⟩ | ⟨-, heq⟩ <;> rw [heq] at h
      · cases h
      · cases hrest : typedFrom id (index + 1) args types with
        | error e =>
          rw [hrest] at h
          cases h
        | ok rest =>
          rw [hrest] at h
          cases h
          exact congrArg (· + 1) (ih hrest (Nat.succ.inj hlength))

/-- What compiling says of a setter: a slot for each argument, and a type where it queries. -/
theorem setter_of_compile {name : Text} {d : ParameterDeclaration} {p : Parameter} (h : compile name d = .ok p)
    {w : Setter} (setter : p.setter = some w) :
    w.argTypes.length = w.signature.arity ∧ (w.steps.any Step.isQuery = true → p.valueType ≠ none) := by
  obtain ⟨-, type, getter, setter', -, -, hsetter, rfl⟩ := compile_eq_ok_iff.mp h
  dsimp only at setter
  subst setter
  have hrel := compileOptional_eq_ok_iff.mp hsetter
  generalize d.set = declared at hrel
  cases hrel with
  | some hw =>
    obtain ⟨-, hslots, -, -, hquery⟩ := (compileSetter_eq_ok_iff _).mp hw
    exact ⟨hslots.length_eq.symm, hquery⟩

theorem args_of_checkArgs {p : Parameter} {w : Setter} {args : List Text} {typed : List (Option Json)}
    (suited : p.checkArgs w args = .ok typed) :
    args.length = w.signature.arity ∧ typedFrom p.name 0 args w.argTypes = .ok typed := by
  unfold checkArgs at suited
  split at suited
  · cases suited
  · next hcount => exact ⟨Decidable.of_not_not hcount, suited⟩

end Parameter

namespace Instrument

variable {p : Parameter} {w : Setter} {args : List Text} {typed : List (Option Json)} {log : List Transmission}

/-- The value that arguments stand for, where nothing replies. -/
theorem ends_of_arguments (slots : w.argTypes.length = w.signature.arity)
    (suited : p.checkArgs w args = .ok typed) (silent : w.steps.any Step.isQuery = false) :
    Ends p w args log (.ok (writtenValue typed args)) := by
  obtain ⟨hcount, htyped⟩ := Parameter.args_of_checkArgs suited
  rw [← hcount] at slots
  match args, htyped, slots with
  | [], htyped, _ =>
    cases htyped
    exact .nothing silent nofun
  | [arg], htyped, slots =>
    obtain ⟨slot, hslot⟩ := List.length_eq_one_iff.mp slots
    rw [hslot] at htyped
    cases slot with
    | none =>
      cases htyped
      exact .untyped silent rfl hslot
    | some type =>
      rcases Parameter.typedFrom_cons p.name 0 arg [] (some type) [] with ⟨_, -, -, heq⟩ | ⟨hparses, heq⟩ <;>
        rw [heq] at htyped
      · cases htyped
      · obtain ⟨v, hv⟩ := Option.ne_none_iff_exists'.mp (hparses type rfl)
        rw [Option.bind_some, hv] at htyped
        cases htyped
        exact .typed silent rfl hslot hv
  | arg :: arg' :: rest, htyped, slots =>
    have hlength := Parameter.length_of_typedFrom htyped slots
    match typed, hlength with
    | first :: second :: others, _ =>
      have hvalue : writtenValue (first :: second :: others) (arg :: arg' :: rest) = none := by
        cases first <;> rfl
      rw [hvalue]
      exact .nothing silent (by simp)

theorem ends_of_course {name : Text} {d : ParameterDeclaration} (compiled : Parameter.compile name d = .ok p)
    (setter : p.setter = some w) (suited : p.checkArgs w args = .ok typed)
    (course : Course p.name args w.steps log true) : Ends p w args log (valueOf p typed args log) := by
  obtain ⟨slots, hquery⟩ := Parameter.setter_of_compile compiled setter
  have hnone := course.reply_eq_none_iff rfl
  unfold valueOf
  cases hlast : (log.filterMap Transmission.reply?).getLast? with
  | none => exact ends_of_arguments slots suited (hnone.mp hlast)
  | some reply =>
    have queries : w.steps.any Step.isQuery = true := by
      rw [← Bool.not_eq_false, ← hnone, hlast]
      exact nofun
    obtain ⟨type, htype⟩ := Option.ne_none_iff_exists'.mp (hquery queries)
    dsimp only
    rw [Parameter.parseReply, htype]
    dsimp only
    cases hparse : type.parse? reply with
    | none => exact .unreadable queries hlast htype hparse
    | some v => exact .replied queries hlast htype hparse

/-! ## The whole request -/

variable {δ : Type} {i j : Instrument δ}

/-- The parameters of an accepted instrument are compiled. -/
theorem exists_compile_of_setter? {registry : Registry δ} {c : InstrumentConfig}
    (accepted : assemble registry c = .ok i) (make : SameMake i j) {name : Text}
    (declared : j.setter? name = some (p, w)) :
    (∃ d, Parameter.compile name d = .ok p) ∧ j.parameter? name = some p ∧ p.setter = some w := by
  obtain ⟨_, parameters, -, hcompiled, -, rfl⟩ := assemble_eq_ok accepted
  obtain ⟨q, hq, hsetter⟩ := Option.bind_eq_some_iff.mp declared
  obtain ⟨w', hw, heq⟩ := Option.map_eq_some_iff.mp hsetter
  cases heq
  have hfound := hq
  rw [parameter?, make.parameters] at hfound
  obtain ⟨d, -, hd⟩ := (mem_compileParameters_iff hcompiled).mp (Keyed.mem_of_get? hfound)
  exact ⟨⟨d, hd⟩, hq, hw⟩

/-- What a value does to the memory. -/
def remembered (p : Parameter) (m : Memory) : Except CommandError (Option Json) → Memory
  | .ok (some v) => m.store p.memoryKey v
  | .ok none => m
  | .error _ => m

theorem conclude_settle (i : Instrument δ) (p : Parameter) (d : δ)
    (outcome : Except CommandError (Option Json)) :
    (conclude (i.settle p d outcome)).1 = outcome ∧
      (conclude (i.settle p d outcome)).2.1.memory = remembered p i.memory outcome := by
  rcases outcome with _ | _ | v <;> exact ⟨rfl, rfl⟩

theorem conclude_failed (i : Instrument δ) (f : Failure) (d : δ) :
    (∃ e, (conclude (.error f, i, d)).1 = .error e) ∧ (conclude (.error f, i, d)).2.1.memory = i.memory := by
  cases f with
  | command e => exact ⟨⟨e, rfl⟩, rfl⟩
  | lost e => exact ⟨⟨_, rfl⟩, rfl⟩

theorem perform_ordinary {r : Request} (isSet : r.kind = .set) (ordinary : isLifecycle r.id = false) (d : δ) :
    i.perform r d = i.command r d := by
  obtain ⟨hopens, hcloses⟩ := not_or.mp (of_decide_eq_false ordinary)
  rw [perform, isSet]
  dsimp only
  rw [if_neg hopens, if_neg hcloses]

/-- A request to write, on an open link: its answer, and what a transport that keeps its commands has seen. -/
theorem command_sequence {r : Request} (isSet : r.kind = .set) (linked : i.state = .connected ∧ i.held)
    (named : i.parameter? r.id = some p) (setter : p.setter = some w) {declaration : ParameterDeclaration}
    (compiled : Parameter.compile r.id declaration = .ok p) (suited : p.checkArgs w r.args = .ok typed)
    (d : δ) :
    ∃ log, Sequenced r.id r.args w.steps log ∧
      (∀ before, i.recorded.command r (d, before) =
        ((i.command r d).1, (i.command r d).2.1.recorded, (i.command r d).2.2, before ++ log)) ∧
      (i.command r d).2.1.memory = remembered p i.memory (i.command r d).1 ∧
      ((∀ n, ¬FailsAt r.id r.args w.steps log n) → Ends p w r.args log (i.command r d).1) ∧
      ((∃ n, FailsAt r.id r.args w.steps log n) → ∃ e, (i.command r d).1 = .error e) := by
  obtain ⟨log, whole, course, hrecorded, hok, herror⟩ := write_recorded (i := i) setter suited d
  have hname : p.name = r.id := Parameter.name_of_compile compiled
  have hcommand : i.command r d = conclude (i.write p r.args d) := by
    rw [command_eq_conclude named linked, if_neg (by rw [isSet]; exact nofun)]
  have hcommand' : ∀ before, i.recorded.command r (d, before) =
      conclude (i.recorded.write p r.args (d, before)) := by
    intro before
    rw [command_eq_conclude (i := i.recorded) named linked, if_neg (by rw [isSet]; exact nofun)]
  refine ⟨log, hname ▸ course.sequenced, fun before => ?_, ?_⟩
  · rw [hcommand', hrecorded, conclude_recorded, hcommand]
  rw [hcommand, ← hname]
  cases whole with
  | true =>
    obtain ⟨d', hwrite⟩ := hok rfl
    obtain ⟨houtcome, hmemory⟩ := conclude_settle i p d' (valueOf p typed r.args log)
    rw [hwrite, houtcome]
    refine ⟨hmemory, fun _ => ends_of_course compiled setter suited course, fun ⟨n, hn⟩ => ?_⟩
    exact absurd hn (course.forall_not_failsAt_iff.mpr rfl n)
  | false =>
    obtain ⟨f, d', hwrite⟩ := herror rfl
    obtain ⟨⟨e, he⟩, hmemory⟩ := conclude_failed i f d'
    rw [hwrite, he]
    refine ⟨hmemory, fun hnone => ?_, fun _ => ⟨e, rfl⟩⟩
    exact absurd (course.forall_not_failsAt_iff.mp hnone) Bool.false_ne_true

/-- To set a parameter that neither opens nor closes the link, with arguments that suit it, on whatever
transport: the commands that the transport receives are steps of the setter, rendered, from the first on and in
their order, each once and by its own operation.  It has carried all of them out if and only if no step fails,
and received all of them if and only if no step fails but perhaps the last one, in the transport.  If none
fails, what is answered and remembered is the value of the last reply, or of the arguments; otherwise the
answer is an error and nothing is remembered. -/
theorem execute_sequence {registry : Registry δ} {c : InstrumentConfig} (accepted : assemble registry c = .ok i)
    (ops : List Operation) (d : δ) (connected : (run ops i d).1.state = .connected) {name : Text}
    (declared : (run ops i d).1.setter? name = some (p, w)) (ordinary : isLifecycle name = false)
    (suited : p.checkArgs w args = .ok typed) :
    ∃ j d' outcome k d'' log, run ops i d = (j, d') ∧
      j.execute ⟨some c.provider, name, .set, args⟩ d' =
        (some (respond ⟨some c.provider, name, .set, args⟩ outcome), k, d'') ∧
      (∀ before, j.recorded.execute ⟨some c.provider, name, .set, args⟩ (d', before) =
        (some (respond ⟨some c.provider, name, .set, args⟩ outcome), k.recorded, d'', before ++ log)) ∧
      Sequenced name args w.steps log ∧
      ((∀ n, ¬FailsAt name args w.steps log n) → Ends p w args log outcome) ∧
      ((∃ n, FailsAt name args w.steps log n) → ∃ e, outcome = .error e) ∧
      k.memory = remembered p j.memory outcome := by
  obtain ⟨j, d', hrun⟩ : ∃ j d', run ops i d = (j, d') := ⟨_, _, rfl⟩
  have make := sameMake_run ops i d
  have settled : Settled (run ops i d).1 := (settled_of_assemble accepted).run ops
  have provider : i.provider = c.provider := by
    obtain ⟨_, _, -, -, -, rfl⟩ := assemble_eq_ok accepted
    rfl
  rw [hrun] at make settled connected declared
  have linked : j.state = .connected ∧ j.held = true := ⟨connected, settled.held.mpr connected⟩
  obtain ⟨⟨declaration, compiled⟩, named, setter⟩ := exists_compile_of_setter? accepted make declared
  let r : Request := ⟨some c.provider, name, .set, args⟩
  have addressed : r.provider = some j.provider := congrArg some (provider.symm.trans make.provider.symm)
  obtain ⟨log, hsequenced, hrecorded, hmemory, hends, herror⟩ :=
    command_sequence (r := r) rfl linked named setter compiled suited d'
  refine ⟨j, d', (j.command r d').1, (j.command r d').2.1, (j.command r d').2.2, log, hrun, ?_,
    fun before => ?_, hsequenced, hends, herror, hmemory⟩
  · rw [execute_addressed addressed, perform_ordinary rfl ordinary]
  · rw [execute_addressed (i := j.recorded) addressed, perform_ordinary (i := j.recorded) rfl ordinary,
      hrecorded]

/-- A supply on a bench, whose voltage is set by some steps. -/
def regulated (steps : List Step) : InstrumentConfig :=
  { InstrumentConfig.supply with
    parameters := [("volt", ⟨"voltage", some "float", none, none, none,
      some ⟨some (.arr [.arr [.str "float"], .null]), steps.map Step.declaration⟩⟩)] }

/-- How its voltage is set. -/
def regulator (steps : List Step) : Setter := ⟨⟨[.str "float"], none⟩, [some .float], steps⟩

/-- The parameter of its voltage. -/
def regulatedVoltage (steps : List Step) : Parameter :=
  ⟨"volt", "voltage", some .float, "volt", none, none, some (regulator steps)⟩

/-- The supply as it is put together. -/
def regulatedSupply (steps : List Step) : Instrument Bench :=
  ⟨regulated steps, [("volt", regulatedVoltage steps)], Bench.transport, .seeded [], .disconnected, false, none⟩

/-- The supply and its bench once the link is open. -/
def regulatedOpened (steps : List Step) (script : Keyed (List Turn)) : Instrument Bench × Bench :=
  run [.execute ⟨some "psu", connectName, .set, []⟩] (regulatedSupply steps) ⟨[("psu", ⟨[], script, none, []⟩)]⟩

/-- The request to set the voltage to five. -/
def regulate : Request := ⟨some "psu", "volt", .set, ["5"]⟩

/-- The voltage is written and asked for. -/
def echoed : List Step := [.write "VOLT {0}", .query "VOLT?"]

/-- What the device says to it. -/
def echo : Keyed (List Turn) := [("VOLT?", [.ok "4.9"])]

/-- Of a supply that answers with another voltage, that one is remembered. -/
theorem execute_sequence_echoed :
    assemble Bench.registry (regulated echoed) = .ok (regulatedSupply echoed) ∧
      (regulatedOpened echoed echo).1.state = .connected ∧
      (regulatedOpened echoed echo).1.setter? "volt" = some (regulatedVoltage echoed, regulator echoed) ∧
      isLifecycle "volt" = false ∧
      (regulatedVoltage echoed).checkArgs (regulator echoed) ["5"] = .ok [ValueType.parse? .float "5"] ∧
      ∃ j d' outcome k d'' log, regulatedOpened echoed echo = (j, d') ∧
        j.execute regulate d' = (some (respond regulate outcome), k, d'') ∧
        (∀ before, j.recorded.execute regulate (d', before) =
          (some (respond regulate outcome), k.recorded, d'', before ++ log)) ∧
        log = [⟨.write "VOLT 5", .ok none⟩, ⟨.query "VOLT?", .ok (some "4.9")⟩] ∧
        Sequenced "volt" ["5"] echoed log ∧ k.memory.get? "volt" = ValueType.parse? .float "4.9" ∧
        outcome = .ok (ValueType.parse? .float "4.9") := by
  have accepted : assemble Bench.registry (regulated echoed) = .ok (regulatedSupply echoed) := rfl
  have connected : (regulatedOpened echoed echo).1.state = .connected := rfl
  have declared : (regulatedOpened echoed echo).1.setter? "volt" =
      some (regulatedVoltage echoed, regulator echoed) := rfl
  have suited : (regulatedVoltage echoed).checkArgs (regulator echoed) ["5"] =
      .ok [ValueType.parse? .float "5"] := rfl
  refine ⟨accepted, connected, declared, rfl, suited, ?_⟩
  obtain ⟨j, d', outcome, k, d'', log, hrun, hexecute, hrecorded, hsequenced, hends, -, hmemory⟩ :=
    execute_sequence accepted _ _ connected declared rfl suited
  have hlog : log = [⟨.write "VOLT 5", .ok none⟩, ⟨.query "VOLT?", .ok (some "4.9")⟩] := by
    cases hrun
    exact (congrArg (fun result => result.2.2.2) (hrecorded [])).symm
  have hcarried : (log.filter fun t => !t.failed).length = echoed.length := by
    rw [hlog]
    rfl
  have hended := hends (hsequenced.carriedOut.mp hcarried)
  obtain ⟨v, hv⟩ : ∃ v, ValueType.parse? .float "4.9" = some v := ⟨_, rfl⟩
  have hreply : (log.filterMap Transmission.reply?).getLast? = some ("4.9" : Text) := by
    rw [hlog]
    rfl
  have hanswer : outcome = .ok (some v) := by
    cases hended with
    | replied _ hlast htype hparse =>
      cases htype
      rw [hreply, Option.some.injEq] at hlast
      rw [← hparse, ← hlast, hv]
    | unreadable _ hlast htype hparse =>
      cases htype
      rw [hreply, Option.some.injEq] at hlast
      rw [← hlast, hv] at hparse
      cases hparse
    | typed silent => cases silent
    | untyped silent => cases silent
    | nothing silent => cases silent
  refine ⟨j, d', outcome, k, d'', log, hrun, hexecute, hrecorded, hlog, hsequenced, ?_, by rw [hv, hanswer]⟩
  rw [hmemory, hanswer, remembered, Memory.get?_store, hv]
  exact if_pos rfl

/-- Where the device refuses the only command, the transport has received all commands, and the step has
failed. -/
theorem execute_sequence_refused :
    let steps := [.write "VOLT {0}"]
    let opened := regulatedOpened steps [("VOLT 5", [.error .timeout])]
    let log := [⟨.write "VOLT 5", .error .timeout⟩]
    assemble Bench.registry (regulated steps) = .ok (regulatedSupply steps) ∧
      opened.1.state = .connected ∧
      opened.1.setter? "volt" = some (regulatedVoltage steps, regulator steps) ∧
      (regulatedVoltage steps).checkArgs (regulator steps) ["5"] = .ok [ValueType.parse? .float "5"] ∧
      (∃ k d, opened.1.recorded.execute regulate (opened.2, []) =
        (some (.errorFor regulate (.ofLink .timeout)), k, d, log)) ∧
      FailsAt "volt" ["5"] steps log 0 ∧ log.length = steps.length :=
  ⟨rfl, rfl, rfl, rfl, ⟨_, _, rfl⟩, .inr ⟨_, rfl, rfl⟩, rfl⟩

end Instrument

end GroundStation
