/-
# What a request that fails leaves behind

A request may be refused, before the instrument turns to its device, or it may fail on the way: a step
that cannot be filled, a device that does not answer, a reply that is not of its type, a link that is
lost.  Either way the memory is as it was, for a value is remembered last of all.

`Refusal i r e` lists the causes of the first kind, each for itself and without the order in which they
are looked for.  What a request comes to is then told by cases: `outcome_perform` says that a request for
whose refusal there is a cause changes nothing at all, and that any other either fails on the way or does
what it should, the device and the link being any.  So the four errors that a refusal is answered by tell
of a refusal and of nothing else.
-/
import GroundStation.Proofs.Instrument.Lifecycle
import GroundStation.Proofs.Parameter.Arguments

namespace GroundStation

/-! ## Causes -/

/-- Whether an error is one that a refusal is answered by. -/
def CommandError.isRefusal : CommandError → Bool
  | notRecognized => true
  | notConnected => true
  | wrongArgumentCount _ _ _ => true
  | invalidArgument _ _ _ _ => true
  | _ => false

/-- Whether a request is to open or close the link. -/
def Request.movesLink (r : Request) : Bool := r.kind = .set && isLifecycle r.id

/-- Whether a request is to read or write a parameter. -/
def Request.isExchange (r : Request) : Bool := r.kind = .get || r.kind = .set && !isLifecycle r.id

namespace Instrument

variable {δ : Type}

/-- A cause to refuse a request, and the answer that tells of it.  There is none to refuse to close the
link, and only wrong arguments to refuse to open it. -/
inductive Refusal (i : Instrument δ) (r : Request) : CommandError → Prop
  | notConnected : r.isExchange = true → i.state ≠ .connected → Refusal i r .notConnected
  | unknown : r.isExchange = true → i.parameter? r.id = none → Refusal i r .notRecognized
  | unreadable {p : Parameter} : r.kind = .get → i.parameter? r.id = some p → p.getter = none →
      Refusal i r .notRecognized
  | unwritable {p : Parameter} : r.kind = .set → r.isExchange = true → i.parameter? r.id = some p →
      p.setter = none → Refusal i r .notRecognized
  | readArguments {p : Parameter} : r.kind = .get → i.parameter? r.id = some p → r.args ≠ [] →
      Refusal i r (.wrongArgumentCount p.name 0 r.args.length)
  | writeArguments {p : Parameter} {w : Setter} {e : CommandError} : r.kind = .set →
      r.id ≠ disconnectName → i.parameter? r.id = some p → p.setter = some w →
      p.ArgumentFault w r.args e → Refusal i r e
  /-- Where it is not declared how the link is opened, that takes no arguments. -/
  | openArguments : r.kind = .set → r.id = connectName → i.setter? connectName = none → r.args ≠ [] →
      Refusal i r (.wrongArgumentCount connectName 0 r.args.length)

variable {i : Instrument δ} {p : Parameter} {r : Request} {d : δ} {e : CommandError}

/-- The causes do not depend on the ledger. -/
theorem Refusal.audited (h : Refusal i r e) : Refusal i.audited r e := by
  cases h with
  | notConnected hr hstate => exact .notConnected hr hstate
  | unknown hr hp => exact .unknown hr hp
  | unreadable hr hp hnone => exact .unreadable hr hp hnone
  | unwritable hr hr' hp hnone => exact .unwritable hr hr' hp hnone
  | readArguments hr hp hargs => exact .readArguments hr hp hargs
  | writeArguments hr hid hp hw hfault => exact .writeArguments hr hid hp hw hfault
  | openArguments hr hid hnone hargs => exact .openArguments hr hid hnone hargs

/-! ## Reading and writing -/

/-- A failure on the way is told from a refusal. -/
theorem isRefusal_ofLink (e : LinkError) : (CommandError.ofLink e).isRefusal = false := by
  cases e <;> rfl

theorem isRefusal_answer_ofLink (e : LinkError) : (Failure.ofLink e).answer.isRefusal = false := by
  unfold Failure.ofLink
  split <;> exact isRefusal_ofLink e

theorem isRefusal_of_render {id template : Text} {args : List Text} {e : CommandError}
    (h : Template.render id template args = .error e) : e.isRefusal = false := by
  unfold Template.render at h
  split at h
  · cases h
  · cases h
    rfl

theorem isRefusal_of_runSteps {id : Text} {args : List Text} {f : Failure} {steps : List Step} :
    ∀ {last : Option Text} {d d' : δ}, i.runSteps id args steps last d = (.error f, d') →
      f.answer.isRefusal = false := by
  induction steps with
  | nil =>
      intro last d d' h
      cases h
  | cons step rest ih =>
      intro last d d' h
      rw [runSteps] at h
      split at h
      · next hrender =>
        cases h
        exact isRefusal_of_render hrender
      · split at h
        · cases h
          exact isRefusal_answer_ofLink _
        · exact ih h

theorem isRefusal_of_parseReply {reply : Text} (h : p.parseReply reply = .error e) :
    e.isRefusal = false := by
  unfold Parameter.parseReply at h
  split at h
  · cases h
  · split at h
    · cases h
    · cases h
      rfl

/-- What an exchange with the device comes to: a failure that leaves the instrument as it was, or a value
that is remembered. -/
inductive Exchanged (i : Instrument δ) (p : Parameter) :
    Except Failure (Option Json) × Instrument δ × δ → Prop
  | failed {f : Failure} (d : δ) : f.answer.isRefusal = false → Exchanged i p (.error f, i, d)
  | done (value : Option Json) (d : δ) : Exchanged i p (.ok value, i.remember p value, d)

theorem exchanged_parseReply (reply : Text) (d : δ) :
    Exchanged i p (i.settle p d (p.parseReply reply)) := by
  cases hparse : p.parseReply reply with
  | error e => exact .failed d (isRefusal_of_parseReply hparse)
  | ok value => exact .done value d

/-- A parameter that can be read is read, if no arguments are given. -/
theorem exchanged_read {steps : List Step} (getter : p.getter = some steps) (d : δ) :
    Exchanged i p (i.read p [] d) := by
  rw [read, getter]
  dsimp only
  rw [if_pos List.isEmpty_nil]
  split
  · next heq => exact .failed _ (isRefusal_of_runSteps heq)
  · exact exchanged_parseReply _ _

/-- A parameter that can be written is written, if the arguments suit it. -/
theorem exchanged_write {w : Setter} {args : List Text} {typed : List (Option Json)}
    (setter : p.setter = some w) (suited : p.checkArgs w args = .ok typed) (d : δ) :
    Exchanged i p (i.write p args d) := by
  rw [write, setter]
  dsimp only
  rw [suited]
  dsimp only
  split
  · next heq => exact .failed _ (isRefusal_of_runSteps heq)
  · exact exchanged_parseReply _ _
  · exact .done _ _

/-! ## Requests -/

/-- What a request comes to that is not refused. -/
inductive Performed (i : Instrument δ) (r : Request) :
    Except CommandError (Option Json) × Instrument δ × δ → Prop
  /-- It fails on the way. -/
  | failed {e : CommandError} {j : Instrument δ} (d : δ) : e.isRefusal = false →
      j.memory = i.memory → Performed i r (.error e, j, d)
  /-- A parameter is read or written. -/
  | exchanged {p : Parameter} (value : Option Json) (d : δ) : r.movesLink = false →
      i.parameter? r.id = some p → Performed i r (.ok value, i.remember p value, d)
  /-- The link is opened or closed. -/
  | moved {j : Instrument δ} (d : δ) : r.movesLink = true → j.memory = i.memory →
      Performed i r (.ok none, j, d)

/-- What a request comes to: it is refused for a cause and nothing happens, or there is no cause. -/
inductive Outcome (i : Instrument δ) (r : Request) (d : δ) :
    Except CommandError (Option Json) × Instrument δ × δ → Prop
  | refused {e : CommandError} : Refusal i r e → Outcome i r d (.error e, i, d)
  | performed {result : Except CommandError (Option Json) × Instrument δ × δ} :
      (∀ e, ¬Refusal i r e) → Performed i r result → Outcome i r d result

theorem movesLink_of_isExchange (h : r.isExchange = true) : r.movesLink = false := by
  unfold Request.isExchange at h
  unfold Request.movesLink
  rcases Bool.or_eq_true_iff.mp h with hget | hset
  · rw [of_decide_eq_true hget]
    rfl
  · rw [Bool.and_eq_true, Bool.not_eq_true'] at hset
    rw [hset.2, Bool.and_false]

theorem isExchange_of_get (h : r.kind = .get) : r.isExchange = true := by
  rw [Request.isExchange, h]
  rfl

theorem isExchange_of_set (h : r.kind = .set) (hlife : isLifecycle r.id = false) :
    r.isExchange = true := by
  rw [Request.isExchange, h, hlife]
  rfl

/-! ### Where there is no cause -/

theorem not_refusal_read {steps : List Step} (connected : i.state = .connected) (isGet : r.kind = .get)
    (named : i.parameter? r.id = some p) (getter : p.getter = some steps) (bare : r.args = []) :
    ¬Refusal i r e := by
  intro h
  cases h with
  | notConnected _ hstate => exact hstate connected
  | unknown _ hnone => cases hnone.symm.trans named
  | unreadable _ hq hnone =>
      cases hq.symm.trans named
      cases hnone.symm.trans getter
  | unwritable hset => cases isGet.symm.trans hset
  | readArguments _ _ hargs => exact hargs bare
  | writeArguments hset => cases isGet.symm.trans hset
  | openArguments hset => cases isGet.symm.trans hset

theorem not_refusal_write {w : Setter} {typed : List (Option Json)} (connected : i.state = .connected)
    (isSet : r.kind = .set) (hlife : isLifecycle r.id = false) (named : i.parameter? r.id = some p)
    (setter : p.setter = some w) (suited : p.checkArgs w r.args = .ok typed) : ¬Refusal i r e := by
  intro h
  cases h with
  | notConnected _ hstate => exact hstate connected
  | unknown _ hnone => cases hnone.symm.trans named
  | unreadable hget => cases isSet.symm.trans hget
  | unwritable _ _ hq hnone =>
      cases hq.symm.trans named
      cases hnone.symm.trans setter
  | readArguments hget => cases isSet.symm.trans hget
  | writeArguments _ _ hq hv hfault =>
      cases hq.symm.trans named
      cases hv.symm.trans setter
      exact Parameter.not_argumentFault_of_checkArgs suited hfault
  | openArguments _ hid =>
      rw [hid] at hlife
      cases hlife

/-- Where nothing is read or written, there is no cause but wrong arguments, to open the link. -/
theorem refusal_of_not_isExchange (neither : r.isExchange ≠ true) (h : Refusal i r e) :
    r.kind = .set ∧ r.id ≠ disconnectName ∧
      ((∃ p w, i.parameter? r.id = some p ∧ p.setter = some w ∧ p.ArgumentFault w r.args e) ∨
        r.id = connectName ∧ i.setter? connectName = none ∧ r.args ≠ []) := by
  cases h with
  | notConnected hr => exact absurd hr neither
  | unknown hr => exact absurd hr neither
  | unreadable hget => exact absurd (isExchange_of_get hget) neither
  | unwritable _ hr => exact absurd hr neither
  | readArguments hget => exact absurd (isExchange_of_get hget) neither
  | writeArguments hset hid hp hw hfault => exact ⟨hset, hid, .inl ⟨_, _, hp, hw, hfault⟩⟩
  | openArguments hset hid hnone hargs =>
      refine ⟨hset, ?_, .inr ⟨hid, hnone, hargs⟩⟩
      rw [hid]
      exact nofun

theorem not_refusal_open (isSet : r.kind = .set) (opens : r.id = connectName)
    (suited : i.connectFault? r.args = none) : ¬Refusal i r e := by
  have neither : r.isExchange ≠ true := by
    rw [Request.isExchange, isSet, opens]
    exact nofun
  intro h
  obtain ⟨-, -, ⟨p, w, named, setter, hfault⟩ | ⟨-, undeclared, hargs⟩⟩ :=
    refusal_of_not_isExchange neither h
  · have hdeclared : i.setter? connectName = some (p, w) := by
      rw [setter?, ← opens, named, Option.bind_some, setter]
      rfl
    rw [connectFault?, hdeclared] at suited
    dsimp only at suited
    cases hcheck : p.checkArgs w r.args with
    | ok typed => exact Parameter.not_argumentFault_of_checkArgs hcheck hfault
    | error e' =>
        rw [hcheck] at suited
        cases suited
  · rw [connectFault?, undeclared] at suited
    dsimp only at suited
    rw [if_neg fun hbare => hargs (List.isEmpty_iff.mp hbare)] at suited
    cases suited

theorem not_refusal_close (isSet : r.kind = .set) (closes : r.id = disconnectName) : ¬Refusal i r e := by
  have neither : r.isExchange ≠ true := by
    rw [Request.isExchange, isSet, closes]
    exact nofun
  exact fun h => (refusal_of_not_isExchange neither h).2.1 closes

theorem not_refusal_other (notGet : r.kind ≠ .get) (notSet : r.kind ≠ .set) : ¬Refusal i r e := by
  have neither : r.isExchange ≠ true := by
    rw [Request.isExchange, decide_eq_false notGet, decide_eq_false notSet]
    exact nofun
  exact fun h => notSet (refusal_of_not_isExchange neither h).1

/-! ### Commands -/

/-- The end of a command, from what its exchange came to: a link that is lost is given up. -/
def conclude : Except Failure (Option Json) × Instrument δ × δ →
    Except CommandError (Option Json) × Instrument δ × δ
  | (.ok value, i, d) => (.ok value, i, d)
  | (.error (.command e), i, d) => (.error e, i, d)
  | (.error (.lost e), i, d) => (.error (.ofLink e), (i.degrade d).1, (i.degrade d).2)

theorem command_eq_conclude (named : i.parameter? r.id = some p) (linked : i.state = .connected ∧ i.held)
    (d : δ) : i.command r d =
      conclude (if r.kind = .get then i.read p r.args d else i.write p r.args d) := by
  rw [command, named]
  dsimp only
  rw [if_pos linked]
  rcases (if r.kind = .get then i.read p r.args d else i.write p r.args d) with ⟨(_ | _) | _, _, _⟩ <;> rfl

theorem performed_conclude {result : Except Failure (Option Json) × Instrument δ × δ}
    (exchange : r.isExchange = true) (named : i.parameter? r.id = some p) (h : Exchanged i p result) :
    Performed i r (conclude result) := by
  cases h with
  | @failed f d hf =>
      cases f with
      | command e => exact .failed d hf rfl
      | lost e => exact .failed _ hf rfl
  | done value d => exact .exchanged value d (movesLink_of_isExchange exchange) named

theorem outcome_read (linked : i.state = .connected ∧ i.held) (isGet : r.kind = .get)
    (named : i.parameter? r.id = some p) (d : δ) : Outcome i r d (conclude (i.read p r.args d)) := by
  cases getter : p.getter with
  | none =>
      rw [read, getter]
      exact .refused (.unreadable isGet named getter)
  | some steps =>
      by_cases bare : r.args = []
      · refine .performed (fun e => not_refusal_read linked.1 isGet named getter bare) ?_
        rw [bare]
        exact performed_conclude (isExchange_of_get isGet) named (exchanged_read getter d)
      · have hargs : ¬r.args.isEmpty = true := fun h => bare (List.isEmpty_iff.mp h)
        rw [read, getter]
        dsimp only
        rw [if_neg hargs]
        exact .refused (.readArguments isGet named bare)

theorem outcome_write (linked : i.state = .connected ∧ i.held) (isSet : r.kind = .set)
    (hlife : isLifecycle r.id = false) (named : i.parameter? r.id = some p) (d : δ) :
    Outcome i r d (conclude (i.write p r.args d)) := by
  cases setter : p.setter with
  | none =>
      rw [write, setter]
      exact .refused (.unwritable isSet (isExchange_of_set isSet hlife) named setter)
  | some w =>
      cases hcheck : p.checkArgs w r.args with
      | ok typed =>
          refine .performed (fun e => not_refusal_write linked.1 isSet hlife named setter hcheck) ?_
          exact performed_conclude (isExchange_of_set isSet hlife) named (exchanged_write setter hcheck d)
      | error e =>
          have hid : r.id ≠ disconnectName := by
            intro heq
            rw [heq] at hlife
            cases hlife
          rw [write, setter]
          dsimp only
          rw [hcheck]
          exact .refused (.writeArguments isSet hid named setter (Parameter.argumentFault_of_checkArgs hcheck))

/-- To read or write a parameter, connected or not. -/
theorem outcome_command (settled : Settled i) (exchange : r.isExchange = true) (d : δ) :
    Outcome i r d (i.command r d) := by
  cases named : i.parameter? r.id with
  | none =>
      rw [command, named]
      exact .refused (.unknown exchange named)
  | some p =>
      by_cases linked : i.state = .connected ∧ i.held
      · rw [command_eq_conclude named linked]
        split
        · next isGet => exact outcome_read linked isGet named d
        · next notGet =>
          rcases Bool.or_eq_true_iff.mp exchange with hget | hset
          · exact absurd (of_decide_eq_true hget) notGet
          · rw [Bool.and_eq_true, Bool.not_eq_true'] at hset
            exact outcome_write linked (of_decide_eq_true hset.1) hset.2 named d
      · -- a settled instrument that is connected holds its link
        rw [command, named]
        dsimp only
        rw [if_neg linked]
        refine .refused (.notConnected exchange fun hstate => ?_)
        exact linked ⟨hstate, settled.held.mpr hstate⟩

/-! ### Opening and closing -/

theorem refusal_of_connectFault? (isSet : r.kind = .set) (opens : r.id = connectName)
    (h : i.connectFault? r.args = some e) : Refusal i r e := by
  unfold connectFault? at h
  split at h
  · next p w declared =>
    split at h
    · cases h
    · next hcheck =>
      cases h
      obtain ⟨q, hq, hw⟩ := Option.bind_eq_some_iff.mp declared
      obtain ⟨v, hv, heq⟩ := Option.map_eq_some_iff.mp hw
      cases heq
      refine .writeArguments isSet ?_ (opens ▸ hq) hv (Parameter.argumentFault_of_checkArgs hcheck)
      rw [opens]
      exact nofun
  · next undeclared =>
    split at h
    · cases h
    · next hargs =>
      cases h
      exact .openArguments isSet opens undeclared fun hbare => hargs (List.isEmpty_iff.mpr hbare)

theorem memory_connect (i : Instrument δ) (args : List Text) (d : δ) : (i.connect args d).2.1.memory = i.memory := by
  unfold connect
  split
  · rfl
  · split
    · rfl
    · dsimp only
      split
      · rfl
      · split <;> rfl

theorem memory_disconnect (i : Instrument δ) (args : List Text) (d : δ) : (i.disconnect args d).1.memory = i.memory := by
  unfold disconnect
  split <;> rfl

/-- What opening the link answers, if the arguments suit it. -/
theorem connect_answer {args : List Text} (suited : i.connectFault? args = none) (d : δ) :
    (i.connect args d).1 = .ok none ∨ (i.connect args d).1 = .error .unreachable := by
  rw [connect, suited]
  dsimp only
  split
  · exact .inl rfl
  · split
    · exact .inr rfl
    · split
      · exact .inr rfl
      · exact .inl rfl

theorem outcome_connect (isSet : r.kind = .set) (opens : r.id = connectName) (d : δ) :
    Outcome i r d (i.connect r.args d) := by
  cases hfault : i.connectFault? r.args with
  | some e =>
      rw [connect, hfault]
      exact .refused (refusal_of_connectFault? isSet opens hfault)
  | none =>
      -- what else may fail here, the device or a declared step, is answered as one thing
      refine .performed (fun e => not_refusal_open isSet opens hfault) ?_
      have hmoves : r.movesLink = true := by
        rw [Request.movesLink, isSet, opens]
        rfl
      have hmemory := i.memory_connect r.args d
      have hanswer := connect_answer hfault d
      generalize i.connect r.args d = result at hmemory hanswer ⊢
      obtain ⟨answer, j, d'⟩ := result
      rcases hanswer with rfl | rfl
      · exact .moved d' hmoves hmemory
      · exact .failed d' rfl hmemory

theorem outcome_disconnect (isSet : r.kind = .set) (closes : r.id = disconnectName) (d : δ) :
    Outcome i r d (.ok none, i.disconnect r.args d) := by
  refine .performed (fun e => not_refusal_close isSet closes) (.moved _ ?_ (i.memory_disconnect r.args d))
  rw [Request.movesLink, isSet, closes]
  rfl

/-- Whatever is requested of a settled instrument, it is refused for a cause and nothing happens, or there
is no cause. -/
theorem outcome_perform (settled : Settled i) (r : Request) (d : δ) :
    Outcome i r d (i.perform r d) := by
  unfold perform
  split
  · next isSet =>
    by_cases opens : r.id = connectName
    · rw [if_pos opens]
      exact outcome_connect isSet opens d
    · rw [if_neg opens]
      by_cases closes : r.id = disconnectName
      · rw [if_pos closes]
        exact outcome_disconnect isSet closes d
      · rw [if_neg closes]
        have hlife : isLifecycle r.id = false := decide_eq_false (not_or.mpr ⟨opens, closes⟩)
        exact outcome_command settled (isExchange_of_set isSet hlife) d
  · next isGet => exact outcome_command settled (isExchange_of_get isGet) d
  · -- an instrument knows no other kind of request, whatever its state
    next notSet notGet =>
    exact .performed (fun e => not_refusal_other notGet notSet) (.failed d rfl rfl)

end Instrument

end GroundStation
