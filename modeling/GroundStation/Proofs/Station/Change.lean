/-
# What a station goes through

A publish is a tree of calls, and each call may publish again.  What it does to the station is a sequence
of small changes all the same, and there are few kinds of them (`Change`): somebody hears something, the
slot for an answer is filled or emptied, a batch is registered, an instrument does one operation, somebody
comes or goes.  Every function of the station but three is such a sequence (`Changes`), whatever fails on
the way; the three put an instrument into service, refuse it, or detach the station.

A property of stations is therefore kept by all that a station does once each kind of change keeps it, and
no proof of such a property has to look into a publish.  The walk through the publishes is made once, for
any relation between stations that the changes on the way satisfy (`Along`).

`hears` tells on which topics observers hear something.  Most publishes are not asked that, and then it
is `anywhere`; it matters where one wants to know that nothing is published on a topic.
-/
import GroundStation.Proofs.Instrument.Lifecycle
import GroundStation.Proofs.Station.Accounting
import GroundStation.Proofs.Station.Rendezvous
import GroundStation.Station.Server
import Mathlib.Logic.Relation

namespace GroundStation

/-- Who listens without being part of the station: observers and refusers, and the server. -/
def Listener.isOutside : Listener → Bool
  | .observer | .refuser _ | .client _ | .serverQuit => true
  | _ => false

namespace Station

variable {δ : Type}

/-! ## Changes -/

/-- No part of the station holds the subscription, only somebody outside, if anybody. -/
def FromOutside (s : Station δ) (h : Handle) : Prop :=
  ∀ sub ∈ (s.bus.channel h.topic).subscribers, sub.id = h.id → sub.listener.isOutside = true

instance (s : Station δ) (h : Handle) : Decidable (s.FromOutside h) := by
  unfold FromOutside
  infer_instance

/-- One change of a station. -/
inductive Change (hears : Topic → Prop) : Station δ → Station δ → Prop
  | heard {topic : Topic} (m : Message) (s : Station δ) : hears topic →
      Change hears s { s with heard := (topic, m) :: s.heard }
  | awaited (s : Station δ) : Change hears s s.await
  | answered {s : Station δ} {h : Handle} : s.controller.pending = some h →
      Change hears s ((s.withPending none).cancelAll [h])
  | registered {s : Station δ} {c : Catalog} {batch : List CatalogEntry} :
      s.catalog.register batch = .ok c → Change hears s (s.withCatalog c)
  | operated {s : Station δ} {index : Nat} {v : Service δ} (op : Operation) :
      s.services[index]? = some v →
      Change hears s (s.withInstrument index (v.instrument.act op s.devices).1
        (v.instrument.act op s.devices).2)
  | left {s : Station δ} {index : Nat} {v : Service δ} : s.services[index]? = some v →
      Change hears s { s.cancelAll v.subscriptions with
        services := s.services.modify index fun w => { w with subscriptions := [] } }
  | joined (topic : Topic) {l : Listener} (s : Station δ) : l.isOutside = true →
      Change hears s (s.addListener topic l)
  | departed {s : Station δ} {h : Handle} : s.FromOutside h → Change hears s (s.cancelAll [h])
  | opened (s : Station δ) : Change hears s s.openServer
  | accepted (name : Text) (s : Station δ) : Change hears s (s.acceptClient name)
  | sent (index : Nat) (line : Text) (s : Station δ) : Change hears s (s.sendTo index line)
  | dropped (index : Nat) (s : Station δ) : Change hears s (s.dropClient index)
  | stopped (s : Station δ) : Change hears s s.stopServer

/-- One change after another. -/
abbrev Changes (hears : Topic → Prop) : Station δ → Station δ → Prop := Relation.ReflTransGen (Change hears)

/-- Observers may hear something on every topic. -/
def anywhere (_ : Topic) : Prop := True

/-- What each change keeps is kept. -/
theorem Changes.keeps {hears : Topic → Prop} {I : Station δ → Prop}
    (step : ∀ {s t : Station δ}, Change hears s t → I s → I t) {s t : Station δ}
    (h : Changes hears s t) : I s → I t := by
  induction h with
  | refl => exact id
  | tail _ change ih => exact step change ∘ ih

/-- What calls do to a station, and adds up, a publish does to it. -/
theorem tell_keeps {R : Station δ → Station δ → Prop} (refl : ∀ s, R s s)
    (trans : ∀ {s t u}, R s t → R t u → R s u) {topic : Topic}
    {call : Listener → Station δ → Except StationError Unit × Station δ} {s : Station δ}
    (each : ∀ l ∈ s.listeners topic, ∀ u, R u (call l u).2) : R s (s.tell topic call).2 :=
  deliver_keeps refl trans (fun _ hsub u => each _ (List.mem_map_of_mem hsub) u) s

/-! ## Along the path -/

/-- A relation between stations that holds of each small change on the path from operators to telemetry, and
of what adds up to several.  A publish on `raw_tm` counts as one of them. -/
structure Along (hears : Topic → Prop) (R : Station δ → Station δ → Prop) : Prop where
  refl : ∀ s, R s s
  trans : ∀ {s t u}, R s t → R t u → R s u
  overheard : ∀ {topic : Topic} {l : Listener}, (l = .observer → hears topic) →
    ∀ m s, R s (overhear topic m l s).2
  rawTm : ∀ m s, R s (publishRawTm m s).2
  answered : ∀ {s : Station δ} {h : Handle}, s.controller.pending = some h →
    R s ((s.withPending none).cancelAll [h])
  awaited : ∀ s : Station δ, R s s.await
  operated : ∀ {s : Station δ} {index : Nat} {v : Service δ} (op : Operation), s.services[index]? = some v →
    R s (s.withInstrument index (v.instrument.act op s.devices).1 (v.instrument.act op s.devices).2)

namespace Along

variable {hears : Topic → Prop} {R : Station δ → Station δ → Prop}

theorem tell (along : Along hears R) {topic : Topic}
    {call : Listener → Station δ → Except StationError Unit × Station δ} {s : Station δ}
    (each : ∀ l ∈ s.listeners topic, ∀ u, R u (call l u).2) : R s (s.tell topic call).2 :=
  tell_keeps along.refl along.trans each

theorem publishTm (along : Along hears R) (tm : hears .tm) (m : Message) (s : Station δ) :
    R s (publishTm m s).2 := by
  refine along.tell fun l _ u => ?_
  unfold hearTm
  split
  · rw [ignoreCount_snd]
    exact along.rawTm _ u
  · exact along.overheard (fun _ => tm) m u

theorem reply (along : Along hears R) (tm : hears .tm) (r : Response) (s : Station δ) : R s (reply r s).2 := by
  rw [Station.reply, ignoreCount_snd]
  exact along.publishTm tm _ s

theorem answer (along : Along hears R) (tm : hears .tm) (r : Response) (s : Station δ) :
    R s (answer r s).2 := by
  unfold Station.answer
  split
  · exact along.refl s
  · next h full => exact along.trans (along.answered full) (along.reply tm r _)

theorem publishIoResult (along : Along hears R) (ioResult : hears .ioResult) (tm : hears .tm) (m : Message)
    (s : Station δ) : R s (publishIoResult m s).2 := by
  refine along.tell fun l _ u => ?_
  unfold hearIoResult
  split
  · exact along.answer tm _ u
  · exact along.overheard (fun _ => ioResult) m u

theorem serve (along : Along hears R) (ioResult : hears .ioResult) (tm : hears .tm) (index : Nat)
    (r : Request) (s : Station δ) : R s (serve index r s).2 := by
  unfold Station.serve
  split
  · exact along.refl s
  · next v hv =>
    have operated := along.operated (.execute r) hv
    rw [Instrument.act] at operated
    split
    · next heq =>
      rw [heq] at operated
      exact operated
    · next heq =>
      rw [heq] at operated
      rw [ignoreCount_snd]
      exact along.trans operated (along.publishIoResult ioResult tm _ _)

theorem hearIoRequest (along : Along hears R) (ioResult : hears .ioResult) (tm : hears .tm) {l : Listener}
    (h : l = .observer → hears .ioRequest) (m : Message) (s : Station δ) : R s (hearIoRequest m l s).2 := by
  unfold Station.hearIoRequest
  split
  · exact along.serve ioResult tm _ _ s
  · exact along.overheard h m s

end Along

namespace Along

variable {R : Station δ → Station δ → Prop}

theorem publishIoRequest (along : Along anywhere R) (m : Message) (s : Station δ) :
    R s (publishIoRequest m s).2 :=
  along.tell fun _ _ u => along.hearIoRequest trivial trivial (fun _ => trivial) m u

theorem dispatch (along : Along anywhere R) (r : Request) (s : Station δ) : R s (dispatch r s).2 := by
  rw [dispatch_eq]
  split
  · rw [ignoreCount_snd]
    exact along.trans (along.awaited s) (along.publishIoRequest _ _)
  · exact along.reply trivial _ s

theorem publishTc (along : Along anywhere R) (m : Message) (s : Station δ) : R s (publishTc m s).2 := by
  refine along.tell fun l _ u => ?_
  unfold hearTc
  split
  · exact along.dispatch _ u
  · exact along.overheard (fun _ => trivial) m u

theorem passOn (along : Along anywhere R) (lines : List Wire.ParsedLine) :
    ∀ s : Station δ, R s (passOn lines s).2 := by
  induction lines with
  | nil => exact along.refl
  | cons line rest ih =>
    intro s
    cases line with
    | request r =>
      have first := along.publishTc (.request r) s
      rw [Station.passOn]
      split
      · next heq => rwa [heq] at first
      · next heq =>
        rw [heq] at first
        exact along.trans first (ih _)
    | rejected r =>
      have first : R s (Station.publishTm (.response r) s).2 := along.publishTm trivial _ s
      rw [Station.passOn]
      split
      · next heq => rwa [heq] at first
      · next heq =>
        rw [heq] at first
        exact along.trans first (ih _)

theorem publishRawTc (along : Along anywhere R) (m : Message) (s : Station δ) : R s (publishRawTc m s).2 := by
  refine along.tell fun l _ u => ?_
  unfold hearRawTc
  split
  · exact along.passOn _ u
  · exact along.overheard (fun _ => trivial) m u

end Along

/-! ### Changes are made along the path -/

section Path

variable {hears : Topic → Prop}

theorem changes_overhear {topic : Topic} {l : Listener} (h : l = .observer → hears topic) (m : Message)
    (s : Station δ) : Changes hears s (overhear topic m l s).2 := by
  cases l with
  | observer => exact .single (.heard m s (h rfl))
  | _ => exact .refl

/-- A publish changes the station as its calls do. -/
theorem changes_tell {topic : Topic}
    {call : Listener → Station δ → Except StationError Unit × Station δ} {s : Station δ}
    (each : ∀ l ∈ s.listeners topic, ∀ u, Changes hears u (call l u).2) :
    Changes hears s (s.tell topic call).2 :=
  tell_keeps (fun _ => .refl) .trans each

theorem changes_publishRawTm (rawTm : hears .rawTm) (m : Message) (s : Station δ) :
    Changes hears s (publishRawTm m s).2 := by
  refine changes_tell fun l _ u => ?_
  unfold hearRawTm
  split
  · exact .single (.sent _ _ u)
  · exact changes_overhear (fun _ => rawTm) m u

theorem along_changes (rawTm : hears .rawTm) : Along hears (Changes (δ := δ) hears) where
  refl _ := .refl
  trans := .trans
  overheard := changes_overhear
  rawTm := changes_publishRawTm rawTm
  answered full := .single (.answered full)
  awaited s := .single (.awaited s)
  operated op hv := .single (.operated op hv)

theorem changes_publishTm (tm : hears .tm) (rawTm : hears .rawTm) (m : Message) (s : Station δ) :
    Changes hears s (publishTm m s).2 :=
  (along_changes rawTm).publishTm tm m s

theorem changes_reply (tm : hears .tm) (rawTm : hears .rawTm) (r : Response) (s : Station δ) :
    Changes hears s (reply r s).2 :=
  (along_changes rawTm).reply tm r s

theorem changes_hearIoRequest (ioResult : hears .ioResult) (tm : hears .tm) (rawTm : hears .rawTm)
    {l : Listener} (h : l = .observer → hears .ioRequest) (m : Message) (s : Station δ) :
    Changes hears s (hearIoRequest m l s).2 :=
  (along_changes rawTm).hearIoRequest ioResult tm h m s

end Path

theorem along_changes_anywhere : Along anywhere (Changes (δ := δ) anywhere) := along_changes trivial

theorem changes_dispatch (r : Request) (s : Station δ) : Changes anywhere s (dispatch r s).2 :=
  along_changes_anywhere.dispatch r s

theorem changes_publishRawTc (m : Message) (s : Station δ) :
    Changes anywhere s (publishRawTc m s).2 :=
  along_changes_anywhere.publishRawTc m s

theorem changes_takePieces (pieces : List Bytes) :
    ∀ s : Station δ, Changes anywhere s (takePieces pieces s) := by
  induction pieces with
  | nil => exact fun _ => .refl
  | cons piece rest ih => exact fun s => (changes_publishRawTc _ s).trans (ih _)

/-! ## Beside the path -/

theorem changes_register (batch : List CatalogEntry) (s : Station δ) :
    Changes anywhere s (register batch s).2 := by
  unfold register
  split
  · next hc => exact .single (.registered hc)
  · exact .refl

theorem changes_hearIoSignature (m : Message) (l : Listener) (s : Station δ) :
    Changes anywhere s (hearIoSignature m l s).2 := by
  unfold hearIoSignature
  split
  · next batch =>
    have registered := changes_register batch s
    split <;> next heq => rw [heq] at registered; exact registered
  · exact changes_overhear (fun _ => trivial) m s

theorem changes_shutInstrument (index : Nat) (s : Station δ) :
    Changes anywhere s (s.shutInstrument index) := by
  unfold shutInstrument
  split
  · exact .refl
  · next hv => exact .single (.operated .shutdown hv)

theorem changes_hearQuit (m : Message) (l : Listener) (s : Station δ) :
    Changes anywhere s (hearQuit m l s).2 := by
  unfold hearQuit
  split
  · exact changes_shutInstrument _ s
  · exact .single (.stopped s)
  · exact changes_overhear (fun _ => trivial) m s

theorem changes_publish (topic : Topic) (m : Message) (s : Station δ) :
    Changes anywhere s (publish topic m s).2 := by
  cases topic with
  | rawTc => exact changes_publishRawTc m s
  | tc => exact along_changes_anywhere.publishTc m s
  | ioRequest => exact along_changes_anywhere.publishIoRequest m s
  | ioResult => exact along_changes_anywhere.publishIoResult trivial trivial m s
  | tm => exact changes_publishTm trivial trivial m s
  | rawTm => exact changes_publishRawTm trivial m s
  | ioSignature => exact changes_tell fun l _ u => changes_hearIoSignature m l u
  | quit => exact changes_tell fun l _ u => changes_hearQuit m l u
  | other name => exact changes_tell fun l _ u => changes_overhear (fun _ => trivial) m u

theorem changes_announce (updates : List Response) :
    ∀ s : Station δ, Changes anywhere s (announce updates s) := by
  induction updates with
  | nil => exact fun _ => .refl
  | cons r rest ih => exact fun s => (changes_publishTm trivial trivial _ s).trans (ih _)

theorem changes_executeOn (index : Nat) (r : Request) (s : Station δ) :
    Changes anywhere s (executeOn index r s).2 := by
  unfold executeOn
  split
  · exact .refl
  · next hv => exact .single (.operated (.execute r) hv)

theorem changes_acquire (index : Nat) (s : Station δ) : Changes anywhere s (s.acquire index) := by
  unfold acquire
  split
  · exact .refl
  · next v hv =>
    have done : Changes anywhere s (s.withInstrument index (v.instrument.round s.devices).2.1
        (v.instrument.round s.devices).2.2) := by
      rcases v.instrument.round_eq_act s.devices with h | ⟨op, h⟩ <;> rw [h]
      · rw [withInstrument_self hv]
      · exact .single (.operated op hv)
    exact done.trans (changes_announce _ _)

theorem changes_stopInstrument (index : Nat) (s : Station δ) :
    Changes anywhere s (s.stopInstrument index) := by
  unfold stopInstrument
  split
  · exact .refl
  · next hv => exact .head (.left hv) (changes_shutInstrument index _)

theorem changes_stopInstruments (count : Nat) (s : Station δ) :
    Changes anywhere s (s.stopInstruments count) := by
  induction count with
  | zero => exact .refl
  | succ count ih => exact ih.trans (changes_stopInstrument count _)

end Station

end GroundStation
