/-
# Every line is answered once

Operators send lines and get lines.  This module accounts for the two against each other: whatever the
devices do, a station answers each complete line that holds a token by exactly one line, in the order of
the lines asked, and each answer carries the id that its line asked for (`takePieces_accounting`).  When
a buffer is done with, nobody waits for an answer any more.

The argument follows a line down the path and its answer back up.  `Answers s t replies` is what one
piece of the path has to yield: from `s` to `t` these replies have been sent, one line for each, the
wiring is as before and nobody waits.  A request that the catalog knows is taken by one instrument and by
no other, since providers are distinct (`publishIoRequest_accounting`); that instrument answers whether
its link fails or not; and the one subscription that waits takes this answer and is gone.

Acquisition is no part of this: what a round of it announces stands between the answers.
-/
import GroundStation.Proofs.Station.Wiring
import GroundStation.Station.Server

namespace GroundStation

/-! ## What a line asks for -/

namespace Wire

/-- The id token of a line: the second, or the keyword where it stands alone. -/
def idToken? : List Text → Option Text
  | [] => none
  | [word] => some word
  | _ :: id :: _ => some id

/-- The id tokens of the complete lines of a buffer that hold a token. -/
def idTokens (buffer : Bytes) : List Text :=
  (Split.segments crlf (Utf8.decode buffer)).1.filterMap fun line => idToken? (tokenize (Text.trim line))

namespace ParsedLine

/-- The qualified id that a line is answered under. -/
def qualifiedId : ParsedLine → Text
  | .request r => r.qualifiedId
  | .rejected r => r.qualifiedId

/-- A line addresses no provider apart from the id. -/
def Unaddressed : ParsedLine → Prop
  | .request r => r.provider = none
  | .rejected _ => True

end ParsedLine

theorem map_ofTokens? (tokens : List Text) :
    (ofTokens? tokens).map ParsedLine.qualifiedId = idToken? tokens := by
  match tokens with
  | [] => rfl
  | [word] => rfl
  | word :: id :: args =>
      rw [ofTokens?]
      cases keyword? word <;> rfl

theorem unaddressed_of_ofTokens? {tokens : List Text} {line : ParsedLine}
    (h : ofTokens? tokens = some line) : line.Unaddressed := by
  match tokens with
  | [] => cases h
  | [word] =>
      cases h
      trivial
  | word :: id :: args =>
      rw [ofTokens?] at h
      split at h
      · cases h
        rfl
      · cases h
        trivial

theorem map_parseBuffer (buffer : Bytes) :
    (parseBuffer buffer).map ParsedLine.qualifiedId = idTokens buffer := by
  rw [parseBuffer, parseText, idTokens, List.map_filterMap]
  exact congrArg (List.filterMap · _) (funext fun line => map_ofTokens? _)

theorem unaddressed_of_mem_parseBuffer {buffer : Bytes} {line : ParsedLine}
    (h : line ∈ parseBuffer buffer) : line.Unaddressed := by
  obtain ⟨_, _, hline⟩ := List.mem_filterMap.mp h
  exact unaddressed_of_ofTokens? hline

end Wire

namespace Station

variable {δ : Type}

/-! ## What observers hear -/

/-- The line that an observer of `raw_tm` has heard. -/
def line? : Topic × Message → Option Text
  | (.rawTm, .line l) => some l
  | _ => none

/-- The lines that have been published on `raw_tm`, earliest first. -/
def linesHeard (s : Station δ) : List Text := s.heard.reverse.filterMap line?

/-- The station after an observer has heard one more line. -/
def note (s : Station δ) (l : Text) : Station δ := { s with heard := (.rawTm, .line l) :: s.heard }

theorem linesHeard_note (s : Station δ) (l : Text) : (s.note l).linesHeard = s.linesHeard ++ [l] := by
  simp [linesHeard, note, line?]

theorem sameWiring_note (s : Station δ) (l : Text) : SameWiring s (s.note l) :=
  ⟨fun _ _ => rfl, rfl, rfl, rfl⟩

/-- From `s` to `t` these replies have been sent, and at `t` nobody waits for another. -/
structure Answers (s t : Station δ) (replies : List Response) : Prop where
  wiring : SameWiring s t
  idle : Idle t
  lines : t.linesHeard = s.linesHeard ++ replies.map fun r => Wire.replyLine r s.now

namespace Answers

theorem none {s : Station δ} (idle : Idle s) : Answers s s [] :=
  ⟨.refl s, idle, (List.append_nil _).symm⟩

theorem append {s t u : Station δ} {replies more : List Response} (h : Answers s t replies)
    (h' : Answers t u more) : Answers s u (replies ++ more) where
  wiring := h.wiring.trans h'.wiring
  idle := h'.idle
  lines := by rw [h'.lines, h.lines, h.wiring.now, List.map_append, List.append_assoc]

/-- What happens before the first reply, and reaches no observer, does not count. -/
theorem after {s t u : Station δ} {replies : List Response} (same : SameWiring s t)
    (quiet : t.heard = s.heard) (h : Answers t u replies) : Answers s u replies where
  wiring := same.trans h.wiring
  idle := h.idle
  lines := by
    have hlines : t.linesHeard = s.linesHeard := by rw [linesHeard, linesHeard, quiet]
    rw [h.lines, same.now, hlines]

/-- A reply that is sent while nobody waits. -/
theorem note {s : Station δ} (idle : Idle s) (r : Response) :
    Answers s (s.note (Wire.replyLine r s.now)) [r] :=
  ⟨sameWiring_note s _, ⟨idle.pending, idle.ioResult⟩, linesHeard_note s _⟩

end Answers

/-! ## From a response to a line -/

theorem publishTm_response {s : Station δ} (wired : Wired s) (r : Response) :
    publishTm (.response r) s = (.ok 1, s.note (Wire.replyLine r s.now)) := by
  have hraw : publishRawTm (.line (Wire.replyLine r s.now)) s =
      (.ok 1, s.note (Wire.replyLine r s.now)) := by
    rw [publishRawTm, tell_one wired.rawTm]
    rfl
  rw [publishTm, tell_one wired.tm, hearTm, hraw]
  rfl

theorem reply_eq {s : Station δ} (wired : Wired s) (r : Response) :
    reply r s = (.ok (), s.note (Wire.replyLine r s.now)) := by
  rw [reply, publishTm_response wired]
  rfl

/-! ## The subscription that waits -/

/-- One subscription waits for an answer, and nobody else listens where it does. -/
structure Awaiting (s : Station δ) (h : Handle) : Prop where
  pending : s.controller.pending = some h
  topic : h.topic = .ioResult
  ioResult : s.listeners .ioResult = [.oneShot]
  alone : (s.bus.cancel h).listeners .ioResult = []

theorem awaiting_await {s : Station δ} (idle : Idle s) : ∃ h, Awaiting s.await h := by
  refine ⟨(s.subscribe .ioResult .oneShot).1, ?_⟩
  have hawait : s.await = (s.subscribe .ioResult .oneShot).2.withPending
      (some (s.subscribe .ioResult .oneShot).1) := by
    rw [await, idle.pending]
    rfl
  rw [hawait]
  refine ⟨rfl, rfl, ?_, Bus.listeners_cancel_subscribe idle.ioResult⟩
  show (s.bus.subscribe .ioResult .oneShot).2.listeners .ioResult = _
  have hnil : s.bus.listeners .ioResult = [] := idle.ioResult
  rw [Bus.listeners_subscribe, if_pos rfl, hnil, List.nil_append]

theorem sameWiring_await {s : Station δ} (idle : Idle s) :
    SameWiring s s.await ∧ s.await.heard = s.heard := by
  rw [await, idle.pending]
  refine ⟨⟨?_, rfl, rfl, rfl⟩, rfl⟩
  intro topic ne
  show (s.bus.subscribe .ioResult .oneShot).2.listeners topic = _
  rw [Bus.listeners_subscribe, if_neg (Ne.symm ne)]
  rfl

/-- The first answer of an instrument is sent on, and nobody waits any more. -/
theorem publishIoResult_accounting {s : Station δ} {h : Handle} (wired : Wired s)
    (awaiting : Awaiting s h) (r : Response) :
    ∃ t, publishIoResult (.response r) s = (.ok 1, t) ∧ Answers s t [r] := by
  let u := (s.withPending Option.none).cancelAll [h]
  have same : SameWiring s u := by
    refine ⟨?_, rfl, rfl, rfl⟩
    intro topic ne
    show (s.bus.cancel h).listeners topic = _
    refine Bus.listeners_cancel ?_
    rw [awaiting.topic]
    exact Ne.symm ne
  have idle : Idle u := ⟨rfl, awaiting.alone⟩
  refine ⟨u.note (Wire.replyLine r u.now), ?_, .after same rfl (.note idle r)⟩
  rw [publishIoResult, tell_one awaiting.ioResult, hearIoResult, answer, awaiting.pending]
  show ((reply r u).1.map fun _ => 1, (reply r u).2) = _
  rw [reply_eq (wired.transport same)]
  rfl

/-! ## Instruments -/

theorem getElem?_providers (s : Station δ) (index : Nat) :
    s.providers[index]? = s.services[index]?.map fun v => v.instrument.provider :=
  List.getElem?_map

theorem withInstrument_self {s : Station δ} {index : Nat} {v : Service δ}
    (h : s.services[index]? = some v) : s.withInstrument index v.instrument s.devices = s := by
  have hservices : s.services.modify index (fun w => { w with instrument := v.instrument }) =
      s.services := by
    refine List.ext_getElem? fun k => ?_
    by_cases hk : index = k
    · subst hk
      rw [List.getElem?_modify_eq, h]
      rfl
    · exact List.getElem?_modify_ne _ _ hk
  rw [withInstrument, hservices]

theorem sameWiring_withInstrument {s : Station δ} {index : Nat} {v : Service δ} {i : Instrument δ}
    (h : s.services[index]? = some v) (same : i.provider = v.instrument.provider) (d : δ) :
    SameWiring s (s.withInstrument index i d) := by
  refine ⟨fun _ _ => rfl, ?_, rfl, rfl⟩
  refine List.ext_getElem? fun k => ?_
  rw [getElem?_providers, getElem?_providers, withInstrument]
  by_cases hk : index = k
  · subst hk
    rw [List.getElem?_modify_eq, h]
    exact congrArg some same
  · rw [List.getElem?_modify_ne _ _ hk]

/-- An instrument passes by what does not name its provider. -/
theorem serve_other {s : Station δ} {index : Nat} {r : Request}
    (other : s.providers[index]? ≠ r.provider) : serve index r s = (.ok (), s) := by
  rw [serve]
  rw [getElem?_providers] at other
  cases hv : s.services[index]? with
  | none => rfl
  | some v =>
      rw [hv] at other
      have hexec : v.instrument.execute r s.devices = (none, v.instrument, s.devices) := by
        rw [Instrument.execute, if_neg fun heq => other heq.symm]
      dsimp only
      rw [hexec]
      dsimp only
      rw [withInstrument_self hv]

theorem qualifiedId_respond (r : Request) (outcome : Except CommandError (Option Json)) :
    (Instrument.respond r outcome).qualifiedId = r.qualifiedId := by
  cases outcome <;> rfl

/-- The instrument that a request names answers it under the same id, however its link behaves. -/
theorem execute_own {i : Instrument δ} {r : Request} (own : r.provider = some i.provider) (d : δ) :
    ∃ response i' d', i.execute r d = (some response, i', d') ∧
      response.qualifiedId = r.qualifiedId ∧ i'.provider = i.provider := by
  have hmake := Instrument.sameMake_execute i r d
  rw [Instrument.execute, if_pos own] at hmake ⊢
  exact ⟨_, _, _, rfl, qualifiedId_respond r _, hmake.provider⟩

theorem serve_own {s : Station δ} {h : Handle} {index : Nat} {r : Request} {p : Text} (wired : Wired s)
    (awaiting : Awaiting s h) (own : s.providers[index]? = some p) (named : r.provider = some p) :
    ∃ t response, serve index r s = (.ok (), t) ∧ Answers s t [response] ∧
      response.qualifiedId = r.qualifiedId := by
  rw [getElem?_providers, Option.map_eq_some_iff] at own
  obtain ⟨v, hv, rfl⟩ := own
  obtain ⟨response, i, d, hexec, hid, hi⟩ := execute_own named s.devices
  have same := sameWiring_withInstrument hv hi d
  have still : Awaiting (s.withInstrument index i d) h :=
    ⟨awaiting.pending, awaiting.topic, awaiting.ioResult, awaiting.alone⟩
  obtain ⟨t, hpublish, answers⟩ := publishIoResult_accounting (wired.transport same) still response
  refine ⟨t, response, ?_, answers.after same rfl, hid⟩
  simp only [serve, hv, hexec, hpublish, ignoreCount]

/-- Of the instruments in service the one that is named answers, and the others pass the request by. -/
theorem publishIoRequest_accounting {s : Station δ} {h : Handle} {r : Request} {p : Text}
    (wired : Wired s) (awaiting : Awaiting s h) (served : p ∈ s.providers)
    (named : r.provider = some p) :
    ∃ n t response, publishIoRequest (.request r) s = (.ok n, t) ∧ Answers s t [response] ∧
      response.qualifiedId = r.qualifiedId := by
  obtain ⟨k, hk, hp⟩ := List.getElem_of_mem served
  have own : s.providers[k]? = some p := by rw [List.getElem?_eq_getElem hk, hp]
  obtain ⟨t, response, hserve, answers, hid⟩ := serve_own wired awaiting own named
  -- the named instrument among the listeners
  obtain ⟨pre, post, hrange⟩ := List.append_of_mem (List.mem_range.mpr hk)
  have hnodup : k ∉ pre ++ post := by
    have hr : (pre ++ k :: post).Nodup := hrange ▸ List.nodup_range
    exact (List.nodup_cons.mp (List.perm_middle.nodup_iff.mp hr)).1
  have hlisteners : (s.bus.channel .ioRequest).subscribers.map Subscriber.listener =
      pre.map Listener.instrument ++ Listener.instrument k :: post.map Listener.instrument := by
    have hreq := wired.ioRequest
    rw [hrange, List.map_append, List.map_cons] at hreq
    exact hreq
  obtain ⟨before, rest, hsubs, hbefore, hrest⟩ := List.map_eq_append_iff.mp hlisteners
  obtain ⟨sub, behind, rfl, hsub, hbehind⟩ := List.map_eq_cons_iff.mp hrest
  -- all others pass it by, before the answer and behind it
  have inert : ∀ u, SameWiring s u → ∀ js : List Nat, k ∉ js →
      ∀ subs : List (Subscriber Listener), subs.map Subscriber.listener = js.map Listener.instrument →
      ∀ x ∈ subs, hearIoRequest (.request r) x.listener u = (.ok (), u) := by
    intro u same js hjs subs hmap x hx
    have hmem : x.listener ∈ js.map Listener.instrument := hmap ▸ List.mem_map_of_mem hx
    obtain ⟨j, hj, hlistener⟩ := List.mem_map.mp hmem
    rw [← hlistener, hearIoRequest]
    refine serve_other ?_
    rw [same.providers, named, ← own]
    intro heq
    refine hjs ?_
    have hkj : k = j := (List.getElem?_inj hk wired.nodup).mp heq.symm
    rw [hkj]
    exact hj
  have hpre := inert s (.refl s) pre (fun hmem => hnodup (List.mem_append_left _ hmem)) _ hbefore
  have hpost := inert t answers.wiring post (fun hmem => hnodup (List.mem_append_right _ hmem)) _
    hbehind
  have hstands : s.bus.holds ⟨.ioRequest, sub.id⟩ = true := by
    refine Bus.holds_of_mem ?_
    rw [hsubs]
    exact List.mem_append_right _ List.mem_cons_self
  have hcall : hearIoRequest (.request r) sub.listener s = (.ok (), t) := by
    rw [hsub]
    exact hserve
  obtain ⟨n, hdeliver⟩ : ∃ n, deliver (fun id u => u.bus.holds ⟨.ioRequest, id⟩)
      (hearIoRequest (.request r)) (before ++ sub :: behind) s = (.ok n, t) :=
    deliver_only hpre hstands hcall hpost
  refine ⟨n, t, response, ?_, answers, hid⟩
  rw [publishIoRequest, tell, hsubs]
  exact hdeliver

/-! ## Requests -/

/-- What the catalog knows under an id belongs to an instrument in service. -/
theorem provider_mem_of_get? {s : Station δ} {id : Text} {accessor : Accessor} {e : CatalogEntry}
    (wired : Wired s) (h : s.catalog.get? id accessor = some e) : e.provider ∈ s.providers :=
  wired.provided e (List.mem_of_find?_eq_some h)

theorem dispatch_accounting {s : Station δ} {r : Request} (wired : Wired s) (idle : Idle s)
    (unaddressed : r.provider = none) :
    ∃ t response, dispatch r s = (.ok (), t) ∧ Answers s t [response] ∧
      response.qualifiedId = r.qualifiedId := by
  unfold dispatch
  split
  · -- a `helo` is echoed
    refine ⟨_, _, reply_eq wired _, .note idle _, ?_⟩
    rw [Request.qualifiedId, unaddressed]
    rfl
  · next accessor haccessor =>
    split
    · exact ⟨_, _, reply_eq wired _, .note idle _, rfl⟩
    · next e he =>
      split
      · obtain ⟨handle, awaiting⟩ := awaiting_await idle
        obtain ⟨same, quiet⟩ := sameWiring_await idle
        have wired' := wired.transport same
        have served : e.provider ∈ s.await.providers := by
          rw [same.providers]
          exact provider_mem_of_get? wired he
        obtain ⟨n, t, response, hpublish, answers, hid⟩ :=
          publishIoRequest_accounting (r := readdress r e) wired' awaiting served rfl
        refine ⟨t, response, ?_, answers.after same quiet, ?_⟩
        · rw [hpublish]
          rfl
        · rw [hid]
          exact congrArg Prod.fst (Catalog.key_of_get? he)
      · exact ⟨_, _, reply_eq wired _, .note idle _, rfl⟩

/-! ## Lines and buffers -/

/-- A line gets one reply, and the lines behind it are passed on where it has left the station. -/
theorem passOn_cons {s : Station δ} {line : Wire.ParsedLine} (wired : Wired s) (idle : Idle s)
    (unaddressed : line.Unaddressed) :
    ∃ t response, (∀ rest, passOn (line :: rest) s = passOn rest t) ∧ Answers s t [response] ∧
      response.qualifiedId = line.qualifiedId := by
  cases line with
  | request r =>
      obtain ⟨t, response, hdispatch, answers, hid⟩ := dispatch_accounting wired idle unaddressed
      refine ⟨t, response, ?_, answers, hid⟩
      intro rest
      have htc : publishTc (.request r) s = (.ok 1, t) := by
        rw [publishTc, tell_one wired.tc, hearTc, hdispatch]
        rfl
      simp only [passOn, htc]
  | rejected r =>
      refine ⟨_, r, ?_, .note idle r, rfl⟩
      intro rest
      simp only [passOn, publishTm_response wired]

theorem passOn_accounting :
    ∀ {lines : List Wire.ParsedLine} {s : Station δ}, Wired s → Idle s →
      (∀ line ∈ lines, line.Unaddressed) →
      ∃ t replies, passOn lines s = (.ok (), t) ∧ Answers s t replies ∧
        replies.map Response.qualifiedId = lines.map Wire.ParsedLine.qualifiedId
  | [], s, _, idle, _ => ⟨s, [], rfl, .none idle, rfl⟩
  | line :: rest, s, wired, idle, h => by
      have hrest : ∀ line ∈ rest, line.Unaddressed := fun l hl => h l (List.mem_cons_of_mem _ hl)
      obtain ⟨t, response, hcons, answers, hid⟩ := passOn_cons wired idle (h line List.mem_cons_self)
      obtain ⟨u, replies, hpass, more, hids⟩ :=
        passOn_accounting (wired.transport answers.wiring) answers.idle hrest
      refine ⟨u, response :: replies, ?_, answers.append more, ?_⟩
      · rw [hcons, hpass]
      · rw [List.map_cons, List.map_cons, hid, hids]

theorem publishRawTc_accounting {s : Station δ} (wired : Wired s) (idle : Idle s) (buffer : Bytes) :
    ∃ t replies, publishRawTc (.raw buffer) s = (.ok 1, t) ∧ Answers s t replies ∧
      replies.map Response.qualifiedId = Wire.idTokens buffer := by
  obtain ⟨t, replies, hpass, answers, hids⟩ :=
    passOn_accounting wired idle fun _ => Wire.unaddressed_of_mem_parseBuffer
  refine ⟨t, replies, ?_, answers, hids.trans (Wire.map_parseBuffer buffer)⟩
  rw [publishRawTc, tell_one wired.rawTc, hearRawTc, hpass]
  rfl

theorem answers_takePieces :
    ∀ {buffers : List Bytes} {s : Station δ}, Wired s → Idle s →
      ∃ replies, Answers s (takePieces buffers s) replies ∧
        replies.map Response.qualifiedId = buffers.flatMap Wire.idTokens
  | [], s, _, idle => ⟨[], .none idle, rfl⟩
  | buffer :: rest, _, wired, idle => by
      obtain ⟨t, replies, hpublish, answers, hids⟩ := publishRawTc_accounting wired idle buffer
      obtain ⟨more, answers', hids'⟩ : ∃ replies, Answers t (takePieces rest t) replies ∧ _ :=
        answers_takePieces (wired.transport answers.wiring) answers.idle
      refine ⟨replies ++ more, ?_, ?_⟩
      · rw [takePieces, hpublish]
        exact answers.append answers'
      · rw [List.map_append, hids, hids', List.flatMap_cons]

/-- For every station that instruments are put into service of, whatever their devices do: the lines
published for a sequence of buffers are one for each complete line that holds a token, in order, under
its id token; and behind the last buffer nobody waits for an answer.  Since the buffers are any, this is
so behind each of them. -/
theorem takePieces_accounting {registry : Registry δ} {devices : δ} {now : Binary64}
    {configs : List InstrumentConfig} {s : Station δ}
    (built : addInstruments configs (observed registry devices now) = (.ok (), s))
    (buffers : List Bytes) :
    ∃ replies : List Response,
      (takePieces buffers s).linesHeard = replies.map (fun r => Wire.replyLine r now) ∧
      replies.map Response.qualifiedId = buffers.flatMap Wire.idTokens ∧
      (takePieces buffers s).controller.pending = none ∧
      (takePieces buffers s).listeners .ioResult = [] := by
  obtain ⟨wired, idle, hheard, hnow⟩ :=
    addInstruments_eq_ok (wired_observed registry devices now) (idle_observed registry devices now) built
  obtain ⟨replies, answers, hids⟩ : ∃ replies, Answers s (takePieces buffers s) replies ∧ _ :=
    answers_takePieces wired idle
  refine ⟨replies, ?_, hids, answers.idle.pending, answers.idle.ioResult⟩
  have hnone : s.linesHeard = [] := by
    rw [linesHeard, hheard]
    rfl
  have htime : s.now = now := hnow
  rw [answers.lines, hnone, htime, List.nil_append]

/-- A station with the supply in service. -/
def supplied : Station Bench :=
  (addInstruments [.supply] (observed Bench.registry .supply (.finite (.zero false)))).2

/-- Two buffers: five lines that hold a token, an empty line, and a line that is not complete. -/
def operatorsInput : List Bytes :=
  [Utf8.encode "tc psu_connect\r\ntm psu_volt\r\ntc psu_connect\r\n\r\ntm psu_volt\r\ntm",
    Utf8.encode "tm psu_volt\r\n"]

/-- The supply refuses to open, opens, answers and hangs up, and each line has its reply. -/
theorem takePieces_accounting_supply :
    addInstruments [.supply] (observed Bench.registry .supply (.finite (.zero false))) =
      (.ok (), supplied) ∧
    ∃ replies : List Response,
      (takePieces operatorsInput supplied).linesHeard =
        replies.map (fun r => Wire.replyLine r (.finite (.zero false))) ∧
      replies.map Response.qualifiedId = operatorsInput.flatMap Wire.idTokens ∧
      (takePieces operatorsInput supplied).controller.pending = none ∧
      (takePieces operatorsInput supplied).listeners .ioResult = [] := by
  have built : addInstruments [.supply] (observed Bench.registry .supply (.finite (.zero false))) =
      (.ok (), supplied) := rfl
  exact ⟨built, takePieces_accounting built operatorsInput⟩

end Station

end GroundStation
