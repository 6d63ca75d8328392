/-
# Replies that take no instrument

A station answers some lines by itself: a line that is no request, a `helo`, and a question about what the
catalog does not know.  Of all that such a reply holds the operator has chosen one thing, the id token of the
line.  So the reply is one line on the wire exactly if the id token holds no `CR LF` (`isLine_prompt`).

The token may hold one.  A buffer is cut at `CR LF` before anything else, so no line holds it; but then the
quotes are taken out, and characters that only quotes kept apart become neighbours.  Whoever writes
`helo x`, `CR`, a quote, `LF` and a reply line of any content, sends this content to every operator
(`publishRawTc_forged`).  Without quotes this is not possible.
-/
import GroundStation.Console.Session
import GroundStation.Proofs.Station.Accounting
import GroundStation.Proofs.Wire.Line

namespace GroundStation

namespace Wire

/-! ## Lines that hold one id -/

/-- `CR LF` stands in front of a space or behind it. -/
theorem crlf_infix_append_space {xs ys : Text} :
    crlf <:+: xs ++ ' ' :: ys ↔ crlf <:+: xs ∨ crlf <:+: ys := by
  constructor
  · exact Split.infix_of_infix_append_cons (by decide)
  · rintro (h | h)
    · exact h.trans (List.prefix_append _ _).isInfix
    · exact h.trans ((List.suffix_cons _ _).trans (List.suffix_append _ _)).isInfix

/-- An echo, or an error whose text holds no `CR LF`. -/
def Terse (r : Response) : Prop :=
  r.kind = .helo ∨ r.kind = .error ∧ ∃ message, r.value = some (.str message) ∧ ¬crlf <:+: message

theorem isLine_replyLine_iff {r : Response} (terse : Terse r) (time : Binary64) :
    IsLine (replyLine r time) ↔ ¬crlf <:+: r.qualifiedId := by
  rw [replyLine, isLine_append_crlf, replyBody]
  rcases terse with hkind | ⟨hkind, message, hvalue, hmessage⟩
  · have hbody : "> OK helo ".toList ++ r.qualifiedId = "> OK helo".toList ++ ' ' :: r.qualifiedId := rfl
    have hlead : ¬crlf <:+: "> OK helo".toList := not_crlf_infix_of_not_mem (by decide)
    rw [hkind]
    simp only [hbody, crlf_infix_append_space, hlead, false_or]
  · have hbody : "> ERROR ".toList ++ r.qualifiedId ++ " ".toList ++ message =
        ("> ERROR".toList ++ ' ' :: r.qualifiedId) ++ ' ' :: message := by
      rw [List.append_assoc _ " ".toList]
      rfl
    have hlead : ¬crlf <:+: "> ERROR".toList := not_crlf_infix_of_not_mem (by decide)
    rw [hkind, hvalue]
    simp only [valueText, hbody, crlf_infix_append_space, hlead, hmessage, false_or, or_false]

/-- A line that is no request is answered at once. -/
theorem terse_of_rejected {tokens : List Text} {r : Response} (h : ofTokens? tokens = some (.rejected r)) :
    Terse r := by
  match tokens with
  | [] => cases h
  | [word] =>
      cases h
      exact .inr ⟨rfl, _, rfl, not_crlf_infix_of_not_mem (by decide)⟩
  | word :: id :: args =>
      rw [ofTokens?] at h
      split at h
      · cases h
      · cases h
        exact .inr ⟨rfl, _, rfl, not_crlf_infix_of_not_mem (by decide)⟩

/-! ## Where the id token comes from -/

theorem idToken?_of_parseLine? {raw : Text} {line : ParsedLine} (h : parseLine? raw = some line) :
    idToken? (tokenize (Text.trim raw)) = some line.qualifiedId := by
  have hread : ofTokens? (tokenize (Text.trim raw)) = some line := h
  rw [← map_ofTokens?, hread, Option.map_some]

theorem mem_of_idToken? {tokens : List Text} {id : Text} (h : idToken? tokens = some id) : id ∈ tokens := by
  match tokens with
  | [] => cases h
  | [word] =>
      cases h
      exact List.mem_cons_self
  | word :: id :: args =>
      cases h
      exact List.mem_cons_of_mem word List.mem_cons_self

/-- The id token is a part of the line without its quotes. -/
theorem qualifiedId_infix_unquoted {raw : Text} {line : ParsedLine} (h : parseLine? raw = some line) :
    line.qualifiedId <:+: unquoted raw :=
  (infix_unquoted (mem_of_idToken? (idToken?_of_parseLine? h))).trans ((Text.trim_isInfix raw).filter _)

/-- A line that has no quotes is a line without its quotes, and a line does not hold what it ends with. -/
theorem not_crlf_infix_unquoted {text raw : Text} (hraw : raw ∈ (Split.segments crlf text).1) (plain : '"' ∉ raw) :
    ¬crlf <:+: unquoted raw := by
  have hunquoted : unquoted raw = raw :=
    List.filter_eq_self.mpr fun c hc => decide_eq_true fun heq => plain (heq ▸ hc)
  rw [hunquoted]
  exact (Split.leftmost_segments crlf_ne_nil text).separator_free raw hraw

end Wire

namespace Station

variable {δ : Type}

/-! ## The reply -/

/-- What a station replies to a line without an instrument, and without a description of a parameter. -/
inductive Prompt (c : Catalog) : Wire.ParsedLine → Response → Prop
  | rejection (r : Response) : Prompt c (.rejected r) r
  | echo {q : Request} : accessor? q.kind = none → Prompt c (.request q) (.helo q.id)
  | unknown {q : Request} {accessor : Accessor} :
      accessor? q.kind = some accessor → c.get? q.qualifiedId accessor = none →
      Prompt c (.request q) (.errorFor q .notRecognized)

namespace Prompt

variable {c : Catalog} {line : Wire.ParsedLine} {q : Request} {r : Response}

theorem dispatch_eq {s : Station δ} (prompt : Prompt s.catalog (.request q) r) : dispatch q s = reply r s := by
  cases prompt with
  | echo hkind => simp only [dispatch, hkind]
  | unknown hkind hunknown => simp only [dispatch, hkind, hunknown]

/-- The station passes on what is left where it has sent the reply. -/
theorem passOn_eq {s : Station δ} (wired : Wired s) (prompt : Prompt s.catalog line r)
    (rest : List Wire.ParsedLine) :
    passOn (line :: rest) s = passOn rest (s.note (Wire.replyLine r s.now)) := by
  cases line with
  | request q =>
    have htc : publishTc (.request q) s = (.ok 1, s.note (Wire.replyLine r s.now)) := by
      rw [publishTc, tell_one wired.tc, hearTc, prompt.dispatch_eq, reply_eq wired]
      rfl
    simp only [passOn, htc]
  | rejected r' =>
    cases prompt
    simp only [passOn, publishTm_response wired]

theorem qualifiedId_eq (prompt : Prompt c line r) (unaddressed : line.Unaddressed) :
    r.qualifiedId = line.qualifiedId := by
  cases prompt with
  | rejection => rfl
  | @echo q hkind =>
    have hprovider : q.provider = none := unaddressed
    rw [Wire.ParsedLine.qualifiedId, Request.qualifiedId, hprovider]
    rfl
  | unknown => rfl

theorem terse (prompt : Prompt c line r) {tokens : List Text} (hline : Wire.ofTokens? tokens = some line) :
    Wire.Terse r := by
  cases prompt with
  | rejection => exact Wire.terse_of_rejected hline
  | echo => exact .inl rfl
  | unknown => exact .inr ⟨rfl, _, rfl, Wire.not_crlf_infix_of_not_mem (by decide)⟩

end Prompt

/-- What a line comes to does not depend on the lines behind it. -/
theorem exists_passOn_cons (line : Wire.ParsedLine) (s : Station δ) :
    (∃ e u, ∀ rest, passOn (line :: rest) s = (.error e, u)) ∨
      ∃ u, ∀ rest, passOn (line :: rest) s = passOn rest u := by
  cases line with
  | request q =>
    match hfirst : publishTc (.request q) s with
    | (.error e, u) => exact .inl ⟨e, u, fun rest => by simp only [passOn, hfirst]⟩
    | (.ok _, u) => exact .inr ⟨u, fun rest => by simp only [passOn, hfirst]⟩
  | rejected r =>
    match hfirst : publishTm (.response r) s with
    | (.error e, u) => exact .inl ⟨e, u, fun rest => by simp only [passOn, hfirst]⟩
    | (.ok _, u) => exact .inr ⟨u, fun rest => by simp only [passOn, hfirst]⟩

theorem passOn_append_of_ok {t : Station δ} (more : List Wire.ParsedLine) :
    ∀ {lines : List Wire.ParsedLine} {s : Station δ}, passOn lines s = (.ok (), t) →
      passOn (lines ++ more) s = passOn more t
  | [], s, h => by
      cases h
      rfl
  | line :: lines, s, h => by
      rcases exists_passOn_cons line s with ⟨e, u, hstop⟩ | ⟨u, hnext⟩
      · rw [hstop] at h
        cases h
      · rw [hnext] at h
        rw [List.cons_append, hnext, passOn_append_of_ok more h]

/-- A line of a buffer that takes no instrument has its reply sent when those in front of it are done with, if
the station is wired and nobody waits for an answer.  In any station, the reply is one line on the wire exactly
if the id token holds no `CR LF`.  This is so wherever the line holds none when its quotes are taken out, and so
wherever it has no quotes. -/
theorem isLine_prompt {s : Station δ} {buffer : Bytes}
    {before after : List Wire.ParsedLine} {line : Wire.ParsedLine} {r : Response}
    (hbuffer : Wire.parseBuffer buffer = before ++ line :: after)
    (prompt : Prompt s.catalog line r) :
    (Wired s → Idle s → ∃ t, SameWiring s t ∧ passOn before s = (.ok (), t) ∧
      passOn (Wire.parseBuffer buffer) s = passOn after (t.note (Wire.replyLine r s.now))) ∧
    (Wire.IsLine (Wire.replyLine r s.now) ↔ ¬Wire.crlf <:+: line.qualifiedId) ∧
    ∀ raw ∈ (Split.segments Wire.crlf (Utf8.decode buffer)).1, Wire.parseLine? raw = some line →
      Wire.idToken? (Wire.tokenize (Text.trim raw)) = some line.qualifiedId ∧
      (¬Wire.crlf <:+: Wire.unquoted raw → Wire.IsLine (Wire.replyLine r s.now)) ∧
      ('"' ∉ raw → Wire.IsLine (Wire.replyLine r s.now)) := by
  have hmem : ∀ l ∈ before ++ line :: after, l.Unaddressed := fun l hl =>
    Wire.unaddressed_of_mem_parseBuffer (hbuffer ▸ hl)
  have hline : line ∈ Wire.parseBuffer buffer := hbuffer ▸ List.mem_append_right before List.mem_cons_self
  obtain ⟨first, -, hfirst⟩ := List.mem_filterMap.mp hline
  have hiff : Wire.IsLine (Wire.replyLine r s.now) ↔ ¬Wire.crlf <:+: line.qualifiedId := by
    rw [Wire.isLine_replyLine_iff (prompt.terse hfirst), prompt.qualifiedId_eq]
    exact hmem line (List.mem_append_right before List.mem_cons_self)
  refine ⟨fun wired idle => ?_, hiff, fun raw hraw hparsed => ?_⟩
  · obtain ⟨t, replies, hpass, answers, -⟩ :=
      passOn_accounting wired idle fun l hl => hmem l (List.mem_append_left _ hl)
    refine ⟨t, answers.wiring, hpass, ?_⟩
    have prompt' : Prompt t.catalog line r := answers.wiring.catalog ▸ prompt
    rw [hbuffer, passOn_append_of_ok _ hpass, prompt'.passOn_eq (wired.transport answers.wiring),
      answers.wiring.now]
  · have hunquoted : ¬Wire.crlf <:+: Wire.unquoted raw → Wire.IsLine (Wire.replyLine r s.now) := fun h =>
      hiff.mpr fun hin => h (hin.trans (Wire.qualifiedId_infix_unquoted hparsed))
    exact ⟨Wire.idToken?_of_parseLine? hparsed, hunquoted, fun plain =>
      hunquoted (Wire.not_crlf_infix_unquoted hraw plain)⟩

/-- A blank in quotes does no harm. -/
theorem isLine_prompt_quoted :
    let s := observed Bench.registry .supply (.finite (.zero false))
    let buffer := Utf8.encode "bogus\r\nhelo \"a b\"\r\n"
    let raw : Text := "helo \"a b\""
    let line : Wire.ParsedLine := .request ⟨none, "a b", .helo, []⟩
    Wired s ∧ Idle s ∧
      Wire.parseBuffer buffer = [.rejected (.rejection "bogus" .malformed)] ++ line :: [] ∧
      Prompt s.catalog line (.helo "a b") ∧
      raw ∈ (Split.segments Wire.crlf (Utf8.decode buffer)).1 ∧ Wire.parseLine? raw = some line ∧
      ¬Wire.crlf <:+: Wire.unquoted raw ∧
      (∃ t, passOn (Wire.parseBuffer buffer) s = (.ok (), note t (Wire.replyLine (.helo "a b") s.now))) ∧
      Wire.IsLine (Wire.replyLine (.helo "a b") s.now) := by
  intro s buffer raw line
  have wired : Wired s := wired_observed _ _ _
  have idle : Idle s := idle_observed _ _ _
  have hbuffer : Wire.parseBuffer buffer = [.rejected (.rejection "bogus" .malformed)] ++ line :: [] := by decide
  have prompt : Prompt s.catalog line (.helo "a b") := .echo rfl
  have hraw : raw ∈ (Split.segments Wire.crlf (Utf8.decode buffer)).1 := by decide
  have hparsed : Wire.parseLine? raw = some line := by decide
  have unbroken : ¬Wire.crlf <:+: Wire.unquoted raw := Wire.not_crlf_infix_of_not_mem (by decide)
  obtain ⟨hsent, -, hlines⟩ := isLine_prompt hbuffer prompt
  obtain ⟨t, -, -, hpass⟩ := hsent wired idle
  exact ⟨wired, idle, hbuffer, prompt, hraw, hparsed, unbroken, ⟨t, hpass⟩, (hlines raw hraw hparsed).2.1 unbroken⟩

/-- One line whose id token is two. -/
def forgery : Bytes := Utf8.encode "helo x\r\"\n> OK psu_volt;1.0;5.0;5.0;0;1\"\r\n"

/-- An operator makes up telemetry, and the console of another takes it for the answer to its question. -/
theorem publishRawTc_forged :
    let time : Binary64 := .finite (.zero false)
    let reply : Text := "> OK helo x\r\n> OK psu_volt;1.0;5.0;5.0;0;1\r\n"
    Wire.parseBuffer forgery = [.request ⟨none, "x\r\n> OK psu_volt;1.0;5.0;5.0;0;1", .helo, []⟩] ∧
      (publishRawTc (.raw forgery) (observed Bench.registry .supply time)).2.linesHeard = [reply] ∧
      ¬Wire.IsLine reply ∧
      Console.exchangeOutcome .raw (Console.line .get "psu_volt" []) (Utf8.encode reply) =
        ⟨["> OK psu_volt;1.0;5.0;5.0;0;1"], true⟩ := by
  intro time reply
  refine ⟨by decide, by decide, ?_, by decide⟩
  have hends : reply = "> OK helo x\r\n> OK psu_volt;1.0;5.0;5.0;0;1".toList ++ Wire.crlf := by decide
  rw [hends, Wire.isLine_append_crlf]
  exact fun h => h ⟨"> OK helo x".toList, "> OK psu_volt;1.0;5.0;5.0;0;1".toList, by decide⟩

end Station

end GroundStation
