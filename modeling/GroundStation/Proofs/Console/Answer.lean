/-
# What the station answers is what the console recognises

A reply line carries the id of the parameter in one of three places, and behind it anything: a value may be
empty, hold separators, or end with blanks, which the console takes off before it looks for the id.  The id is
found because it is a word without `;`: no blank is taken off in front of its end, and the first separator
stands behind it.  The mark `helo ` in front of an id is no obstacle either, for what begins with it is not a
word followed by `;` or nothing; so an id may be `helo` itself.

Where every line that the station sends holds its line feed at the end, the console cuts what it receives into
these lines, and its answer is the first that carries the id that was sent.
-/
import GroundStation.Console.Session
import GroundStation.Proofs.Console.Request
import GroundStation.Wire.Reply

namespace GroundStation

namespace Console

open Text (IsWord)

/-- An id that ends where the next field begins: a word without `;`. -/
structure IsId (id : Text) : Prop extends IsWord id where
  whole : ';' ∉ id

instance (id : Text) : Decidable (IsId id) :=
  decidable_of_iff (IsWord id ∧ ';' ∉ id) ⟨fun ⟨word, whole⟩ => ⟨word, whole⟩, fun h => ⟨h.toIsWord, h.whole⟩⟩

/-! ## What stands behind an id -/

/-- Nothing, or a separator and more. -/
def Behind (sep : Char) : Text → Prop
  | [] => True
  | c :: _ => c = sep

theorem Behind.of_prefix {sep : Char} {t rest : Text} (h : Behind sep t) (hbegins : rest <+: t) :
    Behind sep rest := by
  obtain ⟨more, rfl⟩ := hbegins
  cases rest with
  | nil => trivial
  | cons c rest => exact h

/-- The end of a line is taken off together with the blanks in front of it. -/
theorem Behind.trimEnd {sep : Char} : ∀ {rest : Text}, Behind sep rest →
    Behind sep (Text.trimEnd (rest ++ Wire.crlf))
  | [], _ => by
      have hnil : Text.trimEnd ([] ++ Wire.crlf) = [] := by decide
      rw [hnil]
      trivial
  | c :: rest, h => by
      have hline : Behind sep (c :: rest ++ Wire.crlf) := h
      exact hline.of_prefix (Text.trimEnd_isPrefix _)

theorem splitOn_append {id rest : Text} (whole : ';' ∉ id) (h : Behind ';' rest) :
    ∃ fields, Split.splitOn ';' (id ++ rest) = id :: fields := by
  cases rest with
  | nil => exact ⟨[], by rw [List.append_nil, Split.splitOn_of_not_mem whole]⟩
  | cons c rest =>
    obtain rfl : c = ';' := h
    exact ⟨Split.splitOn ';' rest, by
      rw [Split.splitOn_append_sep, Split.splitOn_of_not_mem whole, List.singleton_append]⟩

/-- A word with nothing or `;` behind it does not begin with the mark of an echo. -/
theorem after?_helo {id rest : Text} (word : IsWord id) (h : Behind ';' rest) :
    Text.after? "helo " (id ++ rest) = none := by
  cases hafter : Text.after? "helo " (id ++ rest) with
  | none => rfl
  | some t =>
    have hspace : ' ' ∉ id := word.not_mem (by decide)
    have hmark : ' ' ∈ "helo ".toList := by decide
    rcases List.append_eq_append_iff.mp (Text.after?_eq_some_iff.mp hafter) with ⟨a, hid, hrest⟩ | ⟨a, hid, -⟩
    · -- the mark ends behind the word, so its next character is the `;`
      cases a with
      | nil =>
        rw [List.append_nil] at hid
        exact absurd (hid ▸ hmark) hspace
      | cons c a =>
        obtain rfl : c = ';' := by
          rw [hrest] at h
          exact h
        have hforeign : ';' ∉ "helo ".toList := by decide
        exact absurd (hid ▸ List.mem_append_right id List.mem_cons_self) hforeign
    · exact absurd (hid ▸ List.mem_append_left a hmark) hspace

/-! ## One line -/

theorem okReply_append {id rest : Text} (hid : IsId id) (h : Behind ';' rest) :
    ∃ fields, okReply (id ++ rest) = ⟨true, id, fields⟩ := by
  obtain ⟨fields, hsplit⟩ := splitOn_append hid.whole h
  refine ⟨fields, ?_⟩
  rw [okReply, after?_helo hid.toIsWord h, Option.getD_none, hsplit]

theorem okReply_helo_append {id rest : Text} (hid : IsId id) (h : Behind ';' rest) :
    ∃ fields, okReply ("helo " ++ (id ++ rest)) = ⟨true, id, fields⟩ := by
  obtain ⟨fields, hsplit⟩ := splitOn_append hid.whole h
  refine ⟨fields, ?_⟩
  rw [okReply, Text.after?_append, Option.getD_some, hsplit]

theorem errorReply_append {id rest : Text} (word : IsWord id) (h : Behind ' ' rest) :
    ∃ fields, errorReply (id ++ rest) = ⟨false, id, fields⟩ := by
  have hspace : ' ' ∉ id := word.not_mem (by decide)
  cases rest with
  | nil =>
    refine ⟨[[]], ?_⟩
    rw [List.append_nil, errorReply, Split.cutOnce?_of_not_mem hspace]
  | cons c rest =>
    obtain rfl : c = ' ' := h
    refine ⟨[rest], ?_⟩
    rw [errorReply, Split.cutOnce?_append rest hspace]

theorem parseReply?_ok {line body : Text} (h : Text.trimEnd line = "> OK " ++ body) :
    parseReply? line = some (okReply body) := by
  have hbody : Text.after? "> " ("> OK " ++ body) = some ("OK " ++ body) := Text.after?_append "> " _
  rw [parseReply?, h, hbody, Option.bind_some, Text.after?_append]

theorem parseReply?_error {line body : Text} (h : Text.trimEnd line = "> ERROR " ++ body) :
    parseReply? line = some (errorReply body) := by
  have hbody : Text.after? "> " ("> ERROR " ++ body) = some ("ERROR " ++ body) := Text.after?_append "> " _
  have hok : Text.after? "OK " ("ERROR " ++ body) = none := rfl
  rw [parseReply?, h, hbody, Option.bind_some, hok, Text.after?_append]
  rfl

/-- What stands in front of the id in a reply line. -/
def lead : ResponseKind → Text
  | .helo => "> OK helo "
  | .error => "> ERROR "
  | .get | .set | .getMeta | .setMeta => "> OK "

/-- What stands between the id and the rest of a reply line, where there is one. -/
def separator (kind : ResponseKind) : Char := if kind = .error then ' ' else ';'

theorem replyBody_layout (r : Response) (time : Text) :
    ∃ rest, Behind (separator r.kind) rest ∧ Wire.replyBody r time = lead r.kind ++ r.qualifiedId ++ rest := by
  rw [Wire.replyBody]
  cases r.kind with
  | helo => exact ⟨[], trivial, (List.append_nil _).symm⟩
  | set => exact ⟨[], trivial, (List.append_nil _).symm⟩
  | get | setMeta | getMeta => exact ⟨';' :: _, rfl, by simp only [List.append_assoc]; rfl⟩
  | error => exact ⟨' ' :: _, rfl, by simp only [List.append_assoc]; rfl⟩

/-- A line that is trimmed to an id between what belongs in front of it and behind it. -/
theorem parseReply?_of_trimEnd {kind : ResponseKind} {line id rest : Text} (hid : IsId id)
    (h : Behind (separator kind) rest) (hline : Text.trimEnd line = lead kind ++ (id ++ rest)) :
    ∃ fields, parseReply? line = some ⟨!decide (kind = .error), id, fields⟩ := by
  cases kind with
  | helo =>
    have hline : Text.trimEnd line = "> OK " ++ ("helo " ++ (id ++ rest)) := hline
    obtain ⟨fields, hreply⟩ := okReply_helo_append hid h
    exact ⟨fields, by rw [parseReply?_ok hline, hreply]; rfl⟩
  | get | set | getMeta | setMeta =>
    obtain ⟨fields, hreply⟩ := okReply_append hid h
    exact ⟨fields, by rw [parseReply?_ok hline, hreply]; rfl⟩
  | error =>
    obtain ⟨fields, hreply⟩ := errorReply_append hid.toIsWord h
    exact ⟨fields, by rw [parseReply?_error hline, hreply]; rfl⟩

theorem parseReply?_replyLine {r : Response} (hid : IsId r.qualifiedId) (time : Binary64) :
    ∃ fields, parseReply? (Wire.replyLine r time) = some ⟨!r.isError, r.qualifiedId, fields⟩ := by
  obtain ⟨rest, hrest, hbody⟩ := replyBody_layout r time.thousandths
  refine parseReply?_of_trimEnd hid hrest.trimEnd ?_
  rw [Wire.replyLine, hbody, List.append_assoc _ rest, hid.trimEnd_append, List.append_assoc]

/-! ## Many lines -/

variable {kind : RequestKind} {id : Text} {args : List Text}

/-- The console looks for the id that it has sent. -/
theorem expectedId_line (word : IsWord id) : expectedId (line kind id args) = id := by
  have hwords : ∃ rest, Text.words (Text.join [' '] (id :: args.map quote)) = id :: rest := by
    cases args with
    | nil => exact ⟨[], Text.words_of_isWord word⟩
    | cons a args =>
      rw [List.map_cons, Text.join_cons_cons, Text.words_append_cons word (by decide)]
      exact ⟨_, rfl⟩
  obtain ⟨rest, hwords⟩ := hwords
  rw [expectedId, line, Text.join_cons_cons, Text.words_append_cons (isWord_keyword kind) (by decide), hwords]

/-- A line of bytes in front of others. -/
theorem byteLines_append {bytes : Bytes} (single : 10 ∉ bytes) (later : Bytes) :
    byteLines (bytes ++ [10] ++ later) = (bytes ++ [10]) :: byteLines later := by
  have hfirst : ¬[10] <:+: (bytes ++ [10]).dropLast := by
    rw [List.dropLast_concat]
    exact fun h => single (h.subset (List.mem_singleton_self 10))
  rw [byteLines, Split.segments_append (List.cons_ne_nil 10 []) hfirst]
  rfl

theorem readable_cons (t : Text) (later : List Bytes) :
    (readable (Utf8.encode t :: later)).1 = t :: (readable later).1 := by
  rw [readable, Utf8.strict?_encode]

/-- Lines that each hold their line feed at the end are received one by one. -/
theorem received_append (later : Bytes) :
    ∀ {lines : List Text}, (∀ t ∈ lines, ∃ body, t = body ++ ['\n'] ∧ '\n' ∉ body) →
      (readable (byteLines (Utf8.encode lines.flatten ++ later))).1 =
        lines ++ (readable (byteLines later)).1
  | [], _ => rfl
  | t :: lines, h => by
      obtain ⟨⟨body, rfl, hbody⟩, hrest⟩ := List.forall_mem_cons.mp h
      have hsingle : 10 ∉ Utf8.encode body := fun hmem => by
        obtain ⟨c, hc, heq⟩ := (Utf8.mem_encode_iff (by decide)).mp hmem
        obtain rfl : c = '\n' := Char.toNat_inj.mp heq
        exact hbody hc
      have hline : Utf8.encode (body ++ ['\n']) = Utf8.encode body ++ [10] := Utf8.encode_append _ _
      rw [List.flatten_cons, Utf8.encode_append, hline, List.append_assoc _ _ later,
        byteLines_append hsingle, ← hline, readable_cons, received_append later hrest, List.cons_append]

theorem answers_replyLine {r : Response} (hid : IsId r.qualifiedId) (time : Binary64) (id : Text) :
    answers (Wire.replyLine r time) id = decide (r.qualifiedId = id) := by
  obtain ⟨fields, hreply⟩ := parseReply?_replyLine hid time
  rw [answers, hreply, Option.any_some]

theorem firstAnswer?_replyLines (id : Text) :
    ∀ {sent : List (Response × Binary64)}, (∀ s ∈ sent, IsId s.1.qualifiedId) →
      firstAnswer? id (sent.map fun s => Wire.replyLine s.1 s.2) =
        (sent.find? fun s => s.1.qualifiedId = id).map fun s => Wire.replyLine s.1 s.2
  | [], _ => rfl
  | s :: sent, h => by
      obtain ⟨hid, hrest⟩ := List.forall_mem_cons.mp h
      rw [List.map_cons, firstAnswer?, List.find?_cons, answers_replyLine hid, List.find?_cons]
      cases decide (s.1.qualifiedId = id) with
      | true => rfl
      | false => exact firstAnswer?_replyLines id hrest

/-- The line of every response is read as a reply with its id, which is `ok` exactly if it reports no error.
So among lines with such ids the answer to a line that was sent is the first with its id, whatever comes
later; there is none only if no line carries the id. -/
theorem exchange_firstAnswer :
    (∀ (r : Response) (time : Binary64), IsId r.qualifiedId →
      ∃ fields, parseReply? (Wire.replyLine r time) = some ⟨!r.isError, r.qualifiedId, fields⟩) ∧
    ∀ (kind : RequestKind) (id : Text) (args : List Text), IsId id → ∀ sent : List (Response × Binary64),
      (∀ s ∈ sent, IsId s.1.qualifiedId ∧ '\n' ∉ (Wire.replyLine s.1 s.2).dropLast) →
      let bytes := Utf8.encode (sent.flatMap fun s => Wire.replyLine s.1 s.2)
      let answer? := (sent.find? fun s => s.1.qualifiedId = id).map fun s => Wire.replyLine s.1 s.2
      (∀ later, firstAnswer? (expectedId (line kind id args)) (readable (byteLines (bytes ++ later))).1 =
        answer?.or (firstAnswer? id (readable (byteLines later)).1)) ∧
      ∀ format, exchangeOutcome format (line kind id args) bytes =
        match answer? with
        | some answer => ⟨[printed format answer], true⟩
        | none => ⟨[], false⟩ := by
  refine ⟨fun r time hid => parseReply?_replyLine hid time, ?_⟩
  intro kind id args hid sent hsent bytes answer?
  have hlines : ∀ t ∈ sent.map fun s => Wire.replyLine s.1 s.2, ∃ body, t = body ++ ['\n'] ∧ '\n' ∉ body := by
    intro t ht
    obtain ⟨s, hs, rfl⟩ := List.mem_map.mp ht
    have hends : Wire.replyLine s.1 s.2 = (Wire.replyBody s.1 s.2.thousandths ++ ['\r']) ++ ['\n'] := by
      rw [Wire.replyLine, List.append_assoc]
      rfl
    have hsingle := (hsent s hs).2
    rw [hends, List.dropLast_concat] at hsingle
    exact ⟨_, hends, hsingle⟩
  have hanswer : ∀ later, firstAnswer? (expectedId (line kind id args)) (readable (byteLines (bytes ++ later))).1 =
      answer?.or (firstAnswer? id (readable (byteLines later)).1) := fun later => by
    have hreceived := received_append later hlines
    rw [← List.flatMap_def] at hreceived
    rw [expectedId_line hid.toIsWord, hreceived, firstAnswer?, List.find?_append]
    exact congrArg (Option.or · _) (firstAnswer?_replyLines id fun s hs => (hsent s hs).1)
  refine ⟨hanswer, fun format => ?_⟩
  have hall := hanswer []
  have hnone : firstAnswer? id (readable (byteLines [])).1 = none := rfl
  rw [List.append_nil, hnone, Option.or_none] at hall
  cases hfound : answer? with
  | none =>
    rw [hfound] at hall
    simp only [exchangeOutcome, hall]
  | some answer =>
    rw [hfound] at hall
    simp only [exchangeOutcome, hall]

/-- An id that is the mark of an echo itself, behind telemetry whose value has blanks at its end. -/
theorem exchange_firstAnswer_helo :
    let time : Binary64 := .finite ⟨false, 1, 10⟩
    let telemetry : Response := ⟨some "psu", "volt", .get, some (.str "5.0 ")⟩
    let sent := [(telemetry, time), (Response.helo "helo", time), (⟨none, "helo", .set, none⟩, time)]
    IsId "psu_volt" ∧ IsId "helo" ∧
      (∀ s ∈ sent, IsId s.1.qualifiedId ∧ '\n' ∉ (Wire.replyLine s.1 s.2).dropLast) ∧
      (∃ fields, parseReply? (Wire.replyLine telemetry time) = some ⟨true, "psu_volt", fields⟩) ∧
      exchangeOutcome .raw (line .helo "helo" []) (Utf8.encode (sent.flatMap fun s => Wire.replyLine s.1 s.2)) =
        ⟨["> OK helo helo"], true⟩ := by
  intro time telemetry sent
  have volt : IsId "psu_volt" := by decide
  have helo : IsId "helo" := by decide
  have hsent : ∀ s ∈ sent, IsId s.1.qualifiedId ∧ '\n' ∉ (Wire.replyLine s.1 s.2).dropLast := by
    refine List.forall_mem_cons.mpr ⟨⟨volt, by decide⟩, ?_⟩
    refine List.forall_mem_cons.mpr ⟨⟨helo, by decide⟩, ?_⟩
    exact List.forall_mem_cons.mpr ⟨⟨helo, by decide⟩, nofun⟩
  refine ⟨volt, helo, hsent, exchange_firstAnswer.1 telemetry time volt, ?_⟩
  rw [(exchange_firstAnswer.2 .helo "helo" [] helo sent hsent).2 .raw]
  decide

end Console

end GroundStation
