/-
# What the console sends is what the station reads

Four notions of a break meet here.  The console puts quotes around an argument that is empty or holds a blank
of any kind; the station cuts a buffer at `CR LF`, takes the blanks off both ends of a line, and cuts it at the
spaces outside quotes.  They fit together because each break that the station makes lies between two pieces
of the line and never inside one: no piece holds `CR LF`, none begins or ends with a blank, and each is in
quotes or free of spaces.
-/
import GroundStation.Console.Reply
import GroundStation.Proofs.Text.Blank
import GroundStation.Proofs.Text.Utf8
import GroundStation.Proofs.Wire.Line

namespace GroundStation

/-- What occurs in a row of texts and spans no separator occurs in one of them. -/
theorem Text.infix_of_infix_join {c : Char} {t : Text} (some : t ≠ []) (foreign : c ∉ t) :
    ∀ {ts : List Text}, t <:+: join [c] ts → ∃ piece ∈ ts, t <:+: piece
  | [], h => absurd (List.infix_nil.mp h) some
  | [piece], h => ⟨piece, List.mem_singleton_self piece, h⟩
  | piece :: next :: ts, h => by
      rw [join_cons_cons] at h
      rcases Split.infix_of_infix_append_cons foreign h with hfirst | hrest
      · exact ⟨piece, List.mem_cons_self, hfirst⟩
      · obtain ⟨piece', hmem, hin⟩ := infix_of_infix_join some foreign hrest
        exact ⟨piece', List.mem_cons_of_mem piece hmem, hin⟩

namespace Console

open Text (IsWord Tight)

/-! ## Pieces of a line -/

theorem not_crlf_infix_of_isWord {t : Text} (word : IsWord t) : ¬Wire.crlf <:+: t :=
  Wire.not_crlf_infix_of_not_mem (word.not_mem (by decide))

theorem spells_of_isWord {t : Text} (word : IsWord t) (unquoted : '"' ∉ t) : Wire.Spells t t :=
  Wire.spells_plain word.ne_nil (word.not_mem (by decide)) unquoted

theorem isWord_keyword (kind : RequestKind) : IsWord (Wire.keyword kind) := by
  cases kind <;> decide

theorem not_mem_keyword (kind : RequestKind) : '"' ∉ Wire.keyword kind := by
  cases kind <;> decide

/-- An argument is sent as it is if it is a word, and else in quotes. -/
theorem quote_cases (a : Text) : IsWord a ∧ quote a = a ∨ quote a = '"' :: a ++ ['"'] := by
  rw [quote]
  split
  · exact .inr rfl
  · next h =>
    obtain ⟨hne, hsolid⟩ := not_or.mp h
    refine .inl ⟨⟨fun hnil => hne (List.isEmpty_iff.mpr hnil), fun c hc => ?_⟩, rfl⟩
    exact Bool.eq_false_iff.mpr fun hblank => hsolid (List.any_eq_true.mpr ⟨c, hc, hblank⟩)

theorem spells_quote {a : Text} (unquoted : '"' ∉ a) : Wire.Spells (quote a) a := by
  rcases quote_cases a with ⟨word, heq⟩ | heq
  · rw [heq]
    exact spells_of_isWord word unquoted
  · rw [heq]
    exact Wire.spells_quoted unquoted

theorem tight_quote (a : Text) : Tight (quote a) := by
  rcases quote_cases a with ⟨word, heq⟩ | heq
  · rw [heq]
    exact word.tight
  · rw [heq]
    exact ⟨⟨'"', a ++ ['"'], rfl, by decide⟩, '"' :: a, '"', rfl, by decide⟩

theorem not_crlf_infix_quote {a : Text} (h : ¬Wire.crlf <:+: a) : ¬Wire.crlf <:+: quote a := by
  rcases quote_cases a with ⟨-, heq⟩ | heq
  · rwa [heq]
  · rw [heq]
    intro hin
    have hforeign : '"' ∉ Wire.crlf := by decide
    rcases Split.infix_of_infix_append_cons hforeign hin with hopened | hnil
    · have hopened' : Wire.crlf <:+: [] ++ '"' :: a := hopened
      rcases Split.infix_of_infix_append_cons hforeign hopened' with hnil | ha
      · exact Wire.crlf_ne_nil (List.infix_nil.mp hnil)
      · exact h ha
    · exact Wire.crlf_ne_nil (List.infix_nil.mp hnil)

/-! ## The line -/

variable {kind : RequestKind} {id : Text} {args : List Text}

theorem tight_line (word : IsWord id) : Tight (line kind id args) := by
  refine Text.tight_join (List.cons_ne_nil _ _) ?_
  refine List.forall_mem_cons.mpr ⟨(isWord_keyword kind).tight, ?_⟩
  exact List.forall_mem_cons.mpr ⟨word.tight, List.forall_mem_map.mpr fun a _ => tight_quote a⟩

theorem not_crlf_infix_line (word : IsWord id) (whole : ∀ a ∈ args, ¬Wire.crlf <:+: a) :
    ¬Wire.crlf <:+: line kind id args := by
  have hpieces : ∀ piece ∈ Wire.keyword kind :: id :: args.map quote, ¬Wire.crlf <:+: piece := by
    refine List.forall_mem_cons.mpr ⟨not_crlf_infix_of_isWord (isWord_keyword kind), ?_⟩
    refine List.forall_mem_cons.mpr ⟨not_crlf_infix_of_isWord word, ?_⟩
    exact List.forall_mem_map.mpr fun a ha => not_crlf_infix_quote (whole a ha)
  intro hin
  obtain ⟨piece, hmem, hpiece⟩ := Text.infix_of_infix_join Wire.crlf_ne_nil (by decide) hin
  exact hpieces piece hmem hpiece

theorem tokenize_line (word : IsWord id) (unquoted : '"' ∉ id) (unquoted' : ∀ a ∈ args, '"' ∉ a) :
    Wire.tokenize (line kind id args) = Wire.keyword kind :: id :: args := by
  rw [line, Wire.tokenize_join_cons (spells_of_isWord (isWord_keyword kind) (not_mem_keyword kind)),
    Wire.tokenize_join_cons (spells_of_isWord word unquoted),
    Wire.tokenize_join_map fun a ha => spells_quote (unquoted' a ha)]

theorem parseLine?_line (word : IsWord id) (unquoted : '"' ∉ id) (unquoted' : ∀ a ∈ args, '"' ∉ a) :
    Wire.parseLine? (line kind id args) = some (.request ⟨none, id, kind, args⟩) := by
  rw [Wire.parseLine?, Text.trim_of_tight (tight_line word), tokenize_line word unquoted unquoted']
  simp only [Wire.ofTokens?, Wire.keyword?_keyword]

/-- The line of a request with `CR LF` behind it is read as this request and nothing else, whatever blanks the
arguments hold and also if they are empty. -/
theorem parseBuffer_line (word : IsWord id) (unquoted : '"' ∉ id)
    (sendable : ∀ a ∈ args, '"' ∉ a ∧ ¬Wire.crlf <:+: a) :
    Wire.parseBuffer (Utf8.encode (line kind id args ++ Wire.crlf)) = [.request ⟨none, id, kind, args⟩] := by
  have hclosed : ¬Wire.crlf <:+: line kind id args := not_crlf_infix_line word fun a ha => (sendable a ha).2
  have hparsed := Wire.parseText_append hclosed []
  rw [List.append_nil, parseLine?_line word unquoted fun a ha => (sendable a ha).1] at hparsed
  rw [Wire.parseBuffer, Utf8.decode_encode, hparsed]
  rfl

/-- A carriage return inside an argument, an argument that is empty, and a line feed alone. -/
theorem parseBuffer_line_blanks :
    let args : List Text := [['h', 'i', '\r', 't'], [], ['\n']]
    IsWord "psu_label" ∧ '"' ∉ "psu_label".toList ∧ (∀ a ∈ args, '"' ∉ a ∧ ¬Wire.crlf <:+: a) ∧
      Wire.parseBuffer (Utf8.encode (line .set "psu_label" args ++ Wire.crlf)) =
        [.request ⟨none, "psu_label", .set, args⟩] := by
  intro args
  have word : IsWord "psu_label" := by decide
  have unquoted : '"' ∉ "psu_label".toList := by decide
  have sendable : ∀ a ∈ args, '"' ∉ a ∧ ¬Wire.crlf <:+: a := by decide
  exact ⟨word, unquoted, sendable, parseBuffer_line word unquoted sendable⟩

end Console

end GroundStation
