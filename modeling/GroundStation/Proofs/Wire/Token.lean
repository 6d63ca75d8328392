/-
# Tokens and the rows they stand in

A token can be written in many ways, since quotes may stand anywhere around its parts.  `Writes` says what a
piece of a line is made of for a token to be read from it, and `Row` how pieces stand in a line, with spaces
between them.  Neither names a state of the scanner.  Together they describe it on every line whose quotes are
all closed (`row_iff`); a quote that is open at the end of a line is read as if it were closed there
(`row_tokenize`).

All that the scanner carries along a line is whether a quote is open.  So a line comes apart at a space that has
an even number of quotes before it, however many of them stand within words (`tokenize_append_space`).
-/
import GroundStation.Proofs.Text.Blank
import GroundStation.Wire.Token

namespace GroundStation

namespace Wire

/-! ## The scanner, a character at a time -/

theorem tokenize_of_tokensFrom {line : Text} {first : Option Text} {tokens : List Text}
    (h : tokensFrom false line = (first, tokens)) : tokenize line = first.toList ++ tokens := by
  rw [tokenize, h]

theorem tokensFrom_space (rest : Text) : tokensFrom false (' ' :: rest) = (none, tokenize rest) := rfl

theorem tokensFrom_quote (quoted : Bool) (rest : Text) :
    tokensFrom quoted ('"' :: rest) =
      (some ((tokensFrom (!quoted) rest).1.getD []), (tokensFrom (!quoted) rest).2) := rfl

/-- A character other than a quote belongs to a token, unless it is a space outside quotes. -/
theorem tokensFrom_cons {quoted : Bool} {c : Char} (hquote : c ≠ '"') (hspace : c = ' ' → quoted = true)
    (rest : Text) :
    tokensFrom quoted (c :: rest) =
      (some (c :: (tokensFrom quoted rest).1.getD []), (tokensFrom quoted rest).2) := by
  have hheld : ¬(c = ' ' ∧ (!quoted) = true) := fun ⟨h, hout⟩ => by simp [hspace h] at hout
  rw [tokensFrom, if_neg hquote, if_neg hheld]

/-- Along a line: it ends, a quote follows, a character that belongs to a token, or a space between tokens. -/
@[elab_as_elim]
theorem scan_induction {motive : Bool → Text → Prop} (nil : ∀ quoted, motive quoted [])
    (quote : ∀ quoted line, motive (!quoted) line → motive quoted ('"' :: line))
    (held : ∀ quoted c line, c ≠ '"' → (c = ' ' → quoted = true) → motive quoted line → motive quoted (c :: line))
    (space : ∀ line, motive false line → motive false (' ' :: line)) : ∀ quoted line, motive quoted line
  | quoted, [] => nil quoted
  | quoted, c :: line => by
      by_cases hquote : c = '"'
      · rw [hquote]
        exact quote quoted line (scan_induction nil quote held space (!quoted) line)
      · by_cases hspace : c = ' ' → quoted = true
        · exact held quoted c line hquote hspace (scan_induction nil quote held space quoted line)
        · obtain ⟨rfl, hout⟩ := Classical.not_imp.mp hspace
          rw [Bool.eq_false_iff.mpr hout]
          exact space line (scan_induction nil quote held space false line)

/-- What stands before the closing quote belongs to the token, spaces included. -/
theorem tokensFrom_run (rest : Text) : ∀ {run : Text}, '"' ∉ run →
    tokensFrom true (run ++ '"' :: rest) =
      (some (run ++ (tokensFrom false rest).1.getD []), (tokensFrom false rest).2)
  | [], _ => tokensFrom_quote true rest
  | c :: run, h => by
      rw [List.cons_append, tokensFrom_cons (List.ne_of_not_mem_cons h).symm fun _ => rfl,
        tokensFrom_run rest (List.not_mem_of_not_mem_cons h)]
      rfl

/-! ## Pieces -/

/-- What a piece of a line is made of: runs in quotes, and characters that are neither a quote nor a space.
The token is what is left without the quotes. -/
inductive Writes : Text → Text → Prop
  | nil : Writes [] []
  | bare {c : Char} {piece token : Text} : c ≠ '"' → c ≠ ' ' → Writes piece token →
      Writes (c :: piece) (c :: token)
  | quoted {run piece token : Text} : '"' ∉ run → Writes piece token →
      Writes ('"' :: run ++ '"' :: piece) (run ++ token)

/-- In front of a space or the end of the line, `piece` is read as `token`. -/
def Spells (piece token : Text) : Prop :=
  ∀ ⦃rest : Text⦄ ⦃tokens : List Text⦄, tokensFrom false rest = (none, tokens) →
    tokensFrom false (piece ++ rest) = (some token, tokens)

namespace Writes

variable {piece token : Text}

/-- A piece is read up to its end, and what is behind it adds to the token. -/
theorem tokensFrom_append (h : Writes piece token) (rest : Text) :
    (tokensFrom false (piece ++ rest)).1.getD [] = token ++ (tokensFrom false rest).1.getD [] ∧
      (tokensFrom false (piece ++ rest)).2 = (tokensFrom false rest).2 := by
  induction h with
  | nil => exact ⟨rfl, rfl⟩
  | @bare c piece token hquote hspace _ ih =>
    obtain ⟨hfirst, hbehind⟩ := ih
    rw [List.cons_append, tokensFrom_cons hquote fun h => absurd h hspace]
    exact ⟨congrArg (c :: ·) hfirst, hbehind⟩
  | @quoted run piece token hrun _ ih =>
    obtain ⟨hfirst, hbehind⟩ := ih
    have hread : '"' :: run ++ '"' :: piece ++ rest = '"' :: (run ++ '"' :: (piece ++ rest)) := by simp
    rw [hread, tokensFrom_quote, Bool.not_false, tokensFrom_run _ hrun, hfirst]
    exact ⟨(List.append_assoc run token _).symm, hbehind⟩

/-- Where a piece stands, a token begins. -/
theorem exists_token (h : Writes piece token) (filled : piece ≠ []) (rest : Text) :
    ∃ first, (tokensFrom false (piece ++ rest)).1 = some first := by
  cases h with
  | nil => exact absurd rfl filled
  | bare hquote hspace _ =>
    rw [List.cons_append, tokensFrom_cons hquote fun h => absurd h hspace]
    exact ⟨_, rfl⟩
  | quoted => exact ⟨_, rfl⟩

theorem spells (h : Writes piece token) (filled : piece ≠ []) : Spells piece token := by
  intro rest tokens hrest
  obtain ⟨first, hsome⟩ := h.exists_token filled rest
  obtain ⟨hfirst, hbehind⟩ := h.tokensFrom_append rest
  rw [hsome, hrest, Option.getD_some, Option.getD_none, List.append_nil] at hfirst
  rw [hrest] at hbehind
  exact Prod.ext (hsome.trans (congrArg some hfirst)) hbehind

/-- A piece closes the quotes that it opens. -/
theorem closed (h : Writes piece token) : piece.count '"' % 2 = 0 := by
  induction h with
  | nil => rfl
  | bare hquote _ _ ih => rwa [List.count_cons_of_ne hquote]
  | @quoted run piece _ hrun _ ih =>
    rw [List.count_append, List.count_cons_self, List.count_cons_self, List.count_eq_zero_of_not_mem hrun]
    omega

theorem not_mem (h : Writes piece token) : '"' ∉ token := by
  induction h with
  | nil => exact List.not_mem_nil
  | bare hquote _ _ ih => exact List.not_mem_cons_of_ne_of_not_mem hquote.symm ih
  | quoted hrun _ ih => exact fun hmem => (List.mem_append.mp hmem).elim hrun ih

/-- A text without spaces and quotes stands for itself. -/
theorem refl : ∀ {a : Text}, ' ' ∉ a → '"' ∉ a → Writes a a
  | [], _, _ => .nil
  | _ :: _, hspace, hquote =>
      .bare (List.ne_of_not_mem_cons hquote).symm (List.ne_of_not_mem_cons hspace).symm
        (refl (List.not_mem_of_not_mem_cons hspace) (List.not_mem_of_not_mem_cons hquote))

theorem whole {a : Text} (h : '"' ∉ a) : Writes ('"' :: a ++ ['"']) a := by
  have hrun := quoted h .nil
  rwa [List.append_nil] at hrun

end Writes

/-- A token in quotes. -/
theorem spells_quoted {a : Text} (h : '"' ∉ a) : Spells ('"' :: a ++ ['"']) a :=
  (Writes.whole h).spells (List.cons_ne_nil _ _)

/-- A token as it is. -/
theorem spells_plain {a : Text} (filled : a ≠ []) (hspace : ' ' ∉ a) (hquote : '"' ∉ a) : Spells a a :=
  (Writes.refl hspace hquote).spells filled

theorem tokenize_append {piece token : Text} (h : Spells piece token) {rest : Text} {tokens : List Text}
    (hrest : tokensFrom false rest = (none, tokens)) : tokenize (piece ++ rest) = token :: tokens :=
  tokenize_of_tokensFrom (h hrest)

/-- The first piece of a line whose pieces have one space between them is read as the first token. -/
theorem tokenize_join_cons {piece token : Text} (h : Spells piece token) (pieces : List Text) :
    tokenize (Text.join [' '] (piece :: pieces)) = token :: tokenize (Text.join [' '] pieces) := by
  cases pieces with
  | nil =>
    have hread : tokenize (piece ++ []) = [token] := tokenize_append h rfl
    rwa [List.append_nil] at hread
  | cons next pieces => rw [Text.join_cons_cons, tokenize_append h (tokensFrom_space _)]

/-- Tokens that are written one by one, with spaces between them. -/
theorem tokenize_join_map {write : Text → Text} :
    ∀ {tokens : List Text}, (∀ token ∈ tokens, Spells (write token) token) →
      tokenize (Text.join [' '] (tokens.map write)) = tokens
  | [], _ => rfl
  | token :: tokens, h => by
      obtain ⟨hfirst, hrest⟩ := List.forall_mem_cons.mp h
      rw [List.map_cons, tokenize_join_cons hfirst, tokenize_join_map hrest]

/-! ## Rows -/

/-- A line of tokens: pieces that are not empty, and spaces.  There may be any number of these at either end and
between two pieces, but no two pieces touch. -/
inductive Row : Text → List Text → Prop
  | nil : Row [] []
  | space {line : Text} {tokens : List Text} : Row line tokens → Row (' ' :: line) tokens
  | cons {piece token line : Text} {tokens : List Text} : Writes piece token → piece ≠ [] →
      (∀ c more, line = c :: more → c = ' ') → Row line tokens → Row (piece ++ line) (token :: tokens)

namespace Row

variable {line : Text} {tokens : List Text}

theorem tokenize_eq (h : Row line tokens) : tokenize line = tokens := by
  induction h with
  | nil => rfl
  | @space line tokens _ ih =>
    rw [tokenize, tokensFrom_space]
    exact ih
  | @cons piece token line tokens hpiece filled behind _ ih =>
    cases line with
    | nil =>
      rw [← ih]
      exact tokenize_append (hpiece.spells filled) rfl
    | cons c more =>
      cases behind c more rfl
      rw [← ih]
      exact tokenize_append (hpiece.spells filled) (tokensFrom_space more)

theorem closed (h : Row line tokens) : line.count '"' % 2 = 0 := by
  induction h with
  | nil => rfl
  | space _ ih => rwa [List.count_cons_of_ne (by decide)]
  | cons hpiece _ _ _ ih =>
    have hclosed := hpiece.closed
    rw [List.count_append]
    omega

theorem not_mem (h : Row line tokens) : ∀ token ∈ tokens, '"' ∉ token := by
  induction h with
  | nil => exact List.forall_mem_nil _
  | space _ ih => exact ih
  | cons hpiece _ _ _ ih => exact List.forall_mem_cons.mpr ⟨hpiece.not_mem, ih⟩

/-- Any tokens without quotes can be written, each in quotes. -/
theorem exists_line : ∀ {tokens : List Text}, (∀ token ∈ tokens, '"' ∉ token) → ∃ line, Row line tokens
  | [], _ => ⟨[], .nil⟩
  | token :: tokens, h => by
      obtain ⟨hfirst, hrest⟩ := List.forall_mem_cons.mp h
      obtain ⟨line, hline⟩ := exists_line hrest
      refine ⟨_, .cons (.whole hfirst) (List.cons_ne_nil _ _) ?_ (.space hline)⟩
      intro c more heq
      cases heq
      rfl

end Row

/-! ## Lines whose quotes are closed -/

/-- A line begins with a piece, perhaps an empty one, that goes up to a space or the end. -/
theorem exists_writes : ∀ {line : Text}, line.count '"' % 2 = 0 →
    ∃ piece token rest, line = piece ++ rest ∧ Writes piece token ∧ ∀ c more, rest = c :: more → c = ' '
  | [], _ => ⟨[], [], [], rfl, .nil, fun _ _ h => nomatch h⟩
  | c :: line, closed => by
      by_cases hquote : c = '"'
      · -- an odd number of quotes is left, so this one is closed further on
        rw [hquote, List.count_cons_self] at closed
        have hmem : '"' ∈ line := List.count_pos_iff.mp (by omega)
        obtain ⟨run, behind, hline, hrun⟩ := List.eq_append_cons_of_mem hmem
        have hbehind : behind.count '"' % 2 = 0 := by
          rw [hline, List.count_append, List.count_cons_self, List.count_eq_zero_of_not_mem hrun] at closed
          omega
        have shorter : behind.length < line.length + 1 := by
          rw [hline, List.length_append, List.length_cons]
          omega
        obtain ⟨piece, token, rest, hsplit, hpiece, hrest⟩ := exists_writes hbehind
        refine ⟨'"' :: run ++ '"' :: piece, run ++ token, rest, ?_, .quoted hrun hpiece, hrest⟩
        rw [hquote, hline, hsplit]
        simp
      · rw [List.count_cons_of_ne hquote] at closed
        by_cases hspace : c = ' '
        · refine ⟨[], [], c :: line, rfl, .nil, ?_⟩
          rintro d more heq
          cases heq
          exact hspace
        · obtain ⟨piece, token, rest, hsplit, hpiece, hrest⟩ := exists_writes closed
          exact ⟨c :: piece, c :: token, rest, by rw [hsplit, List.cons_append],
            .bare hquote hspace hpiece, hrest⟩
termination_by line => line.length

theorem exists_row : ∀ {line : Text}, line.count '"' % 2 = 0 → ∃ tokens, Row line tokens
  | [], _ => ⟨[], .nil⟩
  | c :: line, closed => by
      by_cases hspace : c = ' '
      · rw [hspace, List.count_cons_of_ne (by decide)] at closed
        obtain ⟨tokens, hline⟩ := exists_row closed
        rw [hspace]
        exact ⟨tokens, .space hline⟩
      · obtain ⟨piece, token, rest, hsplit, hpiece, hrest⟩ := exists_writes closed
        have filled : piece ≠ [] := by
          rintro rfl
          exact hspace (hrest c line hsplit.symm)
        have shorter : rest.length < line.length + 1 := by
          have hpos := List.length_pos_iff.mpr filled
          have hlength := congrArg List.length hsplit
          rw [List.length_append, List.length_cons] at hlength
          omega
        have hclosed : rest.count '"' % 2 = 0 := by
          have hpieces := hpiece.closed
          rw [hsplit, List.count_append] at closed
          omega
        obtain ⟨tokens, hrow⟩ := exists_row hclosed
        rw [hsplit]
        exact ⟨token :: tokens, .cons hpiece filled hrest hrow⟩
termination_by line => line.length

/-- A line is a row of tokens if its quotes are closed and these are the tokens that are read from it. -/
theorem row_iff {line : Text} {tokens : List Text} :
    Row line tokens ↔ line.count '"' % 2 = 0 ∧ tokenize line = tokens := by
  constructor
  · exact fun h => ⟨h.closed, h.tokenize_eq⟩
  · rintro ⟨closed, rfl⟩
    obtain ⟨tokens, hrow⟩ := exists_row closed
    rwa [hrow.tokenize_eq]

/-! ## Where a line comes apart -/

/-- A quote opens or closes what the quotes behind it close or open. -/
theorem count_behind_quote {quoted : Bool} {line : Text} (h : ('"' :: line).count '"' % 2 = quoted.toNat) :
    line.count '"' % 2 = (!quoted).toNat := by
  rw [List.count_cons_self] at h
  cases quoted with
  | false =>
    rw [Bool.toNat_false] at h
    rw [Bool.not_false, Bool.toNat_true]
    omega
  | true =>
    rw [Bool.toNat_true] at h
    rw [Bool.not_true, Bool.toNat_false]
    omega

theorem tokensFrom_append_space (behind : Text) {quoted : Bool} {front : Text}
    (h : front.count '"' % 2 = quoted.toNat) :
    tokensFrom quoted (front ++ ' ' :: behind) =
      ((tokensFrom quoted front).1, (tokensFrom quoted front).2 ++ tokenize behind) := by
  induction quoted, front using scan_induction with
  | nil quoted =>
    cases quoted with
    | false => exact tokensFrom_space behind
    | true => cases h
  | quote quoted front ih =>
    rw [List.cons_append, tokensFrom_quote, tokensFrom_quote, ih (count_behind_quote h)]
  | held quoted c front hquote hspace ih =>
    rw [List.count_cons_of_ne hquote] at h
    rw [List.cons_append, tokensFrom_cons hquote hspace, tokensFrom_cons hquote hspace, ih h]
  | space front ih =>
    rw [List.count_cons_of_ne (by decide)] at h
    rw [List.cons_append, tokensFrom_space, tokensFrom_space, tokenize_of_tokensFrom (ih h), ← List.append_assoc]
    rfl

/-- Behind an even number of quotes a space keeps what stands on either side of it apart. -/
theorem tokenize_append_space {front : Text} (closed : front.count '"' % 2 = 0) (behind : Text) :
    tokenize (front ++ ' ' :: behind) = tokenize front ++ tokenize behind := by
  rw [tokenize_of_tokensFrom (tokensFrom_append_space behind closed)]
  exact (List.append_assoc _ _ _).symm

/-! ## A quote that stays open -/

/-- A quote at the end closes the one that is open there, and adds no character to any token. -/
theorem tokensFrom_append_quote {quoted : Bool} {line : Text} (h : line.count '"' % 2 = (!quoted).toNat) :
    (tokensFrom quoted (line ++ ['"'])).2 = (tokensFrom quoted line).2 ∧
      (tokensFrom quoted (line ++ ['"'])).1.getD [] = (tokensFrom quoted line).1.getD [] ∧
      (quoted = false → (tokensFrom quoted (line ++ ['"'])).1 = (tokensFrom quoted line).1) := by
  induction quoted, line using scan_induction with
  | nil quoted =>
    -- within quotes the end of a line begins no token, and a quote there begins an empty one
    cases quoted with
    | false => cases h
    | true => exact ⟨rfl, rfl, fun h => nomatch h⟩
  | quote quoted line ih =>
    obtain ⟨hbehind, hfirst, -⟩ := ih (count_behind_quote h)
    rw [List.cons_append, tokensFrom_quote, tokensFrom_quote, hbehind, hfirst]
    exact ⟨rfl, rfl, fun _ => rfl⟩
  | held quoted c line hquote hspace ih =>
    rw [List.count_cons_of_ne hquote] at h
    obtain ⟨hbehind, hfirst, -⟩ := ih h
    rw [List.cons_append, tokensFrom_cons hquote hspace, tokensFrom_cons hquote hspace, hbehind, hfirst]
    exact ⟨rfl, rfl, fun _ => rfl⟩
  | space line ih =>
    rw [List.count_cons_of_ne (by decide)] at h
    obtain ⟨hbehind, -, hwhole⟩ := ih h
    rw [List.cons_append, tokensFrom_space, tokensFrom_space,
      tokenize_of_tokensFrom (Prod.ext (hwhole rfl) hbehind)]
    exact ⟨rfl, rfl, fun _ => rfl⟩

theorem tokenize_append_quote {line : Text} (opened : line.count '"' % 2 = 1) :
    tokenize (line ++ ['"']) = tokenize line := by
  obtain ⟨hbehind, -, hwhole⟩ := @tokensFrom_append_quote false line opened
  exact tokenize_of_tokensFrom (Prod.ext (hwhole rfl) hbehind)

/-- Every line is a row of the tokens that are read from it, with a quote behind it where one is open. -/
theorem row_tokenize (line : Text) :
    Row (if line.count '"' % 2 = 0 then line else line ++ ['"']) (tokenize line) := by
  split
  · next closed => exact row_iff.mpr ⟨closed, rfl⟩
  · next hopen =>
    have opened : line.count '"' % 2 = 1 := by omega
    refine row_iff.mpr ⟨?_, tokenize_append_quote opened⟩
    rw [List.count_append, List.count_singleton_self]
    omega

/-! ## Lines that are written -/

/-- A space behind an even number of quotes keeps what stands on either side of it apart.  Any tokens without
quotes, and no others, can be written in a line, and the lines in which they are written are those with an even
number of quotes from which these tokens are read. -/
theorem tokenize_written :
    (∀ front behind : Text, front.count '"' % 2 = 0 →
      tokenize (front ++ ' ' :: behind) = tokenize front ++ tokenize behind) ∧
    (∀ (line : Text) (tokens : List Text), Row line tokens ↔ line.count '"' % 2 = 0 ∧ tokenize line = tokens) ∧
    ∀ tokens : List Text, (∃ line, Row line tokens) ↔ ∀ token ∈ tokens, '"' ∉ token := by
  refine ⟨?_, ?_, ?_⟩
  · intro front behind closed
    exact tokenize_append_space closed behind
  · intro line tokens
    exact row_iff
  · intro tokens
    refine ⟨?_, Row.exists_line⟩
    rintro ⟨line, hrow⟩
    exact hrow.not_mem

/-- Quotes around a part of a word, two runs that touch, a token that is empty, and spaces in plenty. -/
theorem tokenize_written_touching :
    let front : Text := "  tc  psu_\"label\""
    let behind : Text := " \"hello \"\"wor\"ld \"\" "
    let tokens : List Text := ["tc", "psu_label", "hello world", ""]
    front.count '"' % 2 = 0 ∧ tokenize (front ++ ' ' :: behind) = tokens ∧ Row (front ++ ' ' :: behind) tokens := by
  intro front behind tokens
  obtain ⟨happend, hrow, -⟩ := tokenize_written
  have closed : front.count '"' % 2 = 0 := by decide
  have hread : tokenize (front ++ ' ' :: behind) = tokens := by
    rw [happend front behind closed]
    decide
  exact ⟨closed, hread, (hrow _ _).mpr ⟨by decide, hread⟩⟩

end Wire

end GroundStation
