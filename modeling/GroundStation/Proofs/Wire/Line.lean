/-
# Lines and what they are made of

A token is a connected part of its line once the quotes are taken out of it (`infix_unquoted`).  It need not be a
connected part of the line itself: this is how two characters that were apart on the wire can become neighbours
in a token.

A line holds its end nowhere but at the end, so the first line of a text is parsed by itself (`parseText_append`).
-/
import GroundStation.Proofs.Text.Split
import GroundStation.Proofs.Wire.Token
import GroundStation.Wire.Line

namespace GroundStation

namespace Wire

/-! ## Taking the quotes out -/

/-- A text without its double quotes. -/
def unquoted (t : Text) : Text := t.filter (· ≠ '"')

/-- Where the first token begins a text and the others are parts of it, all of them are. -/
theorem infix_of_mem_tokens {t : Text} {first : Option Text} {rest : List Text} (hfirst : first.getD [] <+: t)
    (hrest : ∀ token ∈ rest, token <:+: t) : ∀ token ∈ first.toList ++ rest, token <:+: t := by
  intro token h
  rcases List.mem_append.mp h with h | h
  · rw [Option.mem_toList.mp h, Option.getD_some] at hfirst
    exact hfirst.isInfix
  · exact hrest token h

/-- The token that a text begins with is where the text without quotes begins, and every token behind it is
a part of that text. -/
theorem unquoted_tokensFrom (quoted : Bool) (t : Text) :
    (tokensFrom quoted t).1.getD [] <+: unquoted t ∧
      ∀ token ∈ (tokensFrom quoted t).2, token <:+: unquoted t := by
  induction quoted, t using scan_induction with
  | nil quoted => exact ⟨List.nil_prefix, fun _ h => nomatch h⟩
  | quote quoted t ih =>
    have hunquoted : unquoted ('"' :: t) = unquoted t := rfl
    rw [hunquoted, tokensFrom_quote]
    exact ih
  | held quoted c t hquote hspace ih =>
    have hunquoted : unquoted (c :: t) = c :: unquoted t := by simp [unquoted, hquote]
    obtain ⟨hfirst, hrest⟩ := ih
    rw [hunquoted, tokensFrom_cons hquote hspace]
    exact ⟨(List.prefix_cons_inj c).mpr hfirst, fun token h => List.infix_cons (hrest token h)⟩
  | space t ih =>
    have hunquoted : unquoted (' ' :: t) = ' ' :: unquoted t := rfl
    obtain ⟨hfirst, hrest⟩ := ih
    rw [hunquoted, tokensFrom_space]
    exact ⟨List.nil_prefix, fun token h => List.infix_cons (infix_of_mem_tokens hfirst hrest token h)⟩

/-- A token is a part of the line without its quotes. -/
theorem infix_unquoted {line token : Text} (h : token ∈ tokenize line) : token <:+: unquoted line := by
  obtain ⟨hfirst, hrest⟩ := unquoted_tokensFrom false line
  exact infix_of_mem_tokens hfirst hrest token h

/-! ## Lines -/

/-- A text that ends with `CR LF` and holds it nowhere else. -/
def IsLine (t : Text) : Prop := ∃ body, t = body ++ crlf ∧ ¬crlf <:+: body

theorem crlf_ne_nil : crlf ≠ [] := List.cons_ne_nil _ _

theorem not_crlf_infix_of_not_mem {t : Text} (h : '\r' ∉ t) : ¬crlf <:+: t :=
  fun hin => h (hin.subset List.mem_cons_self)

theorem isLine_append_crlf {body : Text} : IsLine (body ++ crlf) ↔ ¬crlf <:+: body := by
  constructor
  · rintro ⟨body', heq, hbody⟩
    rwa [List.append_cancel_right heq]
  · exact fun h => ⟨body, rfl, h⟩

/-- What ends a line cannot begin in front of it. -/
theorem crlf_infix_dropLast {body : Text} (h : ¬crlf <:+: body) : ¬crlf <:+: (body ++ crlf).dropLast := by
  have hfront : (body ++ crlf).dropLast = body ++ ['\r'] := by
    have hsplit : crlf = ['\r'] ++ ['\n'] := rfl
    rw [hsplit, ← List.append_assoc, List.dropLast_concat]
  rw [hfront]
  intro hin
  rcases List.infix_concat_iff.mp hin with hsuffix | hinfix
  · -- the last of `CR LF` is `LF`, so it does not end with `CR`
    rcases List.suffix_concat_iff.mp hsuffix with hnil | ⟨front, heq, -⟩
    · exact crlf_ne_nil hnil
    · have hends : ['\r'] ++ ['\n'] = front ++ ['\r'] := heq
      exact absurd (List.append_inj_right' hends rfl) (by decide)
  · exact h hinfix

/-- The first line of a text is parsed by itself. -/
theorem parseText_append {body : Text} (h : ¬crlf <:+: body) (rest : Text) :
    parseText (body ++ crlf ++ rest) = (parseLine? body).toList ++ parseText rest := by
  rw [parseText, Split.segments_append crlf_ne_nil (crlf_infix_dropLast h), List.filterMap_cons]
  cases parseLine? body with
  | none => rfl
  | some _ => rfl

end Wire

end GroundStation
