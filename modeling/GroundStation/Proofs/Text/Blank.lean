/-
# Words, and texts without blanks at their ends

Ids and keywords are words: they are not empty and hold no blank.  A text that begins and ends with
something else than a blank is `Tight`; it is as trimming leaves it, and so is a row of tight texts with
spaces between them.  What trimming leaves of a text is empty or tight and stands in it with nothing but
blanks around (`trim_eq_iff`).
-/
import Mathlib.Data.List.TakeWhile
import GroundStation.Text.Blank

namespace GroundStation

namespace Text

/-- A text that is not empty and holds no blank. -/
structure IsWord (t : Text) : Prop where
  ne_nil : t ≠ []
  solid : ∀ c ∈ t, isBlank c = false

instance (t : Text) : Decidable (IsWord t) :=
  decidable_of_iff (t.isEmpty = false ∧ (t.all fun c => !isBlank c) = true)
    ⟨fun ⟨hne, hsolid⟩ => ⟨List.isEmpty_eq_false_iff.mp hne, fun c hc => by
        simpa using List.all_eq_true.mp hsolid c hc⟩,
      fun word => ⟨List.isEmpty_eq_false_iff.mpr word.ne_nil, List.all_eq_true.mpr fun c hc => by
        simpa using word.solid c hc⟩⟩

/-- A text that neither begins nor ends with a blank, and is not empty. -/
structure Tight (t : Text) : Prop where
  begins : ∃ c rest, t = c :: rest ∧ isBlank c = false
  ends : ∃ front c, t = front ++ [c] ∧ isBlank c = false

theorem Tight.isEmpty {t : Text} (tight : Tight t) : t.isEmpty = false := by
  obtain ⟨c, rest, rfl, -⟩ := tight.begins
  rfl

/-- The first text of a row, its separator and the rest. -/
theorem join_cons_cons (c : Char) (t u : Text) (ts : List Text) :
    join [c] (t :: u :: ts) = t ++ c :: join [c] (u :: ts) := by
  rw [join, List.append_assoc, List.singleton_append]
  exact fun h => nomatch h

/-! ## Trimming -/

/-- What stands before a character that is no blank is not trimmed away at the end. -/
theorem trimEnd_append_cons {c : Char} (h : isBlank c = false) (s t : Text) :
    trimEnd (s ++ c :: t) = s ++ c :: trimEnd t := by
  have hstop : ¬isBlank c = true := by
    rw [h]
    exact Bool.false_ne_true
  rw [trimEnd, trimEnd, List.reverse_append, List.reverse_cons, List.append_assoc, List.dropWhile_append]
  cases hblank : (t.reverse.dropWhile isBlank).isEmpty with
  | true =>
    rw [if_pos rfl, List.singleton_append, List.dropWhile_cons_of_neg hstop, List.isEmpty_iff.mp hblank]
    simp
  | false =>
    rw [if_neg Bool.false_ne_true]
    simp

theorem trimEnd_isPrefix (t : Text) : trimEnd t <+: t := by
  have hsuffix := List.reverse_prefix.mpr (List.dropWhile_suffix isBlank (l := t.reverse))
  rwa [List.reverse_reverse] at hsuffix

/-- A text with any number of blanks on either side. -/
def Padded (s t : Text) : Prop :=
  ∃ before behind : Text, (∀ c ∈ before, isBlank c = true) ∧ (∀ c ∈ behind, isBlank c = true) ∧
    t = before ++ s ++ behind

theorem Padded.refl (t : Text) : Padded t t :=
  ⟨[], [], List.forall_mem_nil _, List.forall_mem_nil _, by rw [List.nil_append, List.append_nil]⟩

/-- Blanks on either side bring no other character. -/
theorem Padded.countP_eq {s t : Text} (h : Padded s t) {q : Char → Bool}
    (solid : ∀ c, isBlank c = true → q c = false) : t.countP q = s.countP q := by
  obtain ⟨before, behind, hbefore, hbehind, rfl⟩ := h
  have hnone : ∀ blanks : Text, (∀ c ∈ blanks, isBlank c = true) → blanks.countP q = 0 := by
    intro blanks hblanks
    refine List.countP_eq_zero.mpr fun c hc => ?_
    rw [solid c (hblanks c hc)]
    exact Bool.false_ne_true
  simp only [List.countP_append, hnone before hbefore, hnone behind hbehind, Nat.zero_add, Nat.add_zero]

theorem Padded.mem_iff {s t : Text} (h : Padded s t) {c : Char} (solid : isBlank c = false) : c ∈ t ↔ c ∈ s := by
  obtain ⟨before, behind, hbefore, hbehind, rfl⟩ := h
  have hnot : ∀ blanks : Text, (∀ d ∈ blanks, isBlank d = true) → c ∉ blanks :=
    fun blanks hblanks hc => Bool.false_ne_true (solid.symm.trans (hblanks c hc))
  simp only [List.mem_append, hnot before hbefore, hnot behind hbehind, false_or, or_false]

/-- Trimming takes off what is around a text that begins and ends with something else than a blank. -/
theorem Padded.trim_eq {s t : Text} (h : Padded s t) (tight : s = [] ∨ Tight s) : trim t = s := by
  obtain ⟨before, behind, hbefore, hbehind, rfl⟩ := h
  have hend : trimEnd behind = [] := by
    have hall : ∀ c ∈ behind.reverse, isBlank c = true := fun c hc => hbehind c (List.mem_reverse.mp hc)
    rw [trimEnd, List.dropWhile_eq_nil_iff.mpr hall, List.reverse_nil]
  have hstart : trimStart (before ++ s ++ behind) = trimStart (s ++ behind) := by
    rw [List.append_assoc, trimStart, List.dropWhile_append_of_pos hbefore, trimStart]
  rw [trim, hstart]
  rcases tight with rfl | ⟨⟨first, rest, hfirst, hbegins⟩, front, last, hlast, hends⟩
  · have hall : trimStart ([] ++ behind) = [] := List.dropWhile_eq_nil_iff.mpr hbehind
    rw [hall, trimEnd_nil]
  · have hkept : trimStart (s ++ behind) = s ++ behind := by
      rw [hfirst, List.cons_append, trimStart,
        List.dropWhile_cons_of_neg (by rw [hbegins]; exact Bool.false_ne_true)]
    rw [hkept, hlast, List.append_assoc, List.singleton_append, trimEnd_append_cons hends, hend]

theorem trim_of_tight {t : Text} (tight : Tight t) : trim t = t := (Padded.refl t).trim_eq (.inr tight)

/-- Trimming takes away nothing but blanks. -/
theorem padded_trim (t : Text) : Padded (trim t) t := by
  refine ⟨t.takeWhile isBlank, ((trimStart t).reverse.takeWhile isBlank).reverse, ?_, ?_, ?_⟩
  · exact List.all_eq_true.mp List.all_takeWhile
  · intro c hc
    exact List.all_eq_true.mp List.all_takeWhile c (List.mem_reverse.mp hc)
  · rw [List.append_assoc, trim, trimEnd, ← List.reverse_append, List.takeWhile_append_dropWhile,
      List.reverse_reverse, trimStart, List.takeWhile_append_dropWhile]

theorem trim_isInfix (t : Text) : trim t <:+: t := by
  obtain ⟨before, behind, -, -, h⟩ := padded_trim t
  exact ⟨before, behind, h.symm⟩

theorem countP_trim {q : Char → Bool} (solid : ∀ c, isBlank c = true → q c = false) (t : Text) :
    (trim t).countP q = t.countP q :=
  ((padded_trim t).countP_eq solid).symm

theorem mem_trim_iff {c : Char} (solid : isBlank c = false) {t : Text} : c ∈ trim t ↔ c ∈ t :=
  ((padded_trim t).mem_iff solid).symm

theorem dropWhile_isBlank (t : Text) :
    t.dropWhile isBlank = [] ∨ ∃ c rest, t.dropWhile isBlank = c :: rest ∧ isBlank c = false := by
  have hhead := List.head?_dropWhile_not isBlank t
  cases hdrop : t.dropWhile isBlank with
  | nil => exact .inl rfl
  | cons c rest =>
    rw [hdrop] at hhead
    exact .inr ⟨c, rest, rfl, hhead⟩

/-- What trimming leaves is empty, or begins and ends with something else than a blank. -/
theorem trim_eq_nil_or_tight (t : Text) : trim t = [] ∨ Tight (trim t) := by
  rcases dropWhile_isBlank t with hstart | ⟨c, rest, hstart, hc⟩
  · rw [trim, trimStart, hstart]
    exact .inl rfl
  · have hbegins : trim t = c :: trimEnd rest := by
      rw [trim, trimStart, hstart]
      exact trimEnd_append_cons hc [] rest
    rcases dropWhile_isBlank (trimStart t).reverse with hend | ⟨d, front, hend, hd⟩
    · rw [trim, trimEnd, hend]
      exact .inl rfl
    · have hends : trim t = front.reverse ++ [d] := by
        rw [trim, trimEnd, hend, List.reverse_cons]
      exact .inr ⟨⟨c, trimEnd rest, hbegins, hc⟩, front.reverse, d, hends, hd⟩

/-- What trimming leaves, and what it takes away. -/
theorem trim_eq_iff {s t : Text} : trim t = s ↔ (s = [] ∨ Tight s) ∧ Padded s t := by
  constructor
  · rintro rfl
    exact ⟨trim_eq_nil_or_tight t, padded_trim t⟩
  · rintro ⟨tight, h⟩
    exact h.trim_eq tight

/-- Nothing is left to trim. -/
theorem trim_trim (t : Text) : trim (trim t) = trim t := by
  rcases trim_eq_nil_or_tight t with h | h
  · rw [h, trim_nil]
  · exact trim_of_tight h

theorem IsWord.not_mem {t : Text} (word : IsWord t) {c : Char} (hc : isBlank c = true) : c ∉ t :=
  fun h => Bool.false_ne_true ((word.solid c h).symm.trans hc)

/-- Nothing is trimmed away in front of the end of a word. -/
theorem IsWord.trimEnd_append {t : Text} (word : IsWord t) (s rest : Text) :
    trimEnd (s ++ t ++ rest) = s ++ t ++ trimEnd rest := by
  have hsolid := word.solid _ (List.getLast_mem word.ne_nil)
  rw [← List.dropLast_concat_getLast word.ne_nil, ← List.append_assoc s, List.append_assoc _ _ rest,
    List.singleton_append, trimEnd_append_cons hsolid, List.append_cons]

theorem IsWord.tight {t : Text} (word : IsWord t) : Tight t where
  begins := by
    obtain ⟨c, rest, rfl⟩ := List.exists_cons_of_ne_nil word.ne_nil
    exact ⟨c, rest, rfl, word.solid c List.mem_cons_self⟩
  ends :=
    ⟨t.dropLast, t.getLast word.ne_nil, (List.dropLast_concat_getLast word.ne_nil).symm,
      word.solid _ (List.getLast_mem word.ne_nil)⟩

/-- Where there is no blank, nothing is trimmed away. -/
theorem trim_of_solid {t : Text} (solid : ∀ c ∈ t, isBlank c = false) : trim t = t := by
  by_cases h : t = []
  · subst h
    rfl
  · have word : IsWord t := ⟨h, solid⟩
    exact trim_of_tight word.tight

theorem Tight.append {s t : Text} (hs : Tight s) (ht : Tight t) (middle : Text) :
    Tight (s ++ middle ++ t) where
  begins := by
    obtain ⟨c, rest, rfl, hc⟩ := hs.begins
    exact ⟨c, rest ++ middle ++ t, by simp, hc⟩
  ends := by
    obtain ⟨front, c, rfl, hc⟩ := ht.ends
    exact ⟨s ++ middle ++ front, c, by simp, hc⟩

/-- Tight texts with a separator between them are tight together. -/
theorem tight_join {sep : Text} :
    ∀ {ts : List Text}, ts ≠ [] → (∀ t ∈ ts, Tight t) → Tight (join sep ts)
  | [], h, _ => absurd rfl h
  | [t], _, h => h t List.mem_cons_self
  | t :: u :: ts, _, h => by
      obtain ⟨ht, hrest⟩ := List.forall_mem_cons.mp h
      exact ht.append (tight_join (List.cons_ne_nil u ts) hrest) sep

/-! ## Words of a text -/

theorem wordsFrom_append {t : Text} (solid : ∀ c ∈ t, isBlank c = false) (rest : Text) :
    wordsFrom (t ++ rest) = (t ++ (wordsFrom rest).1, (wordsFrom rest).2) := by
  induction t with
  | nil => rfl
  | cons c t ih =>
    obtain ⟨hc, hrest⟩ := List.forall_mem_cons.mp solid
    rw [List.cons_append, wordsFrom, ih hrest]
    simp [hc]

/-- A word and the words behind the blank that follows it. -/
theorem words_append_cons {t : Text} (word : IsWord t) {c : Char} (hc : isBlank c = true) (rest : Text) :
    words (t ++ c :: rest) = t :: words rest := by
  have hblank : wordsFrom (c :: rest) = ([], words rest) := by
    rw [wordsFrom, words]
    simp [hc]
  have hne : t.isEmpty = false := List.isEmpty_eq_false_iff.mpr word.ne_nil
  rw [words, wordsFrom_append word.solid, hblank]
  simp [hne]

theorem words_of_isWord {t : Text} (word : IsWord t) : words t = [t] := by
  have hne : t.isEmpty = false := List.isEmpty_eq_false_iff.mpr word.ne_nil
  have h := wordsFrom_append word.solid []
  rw [List.append_nil] at h
  rw [words, h]
  simp [wordsFrom, hne]

/-- A text of words, with blanks in front of each and behind the last.  There may be any number of them, but
no two words touch. -/
inductive Spaced : Text → List Text → Prop
  | blank {blanks : Text} : (∀ c ∈ blanks, isBlank c = true) → Spaced blanks []
  | word {blanks w rest : Text} {ws : List Text} : (∀ c ∈ blanks, isBlank c = true) → IsWord w →
      (∀ c more, rest = c :: more → isBlank c = true) → Spaced rest ws → Spaced (blanks ++ w ++ rest) (w :: ws)

theorem words_cons_blank {c : Char} (hc : isBlank c = true) (t : Text) : words (c :: t) = words t := by
  have hblank : wordsFrom (c :: t) = ([], words t) := by
    rw [wordsFrom, words]
    simp [hc]
  rw [words, hblank]
  rfl

theorem words_append_blanks {blanks : Text} (h : ∀ c ∈ blanks, isBlank c = true) (t : Text) :
    words (blanks ++ t) = words t := by
  induction blanks with
  | nil => rfl
  | cons c blanks ih =>
    obtain ⟨hc, hrest⟩ := List.forall_mem_cons.mp h
    rw [List.cons_append, words_cons_blank hc, ih hrest]

theorem Spaced.words_eq {t : Text} {ws : List Text} (h : Spaced t ws) : words t = ws := by
  induction h with
  | @blank blanks hblanks =>
    have hnone := words_append_blanks hblanks []
    rwa [List.append_nil] at hnone
  | @word blanks w rest ws hblanks hw behind _ ih =>
    rw [List.append_assoc, words_append_blanks hblanks]
    cases rest with
    | nil => rw [List.append_nil, words_of_isWord hw, ← ih, words_nil]
    | cons c more =>
      have hc := behind c more rfl
      rw [words_append_cons hw hc, ← ih, words_cons_blank hc]

/-- Blanks, what a text begins with up to a blank, and words behind it. -/
theorem Spaced.front {blanks w rest : Text} {ws : List Text} (hblanks : ∀ c ∈ blanks, isBlank c = true)
    (solid : ∀ c ∈ w, isBlank c = false) (behind : ∀ c more, rest = c :: more → isBlank c = true)
    (h : Spaced rest ws) : Spaced (blanks ++ w ++ rest) (if w.isEmpty then ws else w :: ws) := by
  cases w with
  | cons d w => exact .word hblanks ⟨List.cons_ne_nil d w, solid⟩ behind h
  | nil =>
    rw [List.append_nil]
    cases h with
    | blank hrest => exact .blank (List.forall_mem_append.mpr ⟨hblanks, hrest⟩)
    | @word blanks' _ _ _ hblanks' hw hbehind hrest =>
      rw [← List.append_assoc, ← List.append_assoc]
      exact .word (List.forall_mem_append.mpr ⟨hblanks, hblanks'⟩) hw hbehind hrest

/-- What is read of a text: the characters that it begins with up to a blank, and words behind them. -/
theorem exists_wordsFrom (t : Text) : ∃ rest, t = (wordsFrom t).1 ++ rest ∧
    (∀ c ∈ (wordsFrom t).1, isBlank c = false) ∧ (∀ c more, rest = c :: more → isBlank c = true) ∧
    Spaced rest (wordsFrom t).2 := by
  induction t with
  | nil =>
    refine ⟨[], rfl, List.forall_mem_nil _, ?_, .blank (List.forall_mem_nil _)⟩
    intro c more h
    cases h
  | cons c t ih =>
    obtain ⟨rest, ht, hsolid, hbehind, hrest⟩ := ih
    by_cases hc : isBlank c = true
    · refine ⟨c :: t, by simp [wordsFrom, hc], by simp [wordsFrom, hc], ?_, ?_⟩
      · intro d more h
        cases h
        exact hc
      · have hfront := Spaced.front (List.forall_mem_singleton.mpr hc) hsolid hbehind hrest
        rw [List.append_assoc, ← ht] at hfront
        simpa [wordsFrom, hc] using hfront
    · refine ⟨rest, ?_, ?_, hbehind, ?_⟩
      · simpa [wordsFrom, hc] using ht
      · simpa [wordsFrom, hc] using hsolid
      · simpa [wordsFrom, hc] using hrest

/-- The words of a text are the ones that stand in it with blanks around them. -/
theorem words_eq_iff {t : Text} {ws : List Text} : words t = ws ↔ Spaced t ws := by
  refine ⟨?_, Spaced.words_eq⟩
  rintro rfl
  obtain ⟨rest, ht, hsolid, hbehind, hrest⟩ := exists_wordsFrom t
  have hfront := Spaced.front (List.forall_mem_nil _) hsolid hbehind hrest
  rw [List.nil_append, ← ht] at hfront
  exact hfront

end Text

end GroundStation
