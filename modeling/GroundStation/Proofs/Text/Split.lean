/-
# Leftmost splits

A list is cut at a separator of several elements where occurrences may overlap, as in `aaa` cut at `aa`.
`Leftmost` says which cuts are meant, without reading the list in any order: every segment with its
separator behind it contains the separator nowhere else, and the tail does not contain it at all.

`Split.segments` reads the list once and finds this split (`leftmost_segments`), and `Split.cut?` finds its first
cut (`cut?_eq_some`).
-/
import GroundStation.Text.Split

namespace GroundStation

namespace Split

variable {α : Type}

/-- A list is cut into segments, each with the separator behind it, and a tail.  The separator occurs in a
segment and itself only at the end, and does not occur in the tail. -/
inductive Leftmost (sep : List α) : List α → List (List α) → List α → Prop
  | tail {xs : List α} : ¬sep <:+: xs → Leftmost sep xs [] xs
  | segment {segment rest tail : List α} {segments : List (List α)} :
      ¬sep <:+: (segment ++ sep).dropLast → Leftmost sep rest segments tail →
      Leftmost sep (segment ++ sep ++ rest) (segment :: segments) tail

variable [DecidableEq α]

/-- What has been read since the last separator and does not contain one belongs to the first segment, or
to the tail. -/
theorem leftmost_segmentsFrom {pes : List α} (some : pes ≠ []) (xs : List α) :
    ∀ {held : List α}, ¬pes <:+: held →
      Leftmost pes.reverse (held.reverse ++ xs) (segmentsFrom pes held xs).1 (segmentsFrom pes held xs).2 := by
  induction xs with
  | nil =>
    intro held hheld
    rw [List.append_nil]
    exact .tail fun h => hheld (List.reverse_infix.mp h)
  | cons x xs ih =>
    intro held hheld
    rw [segmentsFrom]
    split
    · next hclosed =>
      -- `x` completes the separator, which ends here for the first time
      obtain ⟨rest, hrest⟩ := List.isPrefixOf_iff_prefix.mp hclosed
      have hsegment : ((x :: held).drop pes.length).reverse = rest.reverse := by
        rw [← hrest, List.drop_left]
      have hread : held.reverse ++ x :: xs = rest.reverse ++ pes.reverse ++ xs := by
        rw [← List.reverse_append, hrest, List.reverse_cons, List.append_assoc, List.singleton_append]
      have hfirst : (rest.reverse ++ pes.reverse).dropLast = held.reverse := by
        rw [← List.reverse_append, hrest, List.reverse_cons, List.dropLast_concat]
      rw [hread, hsegment]
      refine .segment ?_ ?_
      · rw [hfirst]
        exact fun h => hheld (List.reverse_infix.mp h)
      · exact ih fun h => some (List.infix_nil.mp h)
    · next hopen =>
      have hread : held.reverse ++ x :: xs = (x :: held).reverse ++ xs := by
        rw [List.reverse_cons, List.append_assoc, List.singleton_append]
      rw [hread]
      refine ih fun h => ?_
      rcases List.infix_cons_iff.mp h with hprefix | hinfix
      · exact hopen (List.isPrefixOf_iff_prefix.mpr hprefix)
      · exact hheld hinfix

theorem leftmost_segments {sep : List α} (some : sep ≠ []) (xs : List α) :
    Leftmost sep xs (segments sep xs).1 (segments sep xs).2 := by
  have some' : sep.reverse ≠ [] := fun h => some (List.reverse_eq_nil_iff.mp h)
  have h := leftmost_segmentsFrom some' xs fun h => some' (List.infix_nil.mp h)
  rwa [List.reverse_reverse] at h

omit [DecidableEq α] in
/-- No segment contains the separator. -/
theorem Leftmost.separator_free {sep : List α} {xs tail : List α} {segments : List (List α)}
    (h : Leftmost sep xs segments tail) : ∀ segment ∈ segments, ¬sep <:+: segment := by
  induction h with
  | tail => exact fun _ hmem => nomatch hmem
  | @segment segment rest tail segments hfirst _ ih =>
    refine List.forall_mem_cons.mpr ⟨fun hin => ?_, ih⟩
    cases hsep : sep with
    | nil =>
      rw [hsep] at hfirst
      exact hfirst List.nil_infix
    | cons c front =>
      rw [List.dropLast_append_of_ne_nil (hsep ▸ List.cons_ne_nil c front)] at hfirst
      exact hfirst (hin.trans (List.prefix_append _ _).isInfix)

omit [DecidableEq α] in
/-- Every segment stands in the list with the separator behind it. -/
theorem Leftmost.closed {sep : List α} {xs tail : List α} {segments : List (List α)}
    (h : Leftmost sep xs segments tail) : ∀ segment ∈ segments, segment ++ sep <:+: xs := by
  induction h with
  | tail => exact fun _ hmem => nomatch hmem
  | @segment segment rest tail segments _ _ ih =>
    refine List.forall_mem_cons.mpr ⟨(List.prefix_append _ _).isInfix, fun later hmem => ?_⟩
    exact (ih later hmem).trans (List.suffix_append _ _).isInfix

omit [DecidableEq α] in
/-- The segments with the separator behind each, and then the tail, are the list. -/
theorem Leftmost.flatMap_append {sep : List α} {xs tail : List α} {segments : List (List α)}
    (h : Leftmost sep xs segments tail) : (segments.flatMap fun segment => segment ++ sep) ++ tail = xs := by
  induction h with
  | tail => rfl
  | segment _ _ ih => simp only [List.flatMap_cons, List.append_assoc, ← ih]

omit [DecidableEq α] in
theorem Leftmost.tail_free {sep : List α} {xs tail : List α} {segments : List (List α)}
    (h : Leftmost sep xs segments tail) : ¬sep <:+: tail := by
  induction h with
  | tail free => exact free
  | segment _ _ ih => exact ih

omit [DecidableEq α] in
/-- A list that goes on is split as far as it was, and what was its tail is split with what follows. -/
theorem Leftmost.append {sep : List α} {xs ys tail tail' : List α} {segments more : List (List α)}
    (h : Leftmost sep xs segments tail) (h' : Leftmost sep (tail ++ ys) more tail') :
    Leftmost sep (xs ++ ys) (segments ++ more) tail' := by
  induction h with
  | tail => exact h'
  | @segment segment rest _ _ first _ ih =>
    have hread : segment ++ sep ++ rest ++ ys = segment ++ sep ++ (rest ++ ys) := List.append_assoc ..
    rw [hread]
    exact .segment first (ih h')

/-! ## The first cut -/

/-- What a cut yields is the list, and the separator ends there for the first time. -/
theorem cut?_eq_some {sep : List α} (filled : sep ≠ []) :
    ∀ {xs before after : List α}, cut? sep xs = some (before, after) →
      xs = before ++ sep ++ after ∧ ¬sep <:+: (before ++ sep).dropLast
  | [], before, after, h => by
      rw [cut?, if_neg fun hempty => filled (List.isEmpty_iff.mp hempty)] at h
      cases h
  | x :: xs, before, after, h => by
      rw [cut?] at h
      split at h
      · next hprefix =>
        obtain ⟨rest, hrest⟩ := List.isPrefixOf_iff_prefix.mp hprefix
        rw [← hrest, List.drop_left] at h
        cases h
        refine ⟨hrest.symm, fun hin => ?_⟩
        have hlength := hin.length_le
        have hpos := List.length_pos_iff.mpr filled
        rw [List.nil_append, List.length_dropLast] at hlength
        omega
      · next hprefix =>
        obtain ⟨⟨front, behind⟩, hcut, heq⟩ := Option.map_eq_some_iff.mp h
        cases heq
        obtain ⟨hread, hfirst⟩ := cut?_eq_some filled hcut
        refine ⟨by rw [hread]; rfl, fun hin => ?_⟩
        have hne : front ++ sep ≠ [] := List.append_ne_nil_of_right_ne_nil front filled
        rw [List.cons_append, List.dropLast_cons_of_ne_nil hne] at hin
        rcases List.infix_cons_iff.mp hin with hbegin | hlater
        · refine hprefix (List.isPrefixOf_iff_prefix.mpr (hbegin.trans ?_))
          rw [hread]
          exact List.cons_prefix_cons.mpr ⟨rfl, (List.dropLast_prefix _).trans (List.prefix_append _ _)⟩
        · exact hfirst hlater

/-- A list that contains the separator is cut. -/
theorem exists_cut? {sep : List α} :
    ∀ {xs : List α}, sep <:+: xs → ∃ before after, cut? sep xs = some (before, after)
  | [], h => by
      rw [cut?, List.infix_nil.mp h]
      exact ⟨[], [], rfl⟩
  | x :: xs, h => by
      rw [cut?]
      by_cases hprefix : sep.isPrefixOf (x :: xs) = true
      · exact ⟨[], _, if_pos hprefix⟩
      · rw [if_neg hprefix]
        rcases List.infix_cons_iff.mp h with hbegin | hlater
        · exact absurd (List.isPrefixOf_iff_prefix.mpr hbegin) hprefix
        · obtain ⟨before, after, hcut⟩ := exists_cut? hlater
          rw [hcut]
          exact ⟨x :: before, after, rfl⟩

omit [DecidableEq α] in
/-- What is behind the separator is shorter than it, if the separator first ends within one that was put at
the end. -/
theorem length_lt_of_cut {sep xs before after : List α} (free : ¬sep <:+: xs)
    (h : xs ++ sep = before ++ sep ++ after) : after.length < sep.length := by
  rw [← Nat.not_le]
  intro hle
  have hlength := congrArg List.length h
  rw [List.length_append, List.length_append] at hlength
  have hprefix : before ++ sep <+: xs :=
    List.prefix_of_prefix_length_le ⟨after, h.symm⟩ (List.prefix_append xs sep) (by omega)
  exact free ((List.suffix_append before sep).isInfix.trans hprefix.isInfix)

omit [DecidableEq α] in
/-- A list holds a separator before its end if and only if something stands behind it. -/
theorem infix_dropLast_iff {sep xs : List α} (filled : sep ≠ []) :
    sep <:+: xs.dropLast ↔ ∃ before after, after ≠ [] ∧ xs = before ++ sep ++ after := by
  constructor
  · rintro ⟨front, behind, hfound⟩
    have hne : xs ≠ [] := by
      rintro rfl
      exact filled (List.append_eq_nil_iff.mp (List.append_eq_nil_iff.mp hfound).1).2
    refine ⟨front, behind ++ [xs.getLast hne], List.append_ne_nil_of_right_ne_nil _ (List.cons_ne_nil _ _), ?_⟩
    rw [← List.append_assoc, hfound, List.dropLast_concat_getLast]
  · rintro ⟨before, after, hne, rfl⟩
    exact ⟨before, after.dropLast, (List.dropLast_append_of_ne_nil hne).symm⟩

/-- A separator that was put at the end and first ends there cuts off all that stands before it. -/
theorem cut?_append_self {sep xs : List α} (filled : sep ≠ []) (ends : ¬sep <:+: (xs ++ sep).dropLast) :
    cut? sep (xs ++ sep) = some (xs, []) := by
  obtain ⟨before, after, hcut⟩ := exists_cut? (List.suffix_append xs sep).isInfix
  obtain ⟨hread, -⟩ := cut?_eq_some filled hcut
  cases after with
  | nil =>
    rw [List.append_nil] at hread
    rw [hcut, List.append_cancel_right hread]
  | cons c after => exact absurd ((infix_dropLast_iff filled).mpr ⟨before, _, List.cons_ne_nil c after, hread⟩) ends

/-! ## Cuts at one element -/

theorem splitOn_of_not_mem {sep : α} : ∀ {xs : List α}, sep ∉ xs → splitOn sep xs = [xs]
  | [], _ => rfl
  | x :: xs, h => by
      rw [splitOn, if_neg (List.ne_of_not_mem_cons h).symm, splitOn_of_not_mem (List.not_mem_of_not_mem_cons h)]

theorem cutOnce?_append {sep : α} (ys : List α) :
    ∀ {xs : List α}, sep ∉ xs → cutOnce? sep (xs ++ sep :: ys) = some (xs, ys)
  | [], _ => by rw [List.nil_append, cutOnce?, if_pos rfl]
  | x :: xs, h => by
      rw [List.cons_append, cutOnce?, if_neg (List.ne_of_not_mem_cons h).symm,
        cutOnce?_append ys (List.not_mem_of_not_mem_cons h)]
      rfl

theorem cutOnce?_of_not_mem {sep : α} : ∀ {xs : List α}, sep ∉ xs → cutOnce? sep xs = none
  | [], _ => rfl
  | x :: xs, h => by
      rw [cutOnce?, if_neg (List.ne_of_not_mem_cons h).symm, cutOnce?_of_not_mem (List.not_mem_of_not_mem_cons h)]
      rfl

/-- The first cut is at the first occurrence. -/
theorem cutOnce?_eq_some_iff {sep : α} {xs a b : List α} :
    cutOnce? sep xs = some (a, b) ↔ xs = a ++ sep :: b ∧ sep ∉ a := by
  refine ⟨cutOnce?_eq_some, ?_⟩
  rintro ⟨rfl, h⟩
  exact cutOnce?_append b h

theorem cutOnce?_eq_none_iff {sep : α} {xs : List α} : cutOnce? sep xs = none ↔ sep ∉ xs := by
  refine ⟨fun h hmem => ?_, cutOnce?_of_not_mem⟩
  obtain ⟨a, b, rfl, ha⟩ := List.eq_append_cons_of_mem hmem
  rw [cutOnce?_append b ha] at h
  cases h

/-! ## Lists that are put together -/

/-- What is read without completing a separator is held. -/
theorem segmentsFrom_hold {pes : List α} (xs : List α) {held : List α} (rest : List α)
    (open_ : ¬pes <:+: xs.reverse ++ held) :
    segmentsFrom pes held (xs ++ rest) = segmentsFrom pes (xs.reverse ++ held) rest := by
  induction xs generalizing held with
  | nil => rfl
  | cons x xs ih =>
    rw [List.reverse_cons, List.append_assoc, List.singleton_append] at open_ ⊢
    have hopen : ¬pes.isPrefixOf (x :: held) = true := fun h =>
      open_ ((List.isPrefixOf_iff_prefix.mp h).isInfix.trans (List.suffix_append _ _).isInfix)
    rw [List.cons_append, segmentsFrom, if_neg hopen]
    exact ih open_

/-- A segment whose end is the first separator is the first segment. -/
theorem segments_append {sep segment : List α} (some : sep ≠ []) (first : ¬sep <:+: (segment ++ sep).dropLast)
    (rest : List α) :
    segments sep (segment ++ sep ++ rest) = (segment :: (segments sep rest).1, (segments sep rest).2) := by
  obtain ⟨front, last, rfl⟩ : ∃ front last, sep = front ++ [last] :=
    ⟨sep.dropLast, sep.getLast some, (List.dropLast_concat_getLast some).symm⟩
  rw [← List.append_assoc, List.dropLast_concat] at first
  have hheld : ¬(front ++ [last]).reverse <:+: (segment ++ front).reverse ++ [] := by
    rwa [List.append_nil, List.reverse_infix]
  have hclosed : (front ++ [last]).reverse.isPrefixOf (last :: ((segment ++ front).reverse ++ [])) = true := by
    refine List.isPrefixOf_iff_prefix.mpr ⟨segment.reverse, ?_⟩
    simp
  have hsegment : ((last :: ((segment ++ front).reverse ++ [])).drop (front ++ [last]).reverse.length).reverse =
      segment := by
    simp
  have hread : segment ++ (front ++ [last]) ++ rest = (segment ++ front) ++ last :: rest := by simp
  rw [segments, hread, segmentsFrom_hold _ _ hheld, segmentsFrom, if_pos hclosed, hsegment]
  rfl

/-- A list without the separator is all tail. -/
theorem segments_of_free {sep xs : List α} (free : ¬sep <:+: xs) : segments sep xs = ([], xs) := by
  have hopen : ¬sep.reverse <:+: xs.reverse ++ [] := by
    rwa [List.append_nil, List.reverse_infix]
  have h := segmentsFrom_hold xs [] hopen
  rw [List.append_nil, List.append_nil] at h
  rw [segments, h, segmentsFrom, List.reverse_reverse]

/-- A list that is cut once is one segment and a tail. -/
theorem segments_of_cut {sep segment rest : List α} (filled : sep ≠ [])
    (first : ¬sep <:+: (segment ++ sep).dropLast) (short : rest.length < sep.length) :
    segments sep (segment ++ sep ++ rest) = ([segment], rest) := by
  have free : ¬sep <:+: rest := fun h => Nat.not_le_of_lt short h.length_le
  rw [segments_append filled first, segments_of_free free]

/-- A list has one leftmost split, and that is how it is read. -/
theorem leftmost_iff {sep : List α} (filled : sep ≠ []) {xs tail : List α} {segs : List (List α)} :
    Leftmost sep xs segs tail ↔ segments sep xs = (segs, tail) := by
  constructor
  · intro h
    induction h with
    | tail free => exact segments_of_free free
    | segment first _ ih => rw [segments_append filled first, ih]
  · intro h
    have found := leftmost_segments filled xs
    rwa [h] at found

/-- Reading goes on where it has stopped: what was the tail is held. -/
theorem segmentsFrom_append (pes ys : List α) :
    ∀ {xs held : List α}, segmentsFrom pes held (xs ++ ys) =
      ((segmentsFrom pes held xs).1 ++ (segmentsFrom pes (segmentsFrom pes held xs).2.reverse ys).1,
        (segmentsFrom pes (segmentsFrom pes held xs).2.reverse ys).2) := by
  intro xs
  induction xs with
  | nil => simp [segmentsFrom]
  | cons x xs ih =>
    intro held
    rw [List.cons_append, segmentsFrom, segmentsFrom]
    split
    · rw [ih, List.cons_append]
    · exact ih

/-- Behind segments that leave no tail a list is split by itself. -/
theorem segments_append_of_whole {sep xs : List α} (whole : (segments sep xs).2 = []) (ys : List α) :
    segments sep (xs ++ ys) = ((segments sep xs).1 ++ (segments sep ys).1, (segments sep ys).2) := by
  rw [segments] at whole
  rw [segments, segmentsFrom_append, whole]
  rfl

omit [DecidableEq α] in
/-- What spans a foreign element stands before it or behind it. -/
theorem infix_of_infix_append_cons {sep xs ys : List α} {c : α} (foreign : c ∉ sep)
    (h : sep <:+: xs ++ c :: ys) : sep <:+: xs ∨ sep <:+: ys := by
  obtain ⟨s, t, h⟩ := h
  rcases List.append_eq_append_iff.mp h with ⟨a, rfl, -⟩ | ⟨a, hsep, hrest⟩
  · exact .inl ⟨s, a, rfl⟩
  · rcases a with _ | ⟨b, a⟩
    · rw [List.append_nil] at hsep
      exact .inl ⟨s, [], by rw [List.append_nil, hsep]⟩
    · obtain ⟨rfl, rfl⟩ := List.cons.inj hrest
      rcases List.append_eq_append_iff.mp hsep with ⟨d, -, rfl⟩ | ⟨d, -, hd⟩
      · exact absurd (List.mem_append_right d List.mem_cons_self) foreign
      · rcases d with _ | ⟨_, d⟩
        · rw [List.nil_append] at hd
          rw [← hd] at foreign
          exact absurd List.mem_cons_self foreign
        · obtain ⟨-, rfl⟩ := List.cons.inj hd
          exact .inr ⟨d, t, rfl⟩

end Split

end GroundStation
