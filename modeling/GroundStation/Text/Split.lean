/-
# Cutting lists at separators

Three cuts, over lists of any kind since they serve characters and bytes alike:

* `splitOn` — at every occurrence of one element;
* `cutOnce?` — at the first occurrence of one element;
* `cut?` and `segments` — at a separator of several elements, leftmost occurrence first.

`segments` reads the list once from left to right and closes a segment as soon as what it holds ends
with the separator, which is the leftmost split into occurrences that do not overlap.
-/

namespace GroundStation

namespace Split

variable {α : Type} [DecidableEq α]

/-- The fields between the occurrences of `sep`: one more than there are occurrences. -/
def splitOn (sep : α) : List α → List (List α)
  | [] => [[]]
  | x :: xs =>
    if x = sep then [] :: splitOn sep xs
    else
      match splitOn sep xs with
      | [] => [[x]]
      | field :: fields => (x :: field) :: fields

/-- What stands before and after the first `sep`. -/
def cutOnce? (sep : α) : List α → Option (List α × List α)
  | [] => none
  | x :: xs => if x = sep then some ([], xs) else (cutOnce? sep xs).map fun (a, b) => (x :: a, b)

/-- What stands before and after the leftmost occurrence of the list `sep`. -/
def cut? (sep : List α) : List α → Option (List α × List α)
  | [] => if sep.isEmpty then some ([], []) else none
  | x :: xs =>
    if sep.isPrefixOf (x :: xs) then some ([], (x :: xs).drop sep.length)
    else (cut? sep xs).map fun (a, b) => (x :: a, b)

/-- Segments of `xs` where `held` has been read since the last separator.  Both `held` and the
separator `pes` are given latest element first. -/
def segmentsFrom (pes held : List α) : List α → List (List α) × List α
  | [] => ([], held.reverse)
  | x :: xs =>
    if pes.isPrefixOf (x :: held) then
      let (done, tail) := segmentsFrom pes [] xs
      (((x :: held).drop pes.length).reverse :: done, tail)
    else segmentsFrom pes (x :: held) xs

/-- The segments that `sep` closes, leftmost occurrences first, and the unfinished tail. -/
def segments (sep xs : List α) : List (List α) × List α := segmentsFrom sep.reverse [] xs

/-! ## Small lemmas -/

theorem splitOn_ne_nil (sep : α) (xs : List α) : splitOn sep xs ≠ [] := by
  cases xs with
  | nil => simp [splitOn]
  | cons x xs =>
    rw [splitOn]
    split
    · simp
    · split <;> simp

/-- Splitting distributes over a separator. -/
theorem splitOn_append_sep (sep : α) (xs ys : List α) :
    splitOn sep (xs ++ sep :: ys) = splitOn sep xs ++ splitOn sep ys := by
  induction xs with
  | nil => simp [splitOn]
  | cons x xs ih =>
    by_cases h : x = sep
    · simp [splitOn, h, ih]
    · rw [List.cons_append, splitOn, splitOn, if_neg h, if_neg h, ih]
      cases hs : splitOn sep xs with
      | nil => exact absurd hs (splitOn_ne_nil sep xs)
      | cons field fields => simp

theorem cutOnce?_eq_some {sep : α} {xs a b : List α} (h : cutOnce? sep xs = some (a, b)) :
    xs = a ++ sep :: b ∧ sep ∉ a := by
  induction xs generalizing a with
  | nil => simp [cutOnce?] at h
  | cons x xs ih =>
    rw [cutOnce?] at h
    split at h
    · next hx => simp_all
    · next hx =>
      obtain ⟨⟨a', b'⟩, hcut, heq⟩ := Option.map_eq_some_iff.mp h
      simp only [Prod.mk.injEq] at heq
      obtain ⟨rfl, rfl⟩ := heq
      obtain ⟨hxs, hmem⟩ := ih hcut
      exact ⟨by simp [hxs], by simp [Ne.symm hx, hmem]⟩

end Split

end GroundStation
