/-
# Lines of a buffered stream

A link takes lines off a buffer, and the buffer holds what has come so far.  A read may end anywhere, also
within a termination, and a termination of several bytes may overlap itself, as `aa` does in `aaa`.  Every
search begins at the front of the buffer again and knows nothing of the searches before it.

Nevertheless the lines are those of the stream: however it is cut, taking lines behind each piece until there is
none yields the leftmost split of the whole (`takeEach_splits`).  What makes it so is that no line is left
when a piece comes.  A buffer without the termination is the tail of a split, and a split goes on where its
tail does (`Split.Leftmost.append`).
-/
import GroundStation.Link.Framing
import GroundStation.Proofs.Text.Split

namespace GroundStation

namespace LineBuffer

/-! ## One line -/

theorem take?_of_ne_nil {termination : Bytes} (filled : termination ≠ []) (buffer : Bytes) :
    take? termination buffer = Split.cut? termination buffer :=
  if_neg fun hempty => filled (List.isEmpty_iff.mp hempty)

/-- A line that is taken leaves the buffer with its termination. -/
theorem take?_eq_some {termination buffer line rest : Bytes}
    (h : take? termination buffer = some (line, rest)) : buffer = line ++ termination ++ rest := by
  unfold take? at h
  split at h
  · next hnone =>
    rw [List.isEmpty_iff.mp hnone]
    split at h
    · cases h
    · cases h
      simp
  · next hsome => exact (Split.cut?_eq_some (fun hnil => hsome (List.isEmpty_iff.mpr hnil)) h).1

/-- Nothing is taken without making the buffer shorter, also where nothing terminates lines. -/
theorem length_lt_of_take? {termination buffer line rest : Bytes}
    (h : take? termination buffer = some (line, rest)) : rest.length < buffer.length := by
  unfold take? at h
  split at h
  · split at h
    · cases h
    · next hsome =>
      cases h
      have hne : buffer ≠ [] := fun hnil => hsome (List.isEmpty_iff.mpr hnil)
      exact List.length_pos_iff.mpr hne
  · next hsome =>
    have filled : termination ≠ [] := fun hnil => hsome (List.isEmpty_iff.mpr hnil)
    have hpos : 0 < termination.length := List.length_pos_iff.mpr filled
    obtain ⟨rfl, -⟩ := Split.cut?_eq_some filled h
    simp only [List.length_append]
    omega

/-! ## Lines until there is none -/

/-- Takes lines off a buffer until there is none: the lines, and what is left. -/
def takeAll (termination buffer : Bytes) : List Bytes × Bytes :=
  match _h : take? termination buffer with
  | none => ([], buffer)
  | some (line, rest) =>
    let (lines, pending) := takeAll termination rest
    (line :: lines, pending)
termination_by buffer.length
decreasing_by exact length_lt_of_take? _h

/-- Takes lines behind each piece of a stream that comes into a buffer. -/
def takeEach (termination buffer : Bytes) : List Bytes → List Bytes × Bytes
  | [] => ([], buffer)
  | piece :: pieces =>
    let (lines, pending) := takeAll termination (buffer ++ piece)
    let (more, pending) := takeEach termination pending pieces
    (lines ++ more, pending)

variable {termination : Bytes}

/-- The lines that are taken off a buffer are those of its leftmost split. -/
theorem leftmost_takeAll (filled : termination ≠ []) (buffer : Bytes) :
    Split.Leftmost termination buffer (takeAll termination buffer).1 (takeAll termination buffer).2 := by
  fun_induction takeAll termination buffer with
  | case1 buffer hnone =>
    refine .tail fun found => ?_
    obtain ⟨before, after, hcut⟩ := Split.exists_cut? found
    rw [take?_of_ne_nil filled, hcut] at hnone
    cases hnone
  | case2 buffer line rest hsome lines pending heq ih =>
    rw [take?_of_ne_nil filled] at hsome
    obtain ⟨rfl, first⟩ := Split.cut?_eq_some filled hsome
    rw [heq] at ih
    exact .segment first ih

/-- What is in the buffer when a piece comes is the tail of what has come before. -/
theorem leftmost_takeEach (filled : termination ≠ []) (pieces : List Bytes) :
    ∀ {buffer : Bytes}, ¬termination <:+: buffer →
      Split.Leftmost termination (buffer ++ pieces.flatten) (takeEach termination buffer pieces).1
        (takeEach termination buffer pieces).2 := by
  induction pieces with
  | nil =>
    intro buffer free
    rw [List.flatten_nil, List.append_nil]
    exact .tail free
  | cons piece pieces ih =>
    intro buffer _
    have taken := leftmost_takeAll filled (buffer ++ piece)
    have later := ih taken.tail_free
    rw [List.flatten_cons, ← List.append_assoc]
    exact taken.append later

/-- For every termination that is not empty, every stream and every way of cutting it into pieces: the lines
that are taken behind the pieces, and what is buffered in the end, are the one leftmost split of the stream.
No line holds the termination, and the lines with the termination behind each, and then what is buffered, are
the stream. -/
theorem takeEach_splits (filled : termination ≠ []) (pieces : List Bytes) :
    ∃ lines pending, takeEach termination [] pieces = (lines, pending) ∧
      Split.segments termination pieces.flatten = (lines, pending) ∧
      (∀ segments tail, Split.Leftmost termination pieces.flatten segments tail ↔
        segments = lines ∧ tail = pending) ∧
      (∀ line ∈ lines, ¬termination <:+: line) ∧
      (lines.flatMap fun line => line ++ termination) ++ pending = pieces.flatten := by
  have free : ¬termination <:+: [] := fun h => filled (List.infix_nil.mp h)
  have split := leftmost_takeEach filled pieces free
  rw [List.nil_append] at split
  have hread := (Split.leftmost_iff filled).mp split
  refine ⟨_, _, rfl, hread, ?_, split.separator_free, split.flatMap_append⟩
  intro segments tail
  rw [Split.leftmost_iff filled, hread, Prod.mk.injEq]
  constructor
  · rintro ⟨hlines, hpending⟩
    exact ⟨hlines.symm, hpending.symm⟩
  · rintro ⟨rfl, rfl⟩
    exact ⟨rfl, rfl⟩

/-- The stream `1aaa2aa3` in pieces that cut both terminations `aa`; of the three letters in a row the first two
are one. -/
def overlappingPieces : List Bytes := [[0x31, 0x61], [0x61, 0x61, 0x32, 0x61], [0x61, 0x33]]

theorem takeEach_splits_overlapping :
    ([0x61, 0x61] : Bytes) ≠ [] ∧
      takeEach [0x61, 0x61] [] overlappingPieces = ([[0x31], [0x61, 0x32]], [0x33]) ∧
      ∀ segments tail, Split.Leftmost [0x61, 0x61] overlappingPieces.flatten segments tail ↔
        segments = [[0x31], [0x61, 0x32]] ∧ tail = [0x33] := by
  have filled : ([0x61, 0x61] : Bytes) ≠ [] := List.cons_ne_nil _ _
  obtain ⟨lines, pending, hrun, hread, hsplit, -, -⟩ := takeEach_splits filled overlappingPieces
  have hlines : Split.segments [0x61, 0x61] overlappingPieces.flatten = ([[0x31], [0x61, 0x32]], [0x33]) := rfl
  cases hlines.symm.trans hread
  exact ⟨filled, hrun, hsplit⟩

end LineBuffer

end GroundStation
