/-
# Buffers are read line by line

The station reads a buffer by itself, so it matters where the operator's stream is cut into buffers.  At a
line end it does not: a buffer that ends with `CR LF` and whatever comes behind it are read apart from each
other, and what holds no `CR LF` is not read at all (`parseBuffer_flatten`).

Two things are done to a buffer, and both have to go apart there.  Reading UTF-8 does so at every byte of
ASCII, since no such byte continues a character; bytes of one that were cut short before it are replaced as
they would be at the end of the buffer.  Splitting does so wherever nothing is held, and behind `CR LF`
nothing is: the two characters differ, so the `LF` closes a line whatever stood before the `CR`, another `CR`
for instance.
-/
import GroundStation.Proofs.Text.Pieces
import GroundStation.Proofs.Wire.Line

namespace GroundStation

namespace Wire

/-- `CR LF` as it comes in. -/
def lineEnd : Bytes := [0x0D, 0x0A]

/-! ## One cut -/

/-- A text that ends with `CR LF` has no unfinished line. -/
theorem segments_append_crlf (t : Text) : (Split.segments crlf (t ++ crlf)).2 = [] := by
  rw [Split.segments, Split.segmentsFrom_append]
  generalize (Split.segmentsFrom crlf.reverse [] t).2.reverse = held
  -- `CR` closes nothing and is held, and `LF` closes the line
  simp [crlf, Split.segmentsFrom]

theorem parseText_append_of_ends (t u : Text) :
    parseText (t ++ crlf ++ u) = parseText (t ++ crlf) ++ parseText u := by
  rw [parseText, Split.segments_append_of_whole (segments_append_crlf t), List.filterMap_append]
  rfl

theorem parseText_of_free {t : Text} (free : ¬crlf <:+: t) : parseText t = [] := by
  rw [parseText, Split.segments_of_free free, List.filterMap_nil]

/-- Bytes are read apart from each other in front of `CR LF`, in it and behind it. -/
theorem decode_append_lineEnd (front behind : Bytes) :
    Utf8.decode (front ++ lineEnd ++ behind) = Utf8.decode front ++ crlf ++ Utf8.decode behind := by
  have hnext : Utf8.decode (0x0A :: behind) = '\n' :: Utf8.decode behind :=
    Utf8.decode_append_cons (b := 0x0A) (by decide) [] behind
  rw [lineEnd, List.append_assoc, List.cons_append, Utf8.decode_append_cons (by decide), List.singleton_append,
    hnext, List.append_assoc]
  rfl

theorem parseBuffer_append {buffer : Bytes} (ends : lineEnd <:+ buffer) (behind : Bytes) :
    parseBuffer (buffer ++ behind) = parseBuffer buffer ++ parseBuffer behind := by
  obtain ⟨front, rfl⟩ := ends
  have hread := decode_append_lineEnd front []
  rw [List.append_nil, Utf8.decode_nil, List.append_nil] at hread
  rw [parseBuffer, parseBuffer, parseBuffer, decode_append_lineEnd, hread, parseText_append_of_ends]

theorem parseBuffer_of_free {buffer : Bytes} (free : ¬lineEnd <:+: buffer) : parseBuffer buffer = [] := by
  refine parseText_of_free fun h => free ?_
  have ascii : ∀ c ∈ crlf, c.toNat < 0x80 := by
    simp only [crlf, List.forall_mem_cons]
    exact ⟨by decide, by decide, List.forall_mem_nil _⟩
  have hbytes : Utf8.encode crlf <:+: buffer := Utf8.encode_infix_of_infix_decode ascii h
  exact hbytes

/-! ## A stream -/

/-- Buffers that end with `CR LF` are read one by one where they come together, and what is behind them is
read by itself. -/
theorem parseBuffer_flatten_append {buffers : List Bytes} (ends : ∀ buffer ∈ buffers, lineEnd <:+ buffer)
    (behind : Bytes) :
    parseBuffer (buffers.flatten ++ behind) = buffers.flatMap parseBuffer ++ parseBuffer behind := by
  induction buffers with
  | nil => rfl
  | cons buffer buffers ih =>
    obtain ⟨hfirst, hrest⟩ := List.forall_mem_cons.mp ends
    rw [List.flatten_cons, List.append_assoc, parseBuffer_append hfirst, ih hrest, List.flatMap_cons,
      List.append_assoc]

/-- A buffer that ends with `CR LF` is read apart from what is behind it, and a buffer without `CR LF` yields
nothing.  So a stream yields the same, in the same order, however it is cut at line ends. -/
theorem parseBuffer_flatten :
    (∀ buffer behind : Bytes, lineEnd <:+ buffer →
      parseBuffer (buffer ++ behind) = parseBuffer buffer ++ parseBuffer behind) ∧
    (∀ buffer : Bytes, ¬lineEnd <:+: buffer → parseBuffer buffer = []) ∧
    ∀ (buffers : List Bytes) (behind : Bytes), (∀ buffer ∈ buffers, lineEnd <:+ buffer) →
      parseBuffer (buffers.flatten ++ behind) = buffers.flatMap parseBuffer ++ parseBuffer behind := by
  refine ⟨?_, ?_, ?_⟩
  · intro buffer behind ends
    exact parseBuffer_append ends behind
  · intro buffer free
    exact parseBuffer_of_free free
  · intro buffers behind ends
    exact parseBuffer_flatten_append ends behind

/-- A line whose id ends within a character of three bytes, with two carriage returns behind it. -/
def cutShort : Bytes := [0x74, 0x6D, 0x20, 0x61, 0xE2, 0x82, 0x0D, 0x0D, 0x0A]

/-- A line feed, and a line. -/
def nextLine : Bytes := [0x0A, 0x68, 0x65, 0x6C, 0x6F, 0x20, 0x62, 0x0D, 0x0A]

/-- A line that has got as far as its carriage return. -/
def unfinished : Bytes := [0x74, 0x6D, 0x20, 0x63, 0x0D]

/-- The character that was cut short is replaced, both lines are read, and the third is not. -/
theorem parseBuffer_flatten_cutShort :
    lineEnd <:+ cutShort ∧ lineEnd <:+ nextLine ∧ ¬lineEnd <:+: unfinished ∧
      parseBuffer (cutShort ++ nextLine) = parseBuffer cutShort ++ parseBuffer nextLine ∧
      parseBuffer unfinished = [] ∧
      parseBuffer ([cutShort, nextLine].flatten ++ unfinished) =
        [.request ⟨none, ['a', Utf8.replacement], .get, []⟩, .request ⟨none, ['b'], .helo, []⟩] := by
  obtain ⟨happend, hfree, hflatten⟩ := parseBuffer_flatten
  have ends : lineEnd <:+ cutShort := by decide
  have ends' : lineEnd <:+ nextLine := by decide
  have free : ¬lineEnd <:+: unfinished := by decide
  refine ⟨ends, ends', free, happend _ _ ends, hfree _ free, ?_⟩
  have both : ∀ buffer ∈ [cutShort, nextLine], lineEnd <:+ buffer := by simp [ends, ends']
  rw [hflatten _ _ both]
  decide +kernel

end Wire

end GroundStation
