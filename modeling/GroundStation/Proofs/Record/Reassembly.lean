/-
# Records are the segments of the stream

However a stream is cut into pieces, the records that an accumulator gives out are the segments of the
whole stream between its terminators, those that fit with their terminator into the capacity; and what is
held in the end is the tail of the stream, or the end of a tail that is too long (`pushAll_eq_segments`).

The state depends on the bytes since the last terminator alone.  `Following terminator read a` says how:
`a` holds all of them as long as they fit, and beyond that discards and holds at least as many of the
latest as a terminator may begin with.  So `a` sees a terminator end where the stream has one, and nowhere
else, though it does not know how the record began.
-/
import GroundStation.Proofs.Text.Split
import GroundStation.Record.Accumulator

namespace GroundStation

namespace Record

namespace Accumulator

/-! ## Pieces of a stream -/

/-- Takes the pieces of a stream one after another. -/
def pushAll (a : Accumulator) : List Bytes → List Text × Accumulator
  | [] => ([], a)
  | piece :: rest =>
    let (records, a) := a.push piece
    let (more, a) := pushAll a rest
    (records ++ more, a)

theorem terminator_step (pes : Bytes) (a : Accumulator) (b : UInt8) :
    (step pes a b).2.terminator = a.terminator := by
  have hhold : ∀ a : Accumulator, (a.hold pes b).2.terminator = a.terminator := by
    intro a
    unfold hold
    dsimp only
    split <;> rfl
  unfold step
  split
  · exact hhold a
  · split
    · exact hhold a.giveUp
    · rfl

theorem pushFrom_cons (pes : Bytes) (a : Accumulator) (b : UInt8) (bytes : Bytes) :
    pushFrom pes a (b :: bytes) = ((step pes a b).1.toList ++ (pushFrom pes (step pes a b).2 bytes).1,
      (pushFrom pes (step pes a b).2 bytes).2) := rfl

theorem terminator_pushFrom (pes : Bytes) :
    ∀ (bytes : Bytes) (a : Accumulator), (pushFrom pes a bytes).2.terminator = a.terminator
  | [], _ => rfl
  | b :: bytes, a => (terminator_pushFrom pes bytes _).trans (terminator_step pes a b)

theorem pushFrom_append (pes : Bytes) :
    ∀ (bytes more : Bytes) (a : Accumulator), pushFrom pes a (bytes ++ more) =
      ((pushFrom pes a bytes).1 ++ (pushFrom pes (pushFrom pes a bytes).2 more).1,
        (pushFrom pes (pushFrom pes a bytes).2 more).2)
  | [], _, _ => rfl
  | b :: bytes, more, a => by
      rw [List.cons_append, pushFrom_cons, pushFrom_cons, pushFrom_append pes bytes more,
        List.append_assoc]

theorem pushAll_eq_push (pieces : List Bytes) :
    ∀ a : Accumulator, a.pushAll pieces = a.push pieces.flatten := by
  induction pieces with
  | nil => exact fun _ => rfl
  | cons piece rest ih =>
    intro a
    have hcons : a.pushAll (piece :: rest) =
        ((a.push piece).1 ++ ((a.push piece).2.pushAll rest).1, ((a.push piece).2.pushAll rest).2) := rfl
    rw [hcons, ih, List.flatten_cons, push, push, push, terminator_pushFrom, pushFrom_append]

/-! ## One byte -/

/-- The state of an accumulator that has read these bytes since the last terminator, latest first. -/
structure Following (terminator read : Bytes) (a : Accumulator) : Prop where
  same : a.terminator = terminator
  /-- Nothing but the latest bytes is held. -/
  latest : a.held <+: read
  room : a.held.length ≤ capacity
  /-- A terminator that begins before what is held would have ended there. -/
  enough : a.held = read ∨ terminator.length ≤ a.held.length + 1
  whole : read.length ≤ capacity → a.held = read
  discarding : a.discarding = decide (capacity < read.length)

/-- The same when one more byte is about to be held, for which there is room. -/
structure Ready (terminator read : Bytes) (a : Accumulator) : Prop where
  same : a.terminator = terminator
  latest : a.held <+: read
  room : a.held.length < capacity
  enough : a.held = read ∨ terminator.length ≤ a.held.length + 1
  whole : read.length < capacity → a.held = read
  discarding : a.discarding = decide (capacity ≤ read.length)

/-- The record that is complete when these bytes, latest first, end with a terminator. -/
def completed (terminator read : Bytes) : Option Text :=
  if read.length ≤ capacity then textOf? (read.drop terminator.length).reverse else none

theorem following_start (terminator : Bytes) : Following terminator [] (start terminator) where
  same := rfl
  latest := List.prefix_rfl
  room := Nat.zero_le _
  enough := .inl rfl
  whole _ := rfl
  discarding := rfl

variable {terminator read : Bytes} {a : Accumulator}

theorem Following.ready (following : Following terminator read a) (room : a.held.length < capacity) :
    Ready terminator read a where
  same := following.same
  latest := following.latest
  room := room
  enough := following.enough
  whole h := following.whole (Nat.le_of_lt h)
  discarding := by
    rw [following.discarding, decide_eq_decide]
    refine ⟨Nat.le_of_lt, fun hle => Nat.lt_of_le_of_ne hle fun heq => ?_⟩
    -- all bytes would be held, and fill the capacity
    rw [following.whole (Nat.le_of_eq heq.symm)] at room
    omega

theorem Following.ready_giveUp (following : Following terminator read a) (fits : terminator.length ≤ capacity)
    (full : ¬a.held.length < capacity) : Ready terminator read a.giveUp := by
  have hlong : capacity ≤ read.length := Nat.le_trans (Nat.le_of_not_lt full) following.latest.length_le
  have hlength : a.giveUp.held.length = terminator.length - 1 := by
    rw [giveUp, following.same, List.length_take]
    omega
  constructor
  case same => exact following.same
  case latest => exact (List.take_prefix _ _).trans following.latest
  case room =>
    have hpos : 0 < capacity := by decide
    rw [hlength]
    omega
  case enough =>
    rw [hlength]
    omega
  case whole => exact fun h => absurd hlong (Nat.not_le_of_lt h)
  case discarding => exact (decide_eq_true hlong).symm

/-- Where the terminator ends is seen in what is held. -/
theorem Ready.prefix_iff (ready : Ready terminator read a) (b : UInt8) :
    terminator.reverse <+: b :: a.held ↔ terminator.reverse <+: b :: read := by
  have hlatest : b :: a.held <+: b :: read := List.cons_prefix_cons.mpr ⟨rfl, ready.latest⟩
  constructor
  · exact fun h => h.trans hlatest
  · intro h
    rcases ready.enough with heq | hle
    · rwa [heq]
    · refine List.prefix_of_prefix_length_le h hlatest ?_
      rwa [List.length_reverse, List.length_cons]

/-- A byte that completes the terminator completes the record, if all of it has been held. -/
theorem Ready.hold_closed (ready : Ready terminator read a) (some : terminator ≠ []) {b : UInt8}
    (closed : terminator.reverse <+: b :: read) :
    a.hold terminator.reverse b = (completed terminator (b :: read), start terminator) := by
  have hpes : terminator.reverse.isEmpty = false := by
    rw [List.isEmpty_reverse]
    exact List.isEmpty_eq_false_iff.mpr some
  rw [hold, hpes, List.isPrefixOf_iff_prefix.mpr ((ready.prefix_iff b).mpr closed), clear, ready.same,
    ready.discarding, completed, start]
  simp only [Bool.not_false, Bool.true_and, if_true, decide_eq_true_eq, List.length_cons,
    List.length_reverse, Prod.mk.injEq, and_true]
  by_cases hlong : capacity ≤ read.length
  · rw [if_pos hlong, if_neg (by omega)]
  · rw [if_neg hlong, if_pos (by omega), ready.whole (Nat.lt_of_not_le hlong)]

theorem Ready.hold_open (ready : Ready terminator read a) {b : UInt8}
    (opened : ¬terminator.reverse <+: b :: read) :
    (a.hold terminator.reverse b).1 = none ∧
      Following terminator (b :: read) (a.hold terminator.reverse b).2 := by
  have hopen : terminator.reverse.isPrefixOf (b :: a.held) = false := by
    rw [Bool.eq_false_iff, Ne, List.isPrefixOf_iff_prefix, ready.prefix_iff]
    exact opened
  rw [hold, hopen, Bool.and_false, if_neg Bool.false_ne_true]
  refine ⟨rfl, ?_⟩
  constructor
  case same => exact ready.same
  case latest => exact List.cons_prefix_cons.mpr ⟨rfl, ready.latest⟩
  case room => exact ready.room
  case enough =>
    rcases ready.enough with heq | hle
    · exact .inl (congrArg (b :: ·) heq)
    · exact .inr (Nat.le_succ_of_le hle)
  case whole => exact fun h => congrArg (b :: ·) (ready.whole h)
  case discarding =>
    rw [ready.discarding, decide_eq_decide, List.length_cons, Nat.lt_succ_iff]

/-- A byte is held by an accumulator that has room for it: by `a`, or by what is left of `a` where it
gives up. -/
theorem Following.step_ready (following : Following terminator read a) (fits : terminator.length ≤ capacity)
    (b : UInt8) : ∃ a', Ready terminator read a' ∧
      step terminator.reverse a b = a'.hold terminator.reverse b := by
  rw [step]
  split
  · next room => exact ⟨a, following.ready (of_decide_eq_true room), rfl⟩
  · next full =>
    have ready := following.ready_giveUp fits fun h => full (decide_eq_true h)
    have room : a.giveUp.hasRoom = true := decide_eq_true ready.room
    exact ⟨a.giveUp, ready, if_pos room⟩

/-- A byte that ends a terminator completes a record, and the state is the one at the start. -/
theorem Following.step_closed (following : Following terminator read a) (some : terminator ≠ [])
    (fits : terminator.length ≤ capacity) {b : UInt8} (closed : terminator.reverse <+: b :: read) :
    step terminator.reverse a b = (completed terminator (b :: read), start terminator) := by
  obtain ⟨a', ready, hstep⟩ := following.step_ready fits b
  rw [hstep, ready.hold_closed some closed]

theorem Following.step_open (following : Following terminator read a) (fits : terminator.length ≤ capacity)
    {b : UInt8} (opened : ¬terminator.reverse <+: b :: read) :
    (step terminator.reverse a b).1 = none ∧
      Following terminator (b :: read) (step terminator.reverse a b).2 := by
  obtain ⟨a', ready, hstep⟩ := following.step_ready fits b
  rw [hstep]
  exact ready.hold_open opened

/-! ## The whole stream -/

/-- The records among segments: those that fit with their terminator, as text, without blank ones. -/
def recordsOf (terminator : Bytes) (segments : List Bytes) : List Text :=
  ((segments.filter fun s => s.length + terminator.length ≤ capacity).map fun s =>
    Text.trim (Utf8.decode s)).filter fun t => !t.isEmpty

theorem recordsOf_cons (terminator segment : Bytes) (segments : List Bytes) :
    recordsOf terminator (segment :: segments) =
      (if segment.length + terminator.length ≤ capacity then textOf? segment else none).toList ++
        recordsOf terminator segments := by
  rw [recordsOf, List.filter_cons]
  by_cases hfits : segment.length + terminator.length ≤ capacity
  · rw [if_pos (decide_eq_true hfits), if_pos hfits, List.map_cons, List.filter_cons, textOf?, recordsOf]
    cases (Text.trim (Utf8.decode segment)).isEmpty <;> rfl
  · rw [if_neg (by simpa using hfits), if_neg hfits, recordsOf]
    rfl

/-- The record that is complete is the one of the segment that the terminator closes. -/
theorem completed_eq (closed : terminator.reverse <+: read) :
    completed terminator read =
      if (read.drop terminator.length).reverse.length + terminator.length ≤ capacity then
        textOf? (read.drop terminator.length).reverse
      else none := by
  have hle : terminator.length ≤ read.length := List.length_reverse ▸ closed.length_le
  rw [List.length_reverse, List.length_drop, Nat.sub_add_cancel hle, completed]

/-- What is given out for the rest of a stream are the records among its segments, and the accumulator
follows its tail. -/
theorem Following.pushFrom (some : terminator ≠ []) (fits : terminator.length ≤ capacity) (bytes : Bytes) :
    ∀ {read : Bytes} {a : Accumulator}, Following terminator read a →
      (pushFrom terminator.reverse a bytes).1 =
        recordsOf terminator (Split.segmentsFrom terminator.reverse read bytes).1 ∧
      Following terminator (Split.segmentsFrom terminator.reverse read bytes).2.reverse
        (pushFrom terminator.reverse a bytes).2 := by
  induction bytes with
  | nil =>
    intro read a following
    refine ⟨rfl, ?_⟩
    rw [Split.segmentsFrom, List.reverse_reverse]
    exact following
  | cons b bytes ih =>
    intro read a following
    rw [pushFrom_cons, Split.segmentsFrom]
    split
    · next hclosed =>
      have closed := List.isPrefixOf_iff_prefix.mp hclosed
      have hlength : terminator.reverse.length = terminator.length := List.length_reverse
      obtain ⟨hrecords, hfollowing⟩ := ih (following_start terminator)
      rw [following.step_closed some fits closed, completed_eq closed, hrecords, hlength]
      refine ⟨?_, hfollowing⟩
      rw [recordsOf_cons]
    · next hopen =>
      obtain ⟨hnone, hread⟩ := following.step_open fits fun h => hopen (List.isPrefixOf_iff_prefix.mpr h)
      rw [hnone]
      exact ih hread

/-- For every terminator that fits into the capacity, every stream and every way of cutting it into pieces:
the records given out are the segments of the leftmost split of the stream that fit with their terminator,
as text, in order; an accumulator discards where the tail is longer than the capacity, and holds the tail
where it does not. -/
theorem pushAll_eq_segments {terminator : Bytes} (some : 1 ≤ terminator.length)
    (fits : terminator.length ≤ capacity) (pieces : List Bytes) :
    ∃ segments tail, Split.segments terminator pieces.flatten = (segments, tail) ∧
      Split.Leftmost terminator pieces.flatten segments tail ∧
      ((start terminator).pushAll pieces).1 =
        ((segments.filter fun s => s.length + terminator.length ≤ capacity).map fun s =>
          Text.trim (Utf8.decode s)).filter (fun t => !t.isEmpty) ∧
      (((start terminator).pushAll pieces).2.discarding = true ↔ capacity < tail.length) ∧
      (((start terminator).pushAll pieces).2.discarding = false →
        ((start terminator).pushAll pieces).2.pending = tail) := by
  have some' : terminator ≠ [] := List.length_pos_iff.mp some
  obtain ⟨hrecords, following⟩ := (following_start terminator).pushFrom some' fits pieces.flatten
  have hpush : (start terminator).pushAll pieces =
      pushFrom terminator.reverse (start terminator) pieces.flatten :=
    pushAll_eq_push pieces (start terminator)
  rw [hpush]
  refine ⟨_, _, rfl, Split.leftmost_segments some' pieces.flatten, hrecords, ?_, ?_⟩
  · rw [following.discarding, decide_eq_true_iff, List.length_reverse]
  · intro h
    rw [following.discarding, decide_eq_false_iff_not, Nat.not_lt] at h
    rw [pending, following.whole h, List.reverse_reverse]

/-- A record that is one byte too long, with a terminator that is cut in two, and a record behind it. -/
def overlongStream : List Bytes :=
  [List.replicate (capacity - 1) 0x61 ++ [0x0D], [0x0A, 0x6F, 0x6B, 0x0D, 0x0A]]

theorem pushAll_eq_segments_overlong :
    1 ≤ ([0x0D, 0x0A] : Bytes).length ∧ ([0x0D, 0x0A] : Bytes).length ≤ capacity ∧
      ∃ segments tail, Split.segments [0x0D, 0x0A] overlongStream.flatten = (segments, tail) ∧
        Split.Leftmost [0x0D, 0x0A] overlongStream.flatten segments tail ∧
        ((start [0x0D, 0x0A]).pushAll overlongStream).1 =
          ((segments.filter fun s => s.length + ([0x0D, 0x0A] : Bytes).length ≤ capacity).map fun s =>
            Text.trim (Utf8.decode s)).filter (fun t => !t.isEmpty) ∧
        (((start [0x0D, 0x0A]).pushAll overlongStream).2.discarding = true ↔ capacity < tail.length) ∧
        (((start [0x0D, 0x0A]).pushAll overlongStream).2.discarding = false →
          ((start [0x0D, 0x0A]).pushAll overlongStream).2.pending = tail) := by
  have some : 1 ≤ ([0x0D, 0x0A] : Bytes).length := by decide
  have fits : ([0x0D, 0x0A] : Bytes).length ≤ capacity := by decide
  exact ⟨some, fits, pushAll_eq_segments some fits overlongStream⟩

end Accumulator

end Record

end GroundStation
