/-
# Frames in fragments

A stream of frames arrives in fragments that begin and end anywhere.  The receiver buffers each fragment
and takes all frames that are then complete.  How the stream was cut does not show in the outcome:
fragment after fragment the same frames are taken, and the same bytes stay buffered, as if all had
arrived at once (`takeFragments_eq`).  That rests on one property of a frame at the front of a buffer,
that more bytes behind it do not change it.

So what a sender has framed comes out as it was sent, the beginning of a further frame stays buffered,
and a reader who waits for each frame gets the same packets (`takeFragments_frames`).
-/
import GroundStation.Proofs.Rmap.Stream

namespace GroundStation

namespace Rmap

/-- The packets that were taken and what is still buffered, or an impossible length. -/
abbrev Received := Except Nat (List Bytes × Bytes)

/-- What was received, with packets that came before. -/
def Received.behind (packets : List Bytes) (r : Received) : Received :=
  r.map fun (more, pending) => (packets ++ more, pending)

/-- Takes frames off a buffer until none is left. -/
def takeFrames (buffer : Bytes) : Received :=
  match _h : takeFrame buffer with
  | .incomplete => .ok ([], buffer)
  | .impossible length => .error length
  | .frame packet rest => (takeFrames rest).behind [packet]
termination_by buffer.length
decreasing_by exact length_of_takeFrame _h

/-- Buffers fragments one after another, and takes the frames that are complete behind each. -/
def takeFragments (buffer : Bytes) : List Bytes → Received
  | [] => .ok ([], buffer)
  | fragment :: rest =>
    match takeFrames (buffer ++ fragment) with
    | .error length => .error length
    | .ok (packets, pending) => (takeFragments pending rest).behind packets

/-! ## All frames of a buffer -/

theorem Received.behind_ok (packets more : List Bytes) (pending : Bytes) :
    Received.behind packets (.ok (more, pending)) = .ok (packets ++ more, pending) := rfl

theorem Received.behind_nil (r : Received) : Received.behind [] r = r := by
  cases r <;> rfl

theorem Received.behind_behind (packets more : List Bytes) (r : Received) :
    Received.behind packets (Received.behind more r) = Received.behind (packets ++ more) r := by
  cases r with
  | error length => rfl
  | ok outcome =>
      show Except.ok (packets ++ (more ++ outcome.1), outcome.2) = _
      rw [← List.append_assoc]
      rfl

theorem takeFrames_eq (buffer : Bytes) :
    takeFrames buffer =
      match takeFrame buffer with
      | .incomplete => .ok ([], buffer)
      | .impossible length => .error length
      | .frame packet rest => (takeFrames rest).behind [packet] := by
  rw [takeFrames]
  split
  · next h => rw [h]
  · next h => rw [h]
  · next h => rw [h]

theorem takeFrames_incomplete {buffer : Bytes} (h : takeFrame buffer = .incomplete) :
    takeFrames buffer = .ok ([], buffer) := by
  rw [takeFrames_eq, h]

theorem takeFrames_impossible {buffer : Bytes} {length : Nat}
    (h : takeFrame buffer = .impossible length) : takeFrames buffer = .error length := by
  rw [takeFrames_eq, h]

theorem takeFrames_frame {buffer packet rest : Bytes} (h : takeFrame buffer = .frame packet rest) :
    takeFrames buffer = (takeFrames rest).behind [packet] := by
  rw [takeFrames_eq, h]

/-- When no frame is left, what is buffered is no whole frame. -/
theorem takeFrame_pending {pending : Bytes} :
    ∀ {buffer : Bytes} {packets : List Bytes}, takeFrames buffer = .ok (packets, pending) →
      takeFrame pending = .incomplete
  | buffer, packets, h => by
      cases htake : takeFrame buffer with
      | incomplete =>
          rw [takeFrames_incomplete htake] at h
          cases h
          exact htake
      | impossible length =>
          rw [takeFrames_impossible htake] at h
          cases h
      | frame packet rest =>
          have hshorter := length_of_takeFrame htake
          rw [takeFrames_frame htake] at h
          cases hrest : takeFrames rest with
          | error length =>
              rw [hrest] at h
              cases h
          | ok outcome =>
              rw [hrest] at h
              cases h
              exact takeFrame_pending hrest
termination_by buffer => buffer.length

/-- Frames are taken off a longer buffer as they are off its beginning, and then off what that leaves. -/
theorem takeFrames_append (more : Bytes) :
    ∀ buffer : Bytes, takeFrames (buffer ++ more) =
      match takeFrames buffer with
      | .error length => .error length
      | .ok (packets, pending) => (takeFrames (pending ++ more)).behind packets
  | buffer => by
      cases htake : takeFrame buffer with
      | incomplete =>
          rw [takeFrames_incomplete htake]
          exact (Received.behind_nil _).symm
      | impossible length =>
          rw [takeFrames_impossible htake, takeFrames_impossible (takeFrame_append_impossible htake more)]
      | frame packet rest =>
          -- the recursion is that of the loop, on what is behind the frame
          have hshorter := length_of_takeFrame htake
          rw [takeFrames_frame htake, takeFrames_frame (takeFrame_append htake more),
            takeFrames_append more rest]
          cases takeFrames rest with
          | error length => rfl
          | ok outcome => exact Received.behind_behind [packet] outcome.1 _
termination_by buffer => buffer.length

/-- How a stream is cut into fragments makes no difference. -/
theorem takeFragments_eq (fragments : List Bytes) :
    ∀ {buffer : Bytes}, takeFrame buffer = .incomplete →
      takeFragments buffer fragments = takeFrames (buffer ++ fragments.flatten) := by
  induction fragments with
  | nil =>
      intro buffer h
      rw [List.flatten_nil, List.append_nil, takeFrames_incomplete h]
      rfl
  | cons fragment rest ih =>
      intro buffer _
      rw [List.flatten_cons, ← List.append_assoc, takeFrames_append, takeFragments]
      cases htaken : takeFrames (buffer ++ fragment) with
      | error length => rfl
      | ok outcome =>
          show (takeFragments outcome.2 rest).behind outcome.1 = _
          rw [ih (takeFrame_pending htaken)]

/-! ## Frames that were sent -/

/-- The beginning of a frame is no whole frame. -/
theorem takeFrame_of_cut {packet part : Bytes} (fits : packet.length ≤ maxFrameLength)
    (beginning : part <+: frame packet) (proper : part ≠ frame packet) :
    takeFrame part = .incomplete := by
  -- The cut may be in the length or behind it.  Either way, what is found in the part is found in the
  -- whole, and there it is the packet with nothing left.
  obtain ⟨missing, hmissing⟩ := beginning
  have hwhole : takeFrame (part ++ missing) = .frame packet [] := by
    rw [hmissing, ← takeFrame_frame fits [], List.append_nil]
  cases htake : takeFrame part with
  | incomplete => rfl
  | impossible length =>
      rw [takeFrame_append_impossible htake] at hwhole
      cases hwhole
  | frame p rest =>
      rw [takeFrame_append htake] at hwhole
      obtain ⟨-, hrest⟩ := Taken.frame.inj hwhole
      obtain ⟨-, rfl⟩ := List.append_eq_nil_iff.mp hrest
      exact absurd ((List.append_nil part).symm.trans hmissing) proper

/-- The frames of packets that fit are taken, each once and in order. -/
theorem takeFrames_frames {part : Bytes} (incomplete : takeFrame part = .incomplete)
    {packets : List Bytes} (fits : ∀ packet ∈ packets, packet.length ≤ maxFrameLength) :
    takeFrames (packets.flatMap frame ++ part) = .ok (packets, part) := by
  induction packets with
  | nil => exact takeFrames_incomplete incomplete
  | cons packet rest ih =>
      obtain ⟨hpacket, hrest⟩ := List.forall_mem_cons.mp fits
      rw [List.flatMap_cons, List.append_assoc, takeFrames_frame (takeFrame_frame hpacket _), ih hrest,
        Received.behind_ok, List.singleton_append]

/-! ## Frames that are waited for -/

theorem length_of_readFrame {stream packet rest : Bytes} (h : readFrame stream = (.ok packet, rest)) :
    rest.length < stream.length := by
  unfold readFrame at h
  split at h
  · next htake =>
    cases h
    exact length_of_takeFrame htake
  · cases h
  · cases h

/-- Reads frames off a stream up to the first that cannot be read, and why it cannot. -/
def readFrames (stream : Bytes) : List Bytes × IoFailure :=
  match _h : readFrame stream with
  | (.error failure, _) => ([], failure)
  | (.ok packet, rest) => (packet :: (readFrames rest).1, (readFrames rest).2)
termination_by stream.length
decreasing_by all_goals exact length_of_readFrame _h

theorem readFrames_eq (stream : Bytes) :
    readFrames stream =
      match readFrame stream with
      | (.error failure, _) => ([], failure)
      | (.ok packet, rest) => (packet :: (readFrames rest).1, (readFrames rest).2) := by
  rw [readFrames]
  split
  · next h => rw [h]
  · next h => rw [h]

theorem readFrames_incomplete {stream : Bytes} (h : takeFrame stream = .incomplete) :
    readFrames stream = ([], endedEarly) := by
  rw [readFrames_eq, readFrame, h]

theorem readFrames_frame {stream packet rest : Bytes} (h : takeFrame stream = .frame packet rest) :
    readFrames stream = (packet :: (readFrames rest).1, (readFrames rest).2) := by
  rw [readFrames_eq, readFrame, h]

theorem readFrames_frames {part : Bytes} (incomplete : takeFrame part = .incomplete)
    {packets : List Bytes} (fits : ∀ packet ∈ packets, packet.length ≤ maxFrameLength) :
    readFrames (packets.flatMap frame ++ part) = (packets, endedEarly) := by
  induction packets with
  | nil => exact readFrames_incomplete incomplete
  | cons packet rest ih =>
      obtain ⟨hpacket, hrest⟩ := List.forall_mem_cons.mp fits
      rw [List.flatMap_cons, List.append_assoc, readFrames_frame (takeFrame_frame hpacket _), ih hrest]

/-! ## Both readers -/

/-- Packets that fit are framed and followed by the beginning of a further frame, and all of it arrives
in fragments, however they are cut.  Then the packets are taken, each once and in order, and what is
buffered in the end is that beginning; and to read frame by frame gives the same packets, up to the end of
the stream. -/
theorem takeFragments_frames {packets fragments : List Bytes} {further part : Bytes}
    (fits : ∀ packet ∈ packets, packet.length ≤ maxFrameLength)
    (furtherFits : further.length ≤ maxFrameLength) (beginning : part <+: frame further)
    (proper : part ≠ frame further) (stream : fragments.flatten = packets.flatMap frame ++ part) :
    takeFragments [] fragments = .ok (packets, part) ∧
      readFrames fragments.flatten = (packets, endedEarly) := by
  have incomplete := takeFrame_of_cut furtherFits beginning proper
  constructor
  · rw [takeFragments_eq fragments rfl, List.nil_append, stream]
    exact takeFrames_frames incomplete fits
  · rw [stream]
    exact readFrames_frames incomplete fits

def scatteredPackets : List Bytes := [[], [0xAA, 0xBB]]

/-- Their frames and the beginning of a third.  The first length is cut in two, and the second is cut off
its packet, which is cut in two as well. -/
def scatteredFrames : List Bytes :=
  [[0, 0], [0, 0, 0, 0, 0, 2], [0xAA], [], [0xBB, 0, 0, 0, 3, 0xC1]]

theorem takeFragments_frames_scattered :
    (∀ packet ∈ scatteredPackets, packet.length ≤ maxFrameLength) ∧
    ([0xC1, 0xC2, 0xC3] : Bytes).length ≤ maxFrameLength ∧
    [0, 0, 0, 3, 0xC1] <+: frame [0xC1, 0xC2, 0xC3] ∧ [0, 0, 0, 3, 0xC1] ≠ frame [0xC1, 0xC2, 0xC3] ∧
    scatteredFrames.flatten = scatteredPackets.flatMap frame ++ [0, 0, 0, 3, 0xC1] ∧
    takeFragments [] scatteredFrames = .ok (scatteredPackets, [0, 0, 0, 3, 0xC1]) ∧
    readFrames scatteredFrames.flatten = (scatteredPackets, endedEarly) := by
  have fits : ∀ packet ∈ scatteredPackets, packet.length ≤ maxFrameLength := by decide
  have furtherFits : ([0xC1, 0xC2, 0xC3] : Bytes).length ≤ maxFrameLength := by decide
  have beginning : [0, 0, 0, 3, 0xC1] <+: frame [0xC1, 0xC2, 0xC3] := ⟨[0xC2, 0xC3], rfl⟩
  have proper : [0, 0, 0, 3, 0xC1] ≠ frame [0xC1, 0xC2, 0xC3] := by decide
  have stream : scatteredFrames.flatten = scatteredPackets.flatMap frame ++ [0, 0, 0, 3, 0xC1] := rfl
  exact ⟨fits, furtherFits, beginning, proper, stream,
    takeFragments_frames fits furtherFits beginning proper stream⟩

end Rmap

end GroundStation
