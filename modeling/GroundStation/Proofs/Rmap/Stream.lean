/-
# Where frames begin

A receiver sees the stream of its peer in fragments: of the frames that were sent, the buffer holds what
has arrived and not been taken, and the rest is on its way.  `Aligned buffer unread packets` says that the
two together are the frames of `packets`, so that the buffer begins where a frame begins.

To take a frame keeps this, for the frame taken is the first of the packets or is not complete yet
(`Aligned.takeFrame`); so does the search for a reply, wherever it ends (`Aligned.scan`).
-/
import GroundStation.Link.Rmap
import GroundStation.Proofs.Rmap.Transaction

namespace GroundStation

namespace Rmap

/-! ## One frame -/

/-- More bytes behind a whole frame do not change what is taken. -/
theorem takeFrame_append {buffer packet rest : Bytes} (h : takeFrame buffer = .frame packet rest)
    (more : Bytes) : takeFrame (buffer ++ more) = .frame packet (rest ++ more) := by
  unfold takeFrame at h
  split at h
  · next b₃ b₂ b₁ b₀ tail =>
    dsimp only at h
    split at h
    · cases h
    · next hmax =>
      split at h
      · cases h
      · next hlen =>
        cases h
        have hle : bigEndian [b₃, b₂, b₁, b₀] ≤ tail.length := Nat.le_of_not_lt hlen
        have hmore : ¬(tail ++ more).length < bigEndian [b₃, b₂, b₁, b₀] := by
          rw [List.length_append]
          omega
        simp only [List.cons_append]
        rw [takeFrame, if_neg hmax, if_neg hmore, List.take_append_of_le_length hle,
          List.drop_append_of_le_length hle]
  · cases h

/-- An impossible length is impossible whatever follows. -/
theorem takeFrame_append_impossible {buffer : Bytes} {length : Nat}
    (h : takeFrame buffer = .impossible length) (more : Bytes) :
    takeFrame (buffer ++ more) = .impossible length := by
  unfold takeFrame at h
  split at h
  · dsimp only at h
    split at h
    · next hmax =>
      cases h
      simp only [List.cons_append]
      rw [takeFrame, if_pos hmax]
    · split at h <;> cases h
  · cases h

/-- The frame of a packet that fits is taken off the front. -/
theorem takeFrame_frame {packet : Bytes} (fits : packet.length ≤ maxFrameLength) (rest : Bytes) :
    takeFrame (frame packet ++ rest) = .frame packet rest := by
  have hlength : bigEndian (bigEndianBytes 4 packet.length) = packet.length := by
    rw [bigEndian_bigEndianBytes]
    refine Nat.mod_eq_of_lt ?_
    have hmax : maxFrameLength = 16777232 := rfl
    omega
  have hshape : frame packet ++ rest = (packet.length / 256 ^ 3).toUInt8 ::
      (packet.length / 256 ^ 2).toUInt8 :: (packet.length / 256 ^ 1).toUInt8 ::
      (packet.length / 256 ^ 0).toUInt8 :: (packet ++ rest) := rfl
  have hbytes : bigEndian [(packet.length / 256 ^ 3).toUInt8, (packet.length / 256 ^ 2).toUInt8,
      (packet.length / 256 ^ 1).toUInt8, (packet.length / 256 ^ 0).toUInt8] = packet.length := hlength
  rw [hshape, takeFrame, hbytes, if_neg (Nat.not_lt.mpr fits), if_neg (by rw [List.length_append]; omega),
    List.take_left, List.drop_left]

/-! ## Frames on their way -/

/-- What is buffered and what is unread are together the frames of packets that fit. -/
structure Aligned (buffer unread : Bytes) (packets : List Bytes) : Prop where
  fit : ∀ packet ∈ packets, packet.length ≤ maxFrameLength
  stream : buffer ++ unread = packets.flatMap frame

namespace Aligned

variable {buffer unread : Bytes} {packets : List Bytes}

theorem tail {packet : Bytes} {rest : Bytes} (h : Aligned buffer unread (packet :: packets))
    (stream : rest ++ unread = packets.flatMap frame) : Aligned rest unread packets :=
  ⟨fun p hp => h.fit p (List.mem_cons_of_mem _ hp), stream⟩

/-- Bytes that arrive move from one part of the stream to the other, and new frames join its end. -/
theorem arrive (h : Aligned buffer unread packets) {content unread' : Bytes} {new : List Bytes}
    (fit : ∀ packet ∈ new, packet.length ≤ maxFrameLength)
    (moved : content ++ unread' = unread ++ new.flatMap frame) :
    Aligned (buffer ++ content) unread' (packets ++ new) where
  fit := fun packet hp => (List.mem_append.mp hp).elim (h.fit packet) (fit packet)
  stream := by
    rw [List.append_assoc, moved, ← List.append_assoc, h.stream, List.flatMap_append]

/-- What is taken off the buffer is the first of the packets, unless that is not complete yet. -/
theorem takeFrame (h : Aligned buffer unread packets) :
    Rmap.takeFrame buffer = .incomplete ∨
      ∃ packet later rest, packets = packet :: later ∧
        Rmap.takeFrame buffer = .frame packet rest ∧ Aligned rest unread later := by
  cases packets with
  | nil =>
      obtain ⟨rfl, -⟩ := List.append_eq_nil_iff.mp h.stream
      exact .inl rfl
  | cons packet later =>
      have hfirst : Rmap.takeFrame (buffer ++ unread) = .frame packet (later.flatMap frame) := by
        rw [h.stream, List.flatMap_cons]
        exact takeFrame_frame (h.fit packet List.mem_cons_self) _
      cases htake : Rmap.takeFrame buffer with
      | incomplete => exact .inl rfl
      | impossible length =>
          rw [takeFrame_append_impossible htake] at hfirst
          cases hfirst
      | frame p rest =>
          rw [takeFrame_append htake] at hfirst
          obtain ⟨rfl, hrest⟩ := Taken.frame.inj hfirst
          exact .inr ⟨p, later, rest, rfl, rfl, h.tail hrest⟩

end Aligned

/-! ## The search for a reply -/

theorem scan_incomplete {id : UInt16} {kind : PacketKind} {buffer : Bytes}
    (h : takeFrame buffer = .incomplete) : scan id kind buffer = .waiting buffer := by
  rw [scan]
  split
  · rfl
  · next heq => cases h.symm.trans heq
  · next heq => cases h.symm.trans heq

theorem scan_frame {id : UInt16} {kind : PacketKind} {buffer packet rest : Bytes}
    (h : takeFrame buffer = .frame packet rest) :
    scan id kind buffer =
      match judge id kind packet with
      | .accepted reply => .accepted reply rest
      | .rejected => .rejected rest
      | .stale => scan id kind rest := by
  rw [scan]
  split
  · next heq => cases h.symm.trans heq
  · next heq => cases h.symm.trans heq
  · next heq =>
    cases h.symm.trans heq
    cases judge id kind packet <;> rfl

/-- What a search leaves in the buffer. -/
def Scanned.rest : Scanned → Bytes
  | accepted _ rest => rest
  | rejected rest => rest
  | waiting rest => rest

/-- A reply that is accepted was decoded from the frame and has the id that was waited for. -/
theorem judge_accepted {id : UInt16} {kind : PacketKind} {packet : Bytes} {reply : Packet}
    (h : judge id kind packet = .accepted reply) :
    Packet.decode packet = some reply ∧ reply.transactionId = id := by
  unfold judge at h
  split at h
  · cases h
  · next p hp =>
    split at h
    · cases h
    · next hid =>
      split at h
      · cases h
        exact ⟨hp, Decidable.of_not_not hid⟩
      · cases h

/-- A search ends at a frame boundary, and what it accepts is one of the packets. -/
theorem Aligned.scan (id : UInt16) (kind : PacketKind) {unread : Bytes} :
    ∀ {packets : List Bytes} {buffer : Bytes}, Aligned buffer unread packets →
      (∃ taken later, packets = taken ++ later ∧
        Aligned (Rmap.scan id kind buffer).rest unread later) ∧
      (∀ reply rest, Rmap.scan id kind buffer = .accepted reply rest →
        ∃ packet ∈ packets, Packet.decode packet = some reply ∧ reply.transactionId = id)
  | packets, buffer, h => by
      rcases h.takeFrame with htake | ⟨packet, later, rest, rfl, htake, haligned⟩
      · rw [scan_incomplete htake]
        exact ⟨⟨[], packets, rfl, h⟩, fun _ _ heq => nomatch heq⟩
      · rw [scan_frame htake]
        cases hjudge : judge id kind packet with
        | rejected => exact ⟨⟨[packet], later, rfl, haligned⟩, fun _ _ heq => nomatch heq⟩
        | accepted reply =>
            refine ⟨⟨[packet], later, rfl, haligned⟩, ?_⟩
            intro r rest' heq
            cases heq
            exact ⟨packet, List.mem_cons_self, judge_accepted hjudge⟩
        | stale =>
            obtain ⟨⟨taken, later', rfl, haligned'⟩, haccepted⟩ := Aligned.scan id kind haligned
            refine ⟨⟨packet :: taken, later', rfl, haligned'⟩, ?_⟩
            intro reply rest' heq
            obtain ⟨p, hp, hdecode⟩ := haccepted reply rest' heq
            exact ⟨p, List.mem_cons_of_mem _ hp, hdecode⟩

end Rmap

end GroundStation
