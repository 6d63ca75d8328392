/-
# Transaction ids in packets

A packet carries the id of its transaction in its sixth and seventh byte, whatever else it is.  So a
command that an initiator encodes bears the id that the codec had, and the reply that a target builds from
a decoded command bears the id of that command; both decode, and the reply fits into a frame.
-/
import GroundStation.Rmap.Codec
import GroundStation.Rmap.Frame

namespace GroundStation

namespace Rmap

/-! ## Numbers of several bytes -/

theorem length_bigEndianBytes : ∀ (width n : Nat), (bigEndianBytes width n).length = width
  | 0, _ => rfl
  | width + 1, n => by rw [bigEndianBytes, List.length_cons, length_bigEndianBytes width n]

theorem bigEndian_append (a b : Bytes) :
    bigEndian (a ++ b) = bigEndian a * 256 ^ b.length + bigEndian b := by
  have hfrom : ∀ (bytes : Bytes) (n : Nat), bytes.foldl (fun n b => n * 256 + b.toNat) n =
      n * 256 ^ bytes.length + bigEndian bytes := by
    intro bytes
    induction bytes with
    | nil => intro n; simp [bigEndian]
    | cons x rest ih =>
        intro n
        rw [bigEndian, List.foldl_cons, List.foldl_cons, ih, ih (0 * 256 + x.toNat), List.length_cons,
          Nat.zero_mul, Nat.zero_add, Nat.add_mul, Nat.add_assoc, Nat.mul_assoc, Nat.pow_succ']
  rw [bigEndian, List.foldl_append, hfrom]
  rfl

/-- The low bytes of a number, high byte first, are the number as far as they hold it. -/
theorem bigEndian_bigEndianBytes :
    ∀ (width n : Nat), bigEndian (bigEndianBytes width n) = n % 256 ^ width
  | 0, n => by rw [Nat.pow_zero, Nat.mod_one]; rfl
  | width + 1, n => by
      have hcons : bigEndianBytes (width + 1) n = [(n / 256 ^ width).toUInt8] ++ bigEndianBytes width n :=
        rfl
      have hhead : bigEndian [(n / 256 ^ width).toUInt8] = n / 256 ^ width % 256 := by
        simp [bigEndian]
      rw [hcons, bigEndian_append, bigEndian_bigEndianBytes width n, length_bigEndianBytes, hhead,
        Nat.pow_succ, Nat.mod_mul, Nat.mul_comm, Nat.add_comm]

theorem toUInt16_bigEndian_bigEndianBytes (id : UInt16) :
    (bigEndian (bigEndianBytes 2 id.toNat)).toUInt16 = id := by
  have hlt : id.toNat < 256 ^ 2 := id.toNat_lt
  rw [bigEndian_bigEndianBytes, Nat.mod_eq_of_lt hlt]
  exact UInt16.ofNat_toNat

/-! ## Decoding -/

namespace Packet

theorem transactionId_ofCommand (target protocol instruction key initiator idHigh idLow extended : UInt8)
    (rest : Bytes) :
    (ofCommand target protocol instruction key initiator idHigh idLow extended rest).transactionId =
      (bigEndian [idHigh, idLow]).toUInt16 := by
  unfold ofCommand
  dsimp only
  split
  · split
    · split
      · split <;> rfl
      · rfl
    · rfl
  · rfl

theorem transactionId_ofReply (initiator protocol instruction status target idHigh idLow eighth : UInt8)
    (rest : Bytes) :
    (ofReply initiator protocol instruction status target idHigh idLow eighth rest).transactionId =
      (bigEndian [idHigh, idLow]).toUInt16 := by
  unfold ofReply
  dsimp only
  split
  · rfl
  · split
    · split <;> rfl
    · rfl

variable (b₀ : UInt8) {b₁ b₂ b₃ b₄ b₅ b₆ b₇ : UInt8} {rest : Bytes}

/-- A packet with the type bits of a command decodes as one, with its id. -/
theorem decode_command (h : Instruction.typeBits b₂ = 1) :
    ∃ p, decode (b₀ :: b₁ :: b₂ :: b₃ :: b₄ :: b₅ :: b₆ :: b₇ :: rest) = some p ∧
      p.transactionId = (bigEndian [b₅, b₆]).toUInt16 := by
  refine ⟨ofCommand b₀ b₁ b₂ b₃ b₄ b₅ b₆ b₇ rest, ?_, transactionId_ofCommand ..⟩
  rw [decode, if_pos h]

theorem decode_eq_ofReply (h : Instruction.typeBits b₂ = 0) :
    decode (b₀ :: b₁ :: b₂ :: b₃ :: b₄ :: b₅ :: b₆ :: b₇ :: rest) =
      some (ofReply b₀ b₁ b₂ b₃ b₄ b₅ b₆ b₇ rest) := by
  have hne : ¬Instruction.typeBits b₂ = 1 := by
    rw [h]
    decide
  rw [decode, if_neg hne, if_pos h]

/-- A packet with the type bits of a reply decodes as one, with its id. -/
theorem decode_reply (h : Instruction.typeBits b₂ = 0) :
    ∃ p, decode (b₀ :: b₁ :: b₂ :: b₃ :: b₄ :: b₅ :: b₆ :: b₇ :: rest) = some p ∧
      p.transactionId = (bigEndian [b₅, b₆]).toUInt16 :=
  ⟨_, decode_eq_ofReply b₀ h, transactionId_ofReply ..⟩

end Packet

/-! ## Instruction bytes -/

theorem typeBits_instruction (c : Command) : Instruction.typeBits c.instruction = 1 := by
  have hall : ∀ write verify reply increment : Bool,
      Instruction.typeBits (0x40 ||| (if write then 0x20 else 0) ||| (if verify then 0x10 else 0) |||
        (if reply then 0x08 else 0) ||| (if increment then 0x04 else 0)) = 1 := by
    decide
  exact hall c.write c.verify c.reply c.increment

theorem typeBits_reply (instruction : UInt8) : Instruction.typeBits (instruction &&& 0x3F) = 0 := by
  refine UInt8.toNat_inj.mp ?_
  have hle : instruction.toNat &&& 0x3F ≤ 0x3F := Nat.and_le_right
  simp only [Instruction.typeBits, UInt8.toNat_shiftRight, UInt8.toNat_and]
  rw [Nat.shiftRight_eq_div_pow]
  exact Nat.div_eq_of_lt (by
    have h6 : (2 : Nat) ^ (UInt8.toNat 6 % 8) = 64 := rfl
    have h63 : (63 : UInt8).toNat = 0x3F := rfl
    rw [h6, h63]
    omega)

/-! ## Encoding -/

/-- A command that is refused leaves the codec as it is. -/
theorem encode_of_error {c : Codec} {command : Command} {e : RmapError}
    (h : (c.encode command).1 = .error e) : c.encode command = (.error e, c) := by
  unfold Codec.encode at h ⊢
  split at h
  · cases h
    rfl
  · dsimp only at h ⊢
    split at h
    · next tooLong =>
      cases h
      rw [if_pos tooLong]
    · cases h

/-- A command that is encoded decodes, with the id that the codec had. -/
theorem decode_encode {c c' : Codec} {command : Command} {packet : Bytes}
    (h : c.encode command = (.ok packet, c')) :
    c' = c.advance ∧ ∃ p, Packet.decode packet = some p ∧ p.transactionId = c.nextId := by
  unfold Codec.encode at h
  split at h
  · cases h
  · next data _ =>
    dsimp only at h
    split at h
    · cases h
    · cases h
      refine ⟨rfl, ?_⟩
      obtain ⟨p, hp, hid⟩ := Packet.decode_command c.target (typeBits_instruction command)
      exact ⟨p, hp, hid.trans (toUInt16_bigEndian_bigEndianBytes c.nextId)⟩

/-- A reply decodes, with the id of the command that it answers, and fits into a frame. -/
theorem decode_encodeReply {command : Packet} {status : UInt8} {data packet : Bytes}
    (h : encodeReply command status data = some packet) :
    packet.length ≤ maxFrameLength ∧
      ∃ p, Packet.decode packet = some p ∧ p.transactionId = command.transactionId := by
  have hid := toUInt16_bigEndian_bigEndianBytes command.transactionId
  have hbits := typeBits_reply command.instruction
  unfold encodeReply at h
  dsimp only at h
  split at h
  · cases h
    refine ⟨by simp [length_bigEndianBytes, maxFrameLength, maxDataLength], ?_⟩
    obtain ⟨p, hp, hpid⟩ := Packet.decode_reply command.initiator hbits
    exact ⟨p, hp, hpid.trans hid⟩
  · split at h
    · cases h
    · cases h
      refine ⟨?_, ?_⟩
      · simp [length_bigEndianBytes, maxFrameLength]
        omega
      · obtain ⟨p, hp, hpid⟩ := Packet.decode_reply command.initiator hbits
        exact ⟨p, hp, hpid.trans hid⟩
  · cases h
  · cases h

end Rmap

end GroundStation
