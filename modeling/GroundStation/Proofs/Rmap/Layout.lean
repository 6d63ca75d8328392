/-
# What is decoded from a whole header

Decoding takes a packet apart byte by byte, since it also reports what there is of a header that breaks off.
Where the header is whole the outcome is one record, given here for each shape of header; for data and the
checksum behind it there is one condition, that the checksum of the two together is zero (`splitData_eq`).

The rest of the module says what a packet's kind depends on: the instruction byte, and nothing else.
-/
import GroundStation.Proofs.Rmap.Checksum
import GroundStation.Rmap.Packet

namespace GroundStation

namespace Rmap

/-- The type bits of a kind of packet. -/
def PacketKind.typeBits : PacketKind → UInt8
  | commandRead => 1
  | commandWrite => 1
  | replyRead => 0
  | replyWrite => 0

/-- Eight bytes are all that decoding looks at before it asks for more. -/
theorem exists_eight {bytes : Bytes} (long : 8 ≤ bytes.length) :
    ∃ b₀ b₁ b₂ b₃ b₄ b₅ b₆ b₇ rest, bytes = b₀ :: b₁ :: b₂ :: b₃ :: b₄ :: b₅ :: b₆ :: b₇ :: rest := by
  rcases bytes with
    _ | ⟨b₀, _ | ⟨b₁, _ | ⟨b₂, _ | ⟨b₃, _ | ⟨b₄, _ | ⟨b₅, _ | ⟨b₆, _ | ⟨b₇, rest⟩⟩⟩⟩⟩⟩⟩⟩
  case cons.cons.cons.cons.cons.cons.cons.cons =>
    exact ⟨b₀, b₁, b₂, b₃, b₄, b₅, b₆, b₇, rest, rfl⟩
  all_goals
    simp only [List.length_cons, List.length_nil] at long
    omega

/-- Data agrees with the checksum behind it where the two together have the checksum zero. -/
theorem splitData_eq (rest : Bytes) : splitData rest = (rest.dropLast, rest.getLast?, crc8 rest == 0) := by
  unfold splitData
  split
  · next h =>
    rw [List.getLast?_eq_none_iff.mp h]
    rfl
  · next crc h =>
    obtain ⟨front, rfl⟩ := List.getLast?_eq_some_iff.mp h
    rw [List.dropLast_concat, crc8_beq, h]

namespace Packet

variable {b₀ b₁ b₂ b₃ b₄ b₅ b₆ b₇ : UInt8} {rest : Bytes}

/-! ## Whole headers -/

theorem ofCommand_whole {a₃ a₂ a₁ a₀ l₂ l₁ l₀ crc : UInt8} :
    ofCommand b₀ b₁ b₂ b₃ b₄ b₅ b₆ b₇ (a₃ :: a₂ :: a₁ :: a₀ :: l₂ :: l₁ :: l₀ :: crc :: rest) =
      { kind := if Instruction.write b₂ then .commandWrite else .commandRead
        target := b₀
        initiator := b₄
        protocol := b₁
        instruction := b₂
        key := some b₃
        status := none
        transactionId := (bigEndian [b₅, b₆]).toUInt16
        extendedAddress := some b₇
        address := some (bigEndian [a₃, a₂, a₁, a₀]).toUInt32
        dataLength := some (bigEndian [l₂, l₁, l₀])
        data := if Instruction.write b₂ then rest.dropLast else []
        headerCrc := crc
        dataCrc := if Instruction.write b₂ then rest.getLast? else none
        headerCrcValid :=
          crc8 [b₀, b₁, b₂, b₃, b₄, b₅, b₆, b₇, a₃, a₂, a₁, a₀, l₂, l₁, l₀, crc] == 0
        dataCrcValid := !Instruction.write b₂ || crc8 rest == 0
        lengthValid :=
          if Instruction.write b₂ then rest.dropLast.length == bigEndian [l₂, l₁, l₀]
          else rest.isEmpty } := by
  have hheader : (crc8 [b₀, b₁, b₂, b₃, b₄, b₅, b₆, b₇, a₃, a₂, a₁, a₀, l₂, l₁, l₀] == crc) =
      (crc8 [b₀, b₁, b₂, b₃, b₄, b₅, b₆, b₇, a₃, a₂, a₁, a₀, l₂, l₁, l₀, crc] == 0) :=
    crc8_beq [b₀, b₁, b₂, b₃, b₄, b₅, b₆, b₇, a₃, a₂, a₁, a₀, l₂, l₁, l₀] crc
  cases hwrite : Instruction.write b₂ with
  | true => simp only [ofCommand, splitData_eq, hwrite, hheader, if_true, Bool.not_true, Bool.false_or]
  | false =>
    simp only [ofCommand, hwrite, hheader, Bool.false_eq_true, if_false, Bool.not_false, Bool.true_or]

theorem ofReply_write (hwrite : Instruction.write b₂ = true) :
    ofReply b₀ b₁ b₂ b₃ b₄ b₅ b₆ b₇ rest =
      { kind := .replyWrite
        target := b₄
        initiator := b₀
        protocol := b₁
        instruction := b₂
        key := none
        status := some b₃
        transactionId := (bigEndian [b₅, b₆]).toUInt16
        extendedAddress := none
        address := none
        dataLength := none
        data := []
        headerCrc := b₇
        dataCrc := none
        headerCrcValid := crc8 [b₀, b₁, b₂, b₃, b₄, b₅, b₆, b₇] == 0
        dataCrcValid := true
        lengthValid := rest.isEmpty } := by
  have hheader : (crc8 [b₀, b₁, b₂, b₃, b₄, b₅, b₆] == b₇) =
      (crc8 [b₀, b₁, b₂, b₃, b₄, b₅, b₆, b₇] == 0) :=
    crc8_beq [b₀, b₁, b₂, b₃, b₄, b₅, b₆] b₇
  simp only [ofReply, hwrite, if_true, hheader]

theorem ofReply_read {l₂ l₁ l₀ crc : UInt8} (hread : Instruction.write b₂ = false) :
    ofReply b₀ b₁ b₂ b₃ b₄ b₅ b₆ b₇ (l₂ :: l₁ :: l₀ :: crc :: rest) =
      { kind := .replyRead
        target := b₄
        initiator := b₀
        protocol := b₁
        instruction := b₂
        key := none
        status := some b₃
        transactionId := (bigEndian [b₅, b₆]).toUInt16
        extendedAddress := none
        address := none
        dataLength := some (bigEndian [l₂, l₁, l₀])
        data := rest.dropLast
        headerCrc := crc
        dataCrc := rest.getLast?
        headerCrcValid := crc8 [b₀, b₁, b₂, b₃, b₄, b₅, b₆, b₇, l₂, l₁, l₀, crc] == 0
        dataCrcValid := crc8 rest == 0
        lengthValid := rest.dropLast.length == bigEndian [l₂, l₁, l₀] } := by
  have hheader : (crc8 [b₀, b₁, b₂, b₃, b₄, b₅, b₆, b₇, l₂, l₁, l₀] == crc) =
      (crc8 [b₀, b₁, b₂, b₃, b₄, b₅, b₆, b₇, l₂, l₁, l₀, crc] == 0) :=
    crc8_beq [b₀, b₁, b₂, b₃, b₄, b₅, b₆, b₇, l₂, l₁, l₀] crc
  simp only [ofReply, hread, Bool.false_eq_true, if_false, splitData_eq, List.cons_append, List.nil_append,
    hheader]

/-! ## The kind of a packet -/

theorem kind_ofCommand :
    (ofCommand b₀ b₁ b₂ b₃ b₄ b₅ b₆ b₇ rest).kind =
      if Instruction.write b₂ then .commandWrite else .commandRead := by
  unfold ofCommand
  dsimp only
  split
  · split
    · split
      · split <;> rfl
      · rfl
    · rfl
  · rfl

theorem kind_ofReply :
    (ofReply b₀ b₁ b₂ b₃ b₄ b₅ b₆ b₇ rest).kind =
      if Instruction.write b₂ then .replyWrite else .replyRead := by
  unfold ofReply
  dsimp only
  split
  · rfl
  · split
    · split <;> rfl
    · rfl

/-- A packet that is decoded has the type of its instruction byte. -/
theorem typeBits_of_decode {bytes : Bytes} {p : Packet} (h : decode bytes = some p) :
    8 ≤ bytes.length ∧
      ∃ instruction, bytes[2]? = some instruction ∧ Instruction.typeBits instruction = p.kind.typeBits := by
  unfold decode at h
  split at h
  · next b₂ _ _ _ _ _ rest =>
    refine ⟨by simp, b₂, rfl, ?_⟩
    split at h
    · next htype =>
      cases h
      rw [kind_ofCommand, htype]
      split <;> rfl
    · split at h
      · next htype =>
        cases h
        rw [kind_ofReply, htype]
        split <;> rfl
      · cases h
  · cases h

/-- A packet of a known type that is not too short is decoded. -/
theorem exists_decode {bytes : Bytes} {instruction : UInt8} {kind : PacketKind}
    (long : 8 ≤ bytes.length) (h : bytes[2]? = some instruction)
    (type : Instruction.typeBits instruction = kind.typeBits) : ∃ p, decode bytes = some p := by
  obtain ⟨b₀, b₁, b₂, b₃, b₄, b₅, b₆, b₇, rest, rfl⟩ := exists_eight long
  cases h
  rw [decode]
  split
  · exact ⟨_, rfl⟩
  · next hcommand =>
    split
    · exact ⟨_, rfl⟩
    · next hreply =>
      rw [type] at hcommand hreply
      cases kind <;> contradiction

end Packet

end Rmap

end GroundStation
