/-
# When a packet is valid

A packet has a header, closed by a checksum, and what follows the header; how long the header is depends on
the kind of the packet alone.  `Intact kind bytes` says when nothing is wrong with a packet of a kind: the
checksum of the header comes to zero, so does the one of what follows, and the header announces the length
of what follows.  A packet is decoded as valid if and only if it is intact (`valid_iff_intact`).

A change of one byte falls into the header or behind it, and there the checksum shows it.  Only the
instruction byte decides where the header ends.  For commands that is always the same place, and a reply
that writes is shorter than any reply that reads; so whatever byte is changed, a valid packet decodes as one
that is not valid (`not_valid_decode_set`), as long as the packet keeps its type.
-/
import GroundStation.Proofs.Rmap.Layout

namespace GroundStation

namespace Rmap

namespace PacketKind

/-- How long the header is, with its checksum. -/
def headerLength : PacketKind → Nat
  | commandRead => 16
  | commandWrite => 16
  | replyRead => 12
  | replyWrite => 8

/-- Where in the header the length of what follows stands, where it is announced. -/
def lengthAt? : PacketKind → Option Nat
  | commandRead => none
  | commandWrite => some 12
  | replyRead => some 8
  | replyWrite => none

end PacketKind

/-- What follows a header has the length that stands at a place of it, or is nothing where none is announced. -/
def Announced (bytes rest : Bytes) : Option Nat → Prop
  | none => rest = []
  | some place => rest.dropLast.length = bigEndian ((bytes.drop place).take 3)

/-- Nothing is wrong with a packet of a kind. -/
structure Intact (kind : PacketKind) (bytes : Bytes) : Prop where
  protocol : bytes[1]? = some protocolId
  whole : kind.headerLength ≤ bytes.length
  header : crc8 (bytes.take kind.headerLength) = 0
  data : crc8 (bytes.drop kind.headerLength) = 0
  announced : Announced bytes (bytes.drop kind.headerLength) kind.lengthAt?

namespace Packet

/-! ## Validity -/

section Valid

variable {b₀ b₁ b₂ b₃ b₄ b₅ b₆ b₇ : UInt8} {rest : Bytes}

theorem not_valid_ofCommand (short : rest.length < 8) :
    (ofCommand b₀ b₁ b₂ b₃ b₄ b₅ b₆ b₇ rest).valid = false := by
  unfold ofCommand
  dsimp only
  split
  · split
    · split
      · simp only [List.length_cons] at short
        omega
      · simp [valid]
    · simp [valid]
  · simp [valid]

theorem valid_ofCommand :
    (ofCommand b₀ b₁ b₂ b₃ b₄ b₅ b₆ b₇ rest).valid = true ↔
      Intact (if Instruction.write b₂ then .commandWrite else .commandRead)
        (b₀ :: b₁ :: b₂ :: b₃ :: b₄ :: b₅ :: b₆ :: b₇ :: rest) := by
  by_cases short : rest.length < 8
  · rw [not_valid_ofCommand short]
    refine iff_of_false Bool.false_ne_true fun intact => ?_
    have whole := intact.whole
    split at whole <;> simp [PacketKind.headerLength] at whole <;> omega
  · obtain ⟨a₃, a₂, a₁, a₀, l₂, l₁, l₀, crc, payload, rfl⟩ := exists_eight (Nat.le_of_not_lt short)
    rw [ofCommand_whole]
    cases Instruction.write b₂ with
    | true =>
      simp only [if_true, valid, Bool.not_true, Bool.false_or, Bool.and_eq_true, beq_iff_eq]
      constructor
      · rintro ⟨⟨⟨hprotocol, hcrc⟩, hdata⟩, hlength⟩
        exact ⟨congrArg some hprotocol, Nat.le_add_left _ _, hcrc, hdata, hlength⟩
      · rintro ⟨hprotocol, -, hcrc, hdata, hlength⟩
        exact ⟨⟨⟨Option.some.inj hprotocol, hcrc⟩, hdata⟩, hlength⟩
    | false =>
      simp only [Bool.false_eq_true, if_false, valid, Bool.not_false, Bool.true_or, Bool.and_true,
        Bool.and_eq_true, beq_iff_eq, List.isEmpty_iff]
      constructor
      · rintro ⟨⟨hprotocol, hcrc⟩, rfl⟩
        exact ⟨congrArg some hprotocol, Nat.le_refl _, hcrc, rfl, rfl⟩
      · rintro ⟨hprotocol, -, hcrc, -, hlength⟩
        exact ⟨⟨Option.some.inj hprotocol, hcrc⟩, hlength⟩

theorem not_valid_ofReply (hread : Instruction.write b₂ = false) (short : rest.length < 4) :
    (ofReply b₀ b₁ b₂ b₃ b₄ b₅ b₆ b₇ rest).valid = false := by
  simp only [ofReply, hread, Bool.false_eq_true, if_false]
  split
  · split
    · simp only [List.length_cons] at short
      omega
    · simp [valid]
  · simp [valid]

theorem valid_ofReply :
    (ofReply b₀ b₁ b₂ b₃ b₄ b₅ b₆ b₇ rest).valid = true ↔
      Intact (if Instruction.write b₂ then .replyWrite else .replyRead)
        (b₀ :: b₁ :: b₂ :: b₃ :: b₄ :: b₅ :: b₆ :: b₇ :: rest) := by
  cases hwrite : Instruction.write b₂ with
  | true =>
    rw [ofReply_write hwrite]
    simp only [if_true, valid, Bool.and_true, Bool.and_eq_true, beq_iff_eq, List.isEmpty_iff]
    constructor
    · rintro ⟨⟨hprotocol, hcrc⟩, rfl⟩
      exact ⟨congrArg some hprotocol, Nat.le_refl _, hcrc, rfl, rfl⟩
    · rintro ⟨hprotocol, -, hcrc, -, hlength⟩
      exact ⟨⟨Option.some.inj hprotocol, hcrc⟩, hlength⟩
  | false =>
    by_cases short : rest.length < 4
    · rw [not_valid_ofReply hwrite short]
      refine iff_of_false Bool.false_ne_true fun intact => ?_
      have whole : 12 ≤ rest.length + 8 := intact.whole
      omega
    · rcases rest with _ | ⟨l₂, _ | ⟨l₁, _ | ⟨l₀, _ | ⟨crc, payload⟩⟩⟩⟩
      case cons.cons.cons.cons =>
        rw [ofReply_read hwrite]
        simp only [Bool.false_eq_true, if_false, valid, Bool.and_eq_true, beq_iff_eq]
        constructor
        · rintro ⟨⟨⟨hprotocol, hcrc⟩, hdata⟩, hlength⟩
          exact ⟨congrArg some hprotocol, Nat.le_add_left _ _, hcrc, hdata, hlength⟩
        · rintro ⟨hprotocol, -, hcrc, hdata, hlength⟩
          exact ⟨⟨⟨Option.some.inj hprotocol, hcrc⟩, hdata⟩, hlength⟩
      all_goals exact absurd (by simp) short

end Valid

/-- A packet is valid if and only if nothing is wrong with its bytes. -/
theorem valid_iff_intact {bytes : Bytes} {p : Packet} (h : decode bytes = some p) :
    p.valid = true ↔ Intact p.kind bytes := by
  unfold decode at h
  split at h
  · split at h
    · cases h
      rw [valid_ofCommand, kind_ofCommand]
    · split at h
      · cases h
        rw [valid_ofReply, kind_ofReply]
      · cases h
  · cases h

/-! ## One byte -/

/-- Where a byte string is cut in two, a change of one byte changes the checksum of one of the parts. -/
theorem crc8_take_or_drop_set_ne {bytes : Bytes} {i : Nat} {v : UInt8} (h : i < bytes.length)
    (ne : v ≠ bytes[i]) (n : Nat) :
    crc8 ((bytes.set i v).take n) ≠ crc8 (bytes.take n) ∨
      crc8 ((bytes.set i v).drop n) ≠ crc8 (bytes.drop n) := by
  by_cases hi : i < n
  · left
    have hlen : i < (bytes.take n).length := by
      rw [List.length_take]
      omega
    rw [List.take_set]
    refine crc8_set_ne hlen ?_
    rwa [List.getElem_take]
  · right
    have hlen : i - n < (bytes.drop n).length := by
      rw [List.length_drop]
      omega
    rw [List.drop_set, if_neg hi]
    refine crc8_set_ne hlen ?_
    simp only [List.getElem_drop, Nat.add_sub_cancel' (Nat.le_of_not_lt hi)]
    exact ne

/-- Valid packets of one type and one length have headers of one length. -/
theorem headerLength_eq {kind kind' : PacketKind} {bytes bytes' : Bytes}
    (type : kind.typeBits = kind'.typeBits) (length : bytes.length = bytes'.length)
    (intact : Intact kind bytes) (intact' : Intact kind' bytes') :
    kind.headerLength = kind'.headerLength := by
  -- a reply that writes has nothing behind its header, and a reply that reads has a longer header
  have apart : ∀ {b b' : Bytes}, b.length = b'.length → Intact .replyWrite b → ¬Intact .replyRead b' := by
    intro b b' hlength hwrite hread
    have hshort : b.length ≤ 8 := List.drop_eq_nil_iff.mp hwrite.announced
    have hlong : 12 ≤ b'.length := hread.whole
    omega
  cases kind <;> cases kind'
  case replyRead.replyWrite => exact absurd intact (apart length.symm intact')
  case replyWrite.replyRead => exact absurd intact' (apart length intact)
  all_goals first | rfl | exact absurd type (by decide)

/-- Whatever byte of a valid packet is changed, and to whatever value, what is decoded is not valid; for the
instruction byte, as long as it stays one of a command or one of a reply. -/
theorem not_valid_decode_set {bytes : Bytes} {p : Packet} (decoded : decode bytes = some p)
    (valid : p.valid = true) {i : Nat} {v : UInt8} (h : i < bytes.length) (ne : v ≠ bytes[i])
    (type : i = 2 → Instruction.typeBits v = Instruction.typeBits bytes[i]) :
    ∃ q, decode (bytes.set i v) = some q ∧ q.valid = false := by
  have intact := (valid_iff_intact decoded).mp valid
  obtain ⟨hlen, instruction, hinstruction, hbits⟩ := typeBits_of_decode decoded
  -- the changed packet is decoded, as one of the same type
  obtain ⟨instruction', hinstruction', hbits'⟩ : ∃ instruction', (bytes.set i v)[2]? = some instruction' ∧
      Instruction.typeBits instruction' = p.kind.typeBits := by
    rw [List.getElem?_set]
    split
    · next hi =>
      subst hi
      rw [List.getElem?_eq_getElem h, Option.some.injEq] at hinstruction
      exact ⟨v, rfl, by rw [type rfl, hinstruction, hbits]⟩
    · exact ⟨instruction, hinstruction, hbits⟩
  have hlen' : (bytes.set i v).length = bytes.length := List.length_set
  obtain ⟨q, hq⟩ := exists_decode (hlen'.symm ▸ hlen) hinstruction' hbits'
  have hkind : q.kind.typeBits = p.kind.typeBits := by
    obtain ⟨-, instruction'', hinstruction'', hbits''⟩ := typeBits_of_decode hq
    rw [hinstruction', Option.some.injEq] at hinstruction''
    rw [← hbits'', ← hinstruction'', hbits']
  refine ⟨q, hq, Bool.eq_false_iff.mpr fun hvalid => ?_⟩
  -- if it were valid the two checksums would be zero as before, and one of them has changed
  have intact' := (valid_iff_intact hq).mp hvalid
  have hheader := headerLength_eq hkind hlen' intact' intact
  rcases crc8_take_or_drop_set_ne h ne p.kind.headerLength with hne | hne
  · refine hne ?_
    rw [intact.header, ← hheader, intact'.header]
  · refine hne ?_
    rw [intact.data, ← hheader, intact'.data]

/-- The reply to a command that reads two bytes. -/
def readReply : Bytes :=
  let header := [0x67, 1, 0x0C, 0, 0xFE, 0, 7, 0, 0, 0, 2]
  header ++ [crc8 header, 0xDE, 0xAD, crc8 [0xDE, 0xAD]]

/-- With the write flag set the reply looks like a shorter one, and is not taken for it. -/
theorem not_valid_decode_set_writeFlag :
    (decode readReply).map valid = some true ∧ (0x2C : UInt8) ≠ readReply[2] ∧
      Instruction.typeBits 0x2C = Instruction.typeBits readReply[2] ∧
      ∃ q, decode (readReply.set 2 0x2C) = some q ∧ q.valid = false := by
  have hvalid : (decode readReply).map valid = some true := by decide +kernel
  have ne : (0x2C : UInt8) ≠ readReply[2] := by decide
  have type : Instruction.typeBits 0x2C = Instruction.typeBits readReply[2] := by decide
  obtain ⟨p, decoded, valid⟩ := Option.map_eq_some_iff.mp hvalid
  exact ⟨hvalid, ne, type, not_valid_decode_set decoded valid _ ne fun _ => type⟩

end Packet

end Rmap

end GroundStation
