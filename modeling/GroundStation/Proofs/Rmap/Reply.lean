/-
# What a reply tells its initiator

A target replies to whatever it could decode as a command, be it valid or not.  Its reply is decoded as valid
all the same, and tells the command that it answers: both addresses, the transaction id and the flags are the
ones of the command, only the type is another (`Packet.Answers`).

The initiator that waits looks at the id first.  A reply that bears another id is passed over, whatever else
it says; with the right id it is accepted if its kind is the one that is waited for and its status is zero, and
fails the exchange if not (`judge_encodeReply`).
-/
import GroundStation.Link.Rmap
import GroundStation.Proofs.Rmap.Truncation

namespace GroundStation

namespace Rmap

/-- The kind of the replies to packets of a kind. -/
def PacketKind.answer? : PacketKind → Option PacketKind
  | commandRead => some replyRead
  | commandWrite => some replyWrite
  | replyRead => none
  | replyWrite => none

/-- A packet answers a command with a status, and with data where the command reads. -/
structure Packet.Answers (p command : Packet) (status : UInt8) (data : Bytes) : Prop where
  valid : p.valid = true
  kind : command.kind.answer? = some p.kind
  initiator : p.initiator = command.initiator
  target : p.target = command.target
  transactionId : p.transactionId = command.transactionId
  write : Instruction.write p.instruction = Instruction.write command.instruction
  verify : Instruction.verify p.instruction = Instruction.verify command.instruction
  reply : Instruction.reply p.instruction = Instruction.reply command.instruction
  increment : Instruction.increment p.instruction = Instruction.increment command.instruction
  status : p.status = some status
  data : command.kind = .commandRead → p.data = data

/-! ## The fields of a reply -/

theorem Packet.front_ofReply (b₀ b₁ b₂ b₃ b₄ b₅ b₆ b₇ : UInt8) (rest : Bytes) :
    (ofReply b₀ b₁ b₂ b₃ b₄ b₅ b₆ b₇ rest).initiator = b₀ ∧
      (ofReply b₀ b₁ b₂ b₃ b₄ b₅ b₆ b₇ rest).status = some b₃ ∧
      (ofReply b₀ b₁ b₂ b₃ b₄ b₅ b₆ b₇ rest).target = b₄ := by
  unfold ofReply
  dsimp only
  split
  · exact ⟨rfl, rfl, rfl⟩
  · split
    · split <;> exact ⟨rfl, rfl, rfl⟩
    · exact ⟨rfl, rfl, rfl⟩

/-- The flags are none of the bits that a reply clears. -/
theorem flags_reply (instruction : UInt8) :
    Instruction.verify (instruction &&& 0x3F) = Instruction.verify instruction ∧
      Instruction.reply (instruction &&& 0x3F) = Instruction.reply instruction ∧
      Instruction.increment (instruction &&& 0x3F) = Instruction.increment instruction := by
  simp only [Instruction.verify, Instruction.reply, Instruction.increment, UInt8.and_assoc]
  exact ⟨rfl, rfl, rfl⟩

/-- A reply begins with the command's front, and the reply to a command that reads ends with the data. -/
theorem exists_front_encodeReply {command : Packet} {status : UInt8} {data bytes : Bytes}
    (h : encodeReply command status data = some bytes) :
    ∃ i₁ i₀ eighth rest, bytes = command.initiator :: protocolId :: (command.instruction &&& 0x3F) :: status ::
        command.target :: i₁ :: i₀ :: eighth :: rest ∧
      (bigEndian [i₁, i₀]).toUInt16 = command.transactionId ∧
      (command.kind = .commandRead → ∃ l₂ l₁ l₀ crc, rest = l₂ :: l₁ :: l₀ :: crc :: (data ++ [crc8 data])) := by
  have hid := toUInt16_bigEndian_bigEndianBytes command.transactionId
  obtain ⟨i₁, i₀, hi⟩ : ∃ i₁ i₀, bigEndianBytes 2 command.transactionId.toNat = [i₁, i₀] := ⟨_, _, rfl⟩
  rw [hi] at hid
  unfold encodeReply at h
  rw [hi] at h
  dsimp only at h
  split at h
  · next hkind =>
    cases h
    refine ⟨i₁, i₀, _, [], rfl, hid, fun hread => ?_⟩
    rw [hkind] at hread
    cases hread
  · split at h
    · cases h
    · obtain ⟨l₂, l₁, l₀, hl⟩ : ∃ l₂ l₁ l₀, bigEndianBytes 3 data.length = [l₂, l₁, l₀] := ⟨_, _, _, rfl⟩
      rw [hl] at h
      cases h
      exact ⟨i₁, i₀, 0, l₂ :: l₁ :: l₀ :: _ :: (data ++ [crc8 data]), List.append_assoc _ data _, hid,
        fun _ => ⟨_, _, _, _, rfl⟩⟩
  · cases h
  · cases h

/-- There is a reply to every command, with data that is not too long. -/
theorem exists_encodeReply {command : Packet} {kind : PacketKind} (answered : command.kind.answer? = some kind)
    (status : UInt8) {data : Bytes} (fits : data.length ≤ maxDataLength) :
    ∃ bytes, encodeReply command status data = some bytes := by
  unfold encodeReply
  cases hkind : command.kind with
  | commandWrite => exact ⟨_, rfl⟩
  | commandRead =>
    dsimp only
    rw [if_neg (Nat.not_lt_of_le fits)]
    exact ⟨_, rfl⟩
  | replyRead | replyWrite =>
    rw [hkind] at answered
    cases answered

/-- There is no reply to a reply. -/
theorem encodeReply_of_reply {command : Packet} (reply : command.kind.answer? = none) (status : UInt8)
    (data : Bytes) : encodeReply command status data = none := by
  unfold encodeReply
  cases hkind : command.kind with
  | replyRead | replyWrite => rfl
  | commandRead | commandWrite =>
    rw [hkind] at reply
    cases reply

/-- The reply to a decoded command is decoded, and answers it. -/
theorem answers_encodeReply {bytes : Bytes} {command : Packet} (decoded : Packet.decode bytes = some command)
    {status : UInt8} {data reply : Bytes} (h : encodeReply command status data = some reply) :
    ∃ p, Packet.decode reply = some p ∧ p.Answers command status data := by
  obtain ⟨p, hp, intact, hkind⟩ := intact_encodeReply decoded h
  obtain ⟨i₁, i₀, eighth, rest, rfl, hid, hrest⟩ := exists_front_encodeReply h
  have hreply := hp.symm.trans (Packet.decode_eq_ofReply command.initiator (typeBits_reply command.instruction))
  rw [Option.some.injEq] at hreply
  obtain ⟨hinitiator, hstatus, htarget⟩ := Packet.front_ofReply command.initiator protocolId
    (command.instruction &&& 0x3F) status command.target i₁ i₀ eighth rest
  obtain ⟨hverify, hflag, hincrement⟩ := flags_reply command.instruction
  have hinstruction : p.instruction = command.instruction &&& 0x3F := by
    rw [hreply, Packet.instruction_ofReply]
  refine ⟨p, hp, ?_⟩
  constructor
  case valid => exact (Packet.valid_iff_intact hp).mpr intact
  case kind =>
    rcases hkind with ⟨hcommand, hkind⟩ | ⟨hcommand, hkind, -⟩
    · rw [hcommand, hkind, PacketKind.answer?]
    · rw [hcommand, hkind, PacketKind.answer?]
  case initiator => rw [hreply, hinitiator]
  case target => rw [hreply, htarget]
  case transactionId => rw [hreply, Packet.transactionId_ofReply, hid]
  case write => rw [hinstruction, write_reply]
  case verify => rw [hinstruction, hverify]
  case reply => rw [hinstruction, hflag]
  case increment => rw [hinstruction, hincrement]
  case status => rw [hreply, hstatus]
  case data =>
    intro hread
    obtain ⟨l₂, l₁, l₀, crc, rfl⟩ := hrest hread
    have hwrite := (Packet.instruction_of_decode decoded).2
    rw [← write_reply, hread] at hwrite
    rw [hreply, Packet.ofReply_read hwrite, List.dropLast_concat]

/-! ## What the initiator makes of it -/

/-- A frame with a valid packet is judged by the packet's id, and then by its kind and status. -/
theorem judge_of_valid {frame : Bytes} {p : Packet} (decoded : Packet.decode frame = some p)
    (valid : p.valid = true) (id : UInt16) (kind : PacketKind) :
    judge id kind frame =
      if id = p.transactionId then if kind = p.kind ∧ p.status = some 0 then .accepted p else .rejected
      else .stale := by
  simp only [judge, decoded, valid, true_and, ne_eq, ite_not, @eq_comm _ p.transactionId, @eq_comm _ p.kind]

/-- A reply is decoded as no command and is not answered.  A command that was decoded, valid or not, is
answered with any status and any data that is not too long; the answer is valid and tells the command, the
status and the data.  An initiator that waits accepts it if and only if it waits for this id and kind and the
status is zero, passes over it if it waits for another id, and else fails. -/
theorem judge_encodeReply (command : Packet) (status : UInt8) (data : Bytes) :
    (command.kind.answer? = none → encodeReply command status data = none) ∧
    ∀ bytes kind, Packet.decode bytes = some command → command.kind.answer? = some kind →
      data.length ≤ maxDataLength →
      ∃ reply p, encodeReply command status data = some reply ∧ Packet.decode reply = some p ∧
        p.Answers command status data ∧
        ∀ id expected, judge id expected reply =
          if id = command.transactionId then if expected = kind ∧ status = 0 then .accepted p else .rejected
          else .stale := by
  refine ⟨fun reply => encodeReply_of_reply reply status data, ?_⟩
  intro bytes kind decoded answered fits
  obtain ⟨reply, hreply⟩ := exists_encodeReply answered status fits
  obtain ⟨p, hp, answers⟩ := answers_encodeReply decoded hreply
  refine ⟨reply, p, hreply, hp, answers, ?_⟩
  intro id expected
  have hkind : p.kind = kind := Option.some.inj (answers.kind.symm.trans answered)
  simp only [judge_of_valid hp answers.valid, answers.transactionId, answers.status, hkind, Option.some.injEq]

/-- A command to read of which only the first eight bytes have come. -/
def brokenOff : Bytes := readFour.take 8

/-- It is not valid, and answered: the answer is accepted, but not with another id or for another kind. -/
theorem judge_encodeReply_brokenOff :
    ∃ command, Packet.decode brokenOff = some command ∧ command.valid = false ∧
      command.kind.answer? = some .replyRead ∧ [0xDE, 0xAD].length ≤ maxDataLength ∧
      ∃ reply p, encodeReply command 0 [0xDE, 0xAD] = some reply ∧ Packet.decode reply = some p ∧
        p.Answers command 0 [0xDE, 0xAD] ∧ judge 1 .replyRead reply = .accepted p ∧
        judge 2 .replyRead reply = .stale ∧ judge 1 .replyWrite reply = .rejected := by
  obtain ⟨command, decoded, hvalid, hkind, hid⟩ : ∃ command, Packet.decode brokenOff = some command ∧
      command.valid = false ∧ command.kind = .commandRead ∧ command.transactionId = 1 :=
    ⟨_, rfl, rfl, rfl, rfl⟩
  have answered : command.kind.answer? = some .replyRead := by rw [hkind, PacketKind.answer?]
  have fits : [0xDE, 0xAD].length ≤ maxDataLength := by decide
  obtain ⟨reply, p, hreply, hp, answers, hjudge⟩ :=
    (judge_encodeReply command 0 [0xDE, 0xAD]).2 brokenOff .replyRead decoded answered fits
  refine ⟨command, decoded, hvalid, answered, fits, reply, p, hreply, hp, answers, ?_, ?_, ?_⟩
  · rw [hjudge, hid]
    rfl
  · rw [hjudge, hid]
    rfl
  · rw [hjudge, hid]
    rfl

end Rmap

end GroundStation
