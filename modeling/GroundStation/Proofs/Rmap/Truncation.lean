/-
# Packets that are cut short

Of two intact packets of one kind, one of which begins the other, the header is the same, and so is the
length that it announces.  What follows a header is data with a checksum behind it, and where the header
announces no data there may be a checksum of it or none; nothing else is left open.  So the shorter of the
two is a bare header and the longer has one byte more (`Intact.cases_of_prefix`).

A command without data is encoded without a checksum of it, so a command that is cut short is never valid.
The reply to a command that reads always has the checksum, also of no data.  That one byte can be cut
off, and nothing shows it (`valid_cut_iff`).
-/
import GroundStation.Proofs.Rmap.RoundTrip

namespace GroundStation

namespace Rmap

/-! ## One intact packet in front of another -/

theorem PacketKind.lengthAt?_lt {kind : PacketKind} {place : Nat} (h : kind.lengthAt? = some place) :
    place + 3 < kind.headerLength := by
  cases kind <;> cases h <;> decide

theorem PacketKind.one_lt_headerLength (kind : PacketKind) : 1 < kind.headerLength := by
  cases kind <;> decide

/-- A field that both hold is the same in a byte string and in what it begins. -/
theorem field_eq_of_prefix {cut bytes : Bytes} (begins : cut <+: bytes) (place width : Nat)
    (held : place + width ≤ cut.length) : (cut.drop place).take width = (bytes.drop place).take width := by
  obtain ⟨more, rfl⟩ := begins
  have hwidth : width ≤ (cut.drop place).length := by
    rw [List.length_drop]
    omega
  rw [List.drop_append_of_le_length (by omega), List.take_append_of_le_length hwidth]

/-- Of two intact packets of one kind one may begin the other only as a bare header begins the same header
with the checksum of no data. -/
theorem Intact.cases_of_prefix {kind : PacketKind} {cut bytes : Bytes} (short : Intact kind cut)
    (long : Intact kind bytes) (begins : cut <+: bytes) :
    cut = bytes ∨ (kind.lengthAt? ≠ none ∧ cut.length = kind.headerLength ∧
      bytes.length = kind.headerLength + 1) := by
  have hle : cut.length ≤ bytes.length := begins.length_le
  have hwhole : kind.headerLength ≤ cut.length := short.whole
  have hshort := short.announced
  have hlong := long.announced
  cases hplace : kind.lengthAt? with
  | none =>
    rw [hplace] at hshort hlong
    have hcut : cut.length ≤ kind.headerLength := List.drop_eq_nil_iff.mp hshort
    have hbytes : bytes.length ≤ kind.headerLength := List.drop_eq_nil_iff.mp hlong
    exact .inl (begins.eq_of_length (by omega))
  | some place =>
    rw [hplace] at hshort hlong
    have hfield := field_eq_of_prefix begins place 3
      (Nat.le_trans (Nat.le_of_lt (PacketKind.lengthAt?_lt hplace)) hwhole)
    have hsame : (cut.drop kind.headerLength).dropLast.length =
        (bytes.drop kind.headerLength).dropLast.length := by
      rw [hshort, hlong, hfield]
    simp only [List.length_dropLast, List.length_drop] at hsame
    by_cases heq : cut.length = bytes.length
    · exact .inl (begins.eq_of_length heq)
    · exact .inr ⟨Option.some_ne_none place, by omega, by omega⟩

/-- A header with the checksum of no data behind it is as intact without. -/
theorem Intact.take_header {kind : PacketKind} {bytes : Bytes} (intact : Intact kind bytes)
    (announces : kind.lengthAt? ≠ none) (length : bytes.length = kind.headerLength + 1) :
    Intact kind (bytes.take kind.headerLength) := by
  have hlength : (bytes.take kind.headerLength).length = kind.headerLength := by
    rw [List.length_take]
    omega
  have hrest : (bytes.take kind.headerLength).drop kind.headerLength = [] :=
    List.drop_eq_nil_iff.mpr (Nat.le_of_eq hlength)
  constructor
  case protocol =>
    rw [List.getElem?_take_of_lt kind.one_lt_headerLength]
    exact intact.protocol
  case whole => exact Nat.le_of_eq hlength.symm
  case header =>
    rw [List.take_take, Nat.min_self]
    exact intact.header
  case data => rw [hrest, crc8_nil]
  case announced =>
    obtain ⟨place, hplace⟩ := Option.ne_none_iff_exists'.mp announces
    have hannounced := intact.announced
    rw [hplace] at hannounced ⊢
    rw [hrest]
    have hnothing : (bytes.drop kind.headerLength).dropLast.length = 0 := by
      simp only [List.length_dropLast, List.length_drop]
      omega
    have hheld : place + 3 ≤ (bytes.take kind.headerLength).length :=
      Nat.le_trans (Nat.le_of_lt (PacketKind.lengthAt?_lt hplace)) (Nat.le_of_eq hlength.symm)
    have hfield := field_eq_of_prefix (List.take_prefix kind.headerLength bytes) place 3 hheld
    rw [Announced, hnothing] at hannounced
    rw [Announced, hfield, ← hannounced]
    rfl

/-! ## The kind of what is decoded -/

/-- Whether packets of a kind write. -/
def PacketKind.writes : PacketKind → Bool
  | commandRead => false
  | commandWrite => true
  | replyRead => false
  | replyWrite => true

theorem PacketKind.eq_of_flags {kind kind' : PacketKind} (type : kind.typeBits = kind'.typeBits)
    (write : kind.writes = kind'.writes) : kind = kind' := by
  cases kind <;> cases kind' <;> first | rfl | contradiction

namespace Packet

variable {b₀ b₁ b₂ b₃ b₄ b₅ b₆ b₇ : UInt8} {rest : Bytes}

theorem instruction_ofCommand : (ofCommand b₀ b₁ b₂ b₃ b₄ b₅ b₆ b₇ rest).instruction = b₂ := by
  unfold ofCommand
  dsimp only
  split
  · split
    · split
      · split <;> rfl
      · rfl
    · rfl
  · rfl

theorem instruction_ofReply : (ofReply b₀ b₁ b₂ b₃ b₄ b₅ b₆ b₇ rest).instruction = b₂ := by
  unfold ofReply
  dsimp only
  split
  · rfl
  · split
    · split <;> rfl
    · rfl

/-- What is decoded has the instruction byte that stands in the packet, and writes if that says so. -/
theorem instruction_of_decode {bytes : Bytes} {p : Packet} (h : decode bytes = some p) :
    bytes[2]? = some p.instruction ∧ Instruction.write p.instruction = p.kind.writes := by
  unfold decode at h
  split at h
  · next b₀ b₁ b₂ b₃ b₄ b₅ b₆ b₇ rest =>
    split at h
    · cases h
      rw [instruction_ofCommand, kind_ofCommand]
      exact ⟨rfl, by cases Instruction.write b₂ <;> rfl⟩
    · split at h
      · cases h
        rw [instruction_ofReply, kind_ofReply]
        exact ⟨rfl, by cases Instruction.write b₂ <;> rfl⟩
      · cases h
  · cases h

/-- A packet that is long enough for a header is decoded as of the kind that its instruction byte tells. -/
theorem exists_decode_of_kind (kind : PacketKind) {bytes : Bytes} {instruction : UInt8}
    (long : 8 ≤ bytes.length) (h : bytes[2]? = some instruction)
    (type : Instruction.typeBits instruction = kind.typeBits)
    (write : Instruction.write instruction = kind.writes) : ∃ p, decode bytes = some p ∧ p.kind = kind := by
  obtain ⟨p, hp⟩ := exists_decode long h type
  obtain ⟨hinstruction, hwrite⟩ := instruction_of_decode hp
  obtain ⟨-, instruction', hinstruction', htype⟩ := typeBits_of_decode hp
  rw [h, Option.some.injEq] at hinstruction hinstruction'
  rw [← hinstruction, write] at hwrite
  rw [← hinstruction', type] at htype
  exact ⟨p, hp, PacketKind.eq_of_flags htype.symm hwrite.symm⟩

/-- What begins a packet and is decoded at all is decoded as of its kind. -/
theorem decode_of_prefix {cut bytes : Bytes} (begins : cut <+: bytes) {q : Packet} (h : decode cut = some q) :
    ∃ p, decode bytes = some p ∧ p.kind = q.kind := by
  obtain ⟨hinstruction, hwrite⟩ := instruction_of_decode h
  obtain ⟨hlength, instruction, hcut, htype⟩ := typeBits_of_decode h
  rw [hcut, Option.some.injEq] at hinstruction
  rw [← hinstruction] at hwrite
  refine exists_decode_of_kind q.kind (Nat.le_trans hlength begins.length_le) ?_ htype hwrite
  obtain ⟨more, rfl⟩ := begins
  rw [List.getElem?_append_left (by omega), hcut]

end Packet

/-! ## Replies -/

theorem write_reply (instruction : UInt8) :
    Instruction.write (instruction &&& 0x3F) = Instruction.write instruction := by
  have hmask : (instruction &&& 0x3F) &&& 0x20 = instruction &&& 0x20 := by
    rw [UInt8.and_assoc]
    rfl
  rw [Instruction.write, Instruction.write, hmask]

/-- A header with its checksum, and behind it what it announces. -/
theorem intact_of_header (kind : PacketKind) (header rest : Bytes)
    (length : header.length + 1 = kind.headerLength) (protocol : header[1]? = some protocolId)
    (data : crc8 rest = 0) (announced : Announced (header ++ [crc8 header] ++ rest) rest
      kind.lengthAt?) : Intact kind (header ++ [crc8 header] ++ rest) := by
  have hlength : (header ++ [crc8 header]).length = kind.headerLength := by
    rw [List.length_append, ← length]
    rfl
  have hdrop : (header ++ [crc8 header] ++ rest).drop kind.headerLength = rest := by
    rw [← hlength, List.drop_left]
  constructor
  case protocol =>
    have hin : 1 < header.length := (List.getElem?_eq_some_iff.mp protocol).1
    rw [List.append_assoc, List.getElem?_append_left hin, protocol]
  case whole =>
    rw [List.length_append, hlength]
    exact Nat.le_add_right _ _
  case header => rw [← hlength, List.take_left, crc8_append_self]
  case data => rw [hdrop, data]
  case announced =>
    rw [hdrop]
    exact announced

/-- The reply to a decoded command is intact.  To a command that writes it is a bare header, to one that reads
it has the data behind the header, and the checksum of it in any case. -/
theorem intact_encodeReply {bytes : Bytes} {command : Packet} (decoded : Packet.decode bytes = some command)
    {status : UInt8} {data reply : Bytes} (h : encodeReply command status data = some reply) :
    ∃ p, Packet.decode reply = some p ∧ Intact p.kind reply ∧
      ((command.kind = .commandWrite ∧ p.kind = .replyWrite) ∨
        command.kind = .commandRead ∧ p.kind = .replyRead ∧ reply.length = 12 + data.length + 1) := by
  have hwrite := (Packet.instruction_of_decode decoded).2
  rw [← write_reply] at hwrite
  have htype := typeBits_reply command.instruction
  obtain ⟨i₁, i₀, hid⟩ : ∃ i₁ i₀, bigEndianBytes 2 command.transactionId.toNat = [i₁, i₀] := ⟨_, _, rfl⟩
  unfold encodeReply at h
  rw [hid] at h
  dsimp only at h
  split at h
  · next hkind =>
    cases h
    rw [hkind] at hwrite
    have intact := intact_of_header .replyWrite ([command.initiator, protocolId, command.instruction &&& 0x3F,
      status, command.target] ++ [i₁, i₀]) [] rfl rfl rfl rfl
    rw [List.append_nil] at intact
    obtain ⟨p, hp, hreply⟩ := Packet.exists_decode_of_kind .replyWrite intact.whole rfl htype hwrite
    exact ⟨p, hp, hreply ▸ intact, .inl ⟨hkind, hreply⟩⟩
  · next hkind =>
    split at h
    · cases h
    · next hfits =>
      cases h
      rw [hkind] at hwrite
      obtain ⟨l₂, l₁, l₀, hlength⟩ : ∃ l₂ l₁ l₀, bigEndianBytes 3 data.length = [l₂, l₁, l₀] := ⟨_, _, _, rfl⟩
      have hannounced : bigEndian [l₂, l₁, l₀] = data.length := by
        rw [← hlength, bigEndian_bigEndianBytes]
        exact Nat.mod_eq_of_lt (Nat.lt_succ_of_le (Nat.le_of_not_lt hfits))
      have intact := intact_of_header .replyRead ([command.initiator, protocolId,
        command.instruction &&& 0x3F, status, command.target] ++ [i₁, i₀] ++ [0] ++ [l₂, l₁, l₀])
        (data ++ [crc8 data]) rfl rfl (crc8_append_self data) (by
          rw [PacketKind.lengthAt?, Announced, List.dropLast_concat]
          exact hannounced.symm)
      rw [hlength, List.append_assoc _ data]
      have long := Nat.le_trans (by decide : 8 ≤ PacketKind.headerLength .replyRead) intact.whole
      obtain ⟨p, hp, hreply⟩ := Packet.exists_decode_of_kind .replyRead long rfl htype hwrite
      exact ⟨p, hp, hreply ▸ intact, .inr ⟨hkind, hreply, by simp; omega⟩⟩
  · cases h
  · cases h

/-! ## Commands -/

/-- No encoded command is a header with one byte behind it: data comes with its checksum, and no data with
nothing. -/
theorem length_encode_ne {codec codec' : Codec} {command : Command} {packet : Bytes}
    (h : codec.encode command = (.ok packet, codec')) : packet.length ≠ 17 := by
  obtain ⟨data, hdata, -⟩ := encode_eq_ok_iff.mp h
  rw [length_of_encode h hdata, length_sealed]
  split
  · decide
  · next hdata =>
    have hpos := List.length_pos_iff.mpr hdata
    omega

/-- An encoded command is a command. -/
theorem headerLength_of_encode {codec codec' : Codec} {command : Command} {packet : Bytes} {p : Packet}
    (h : codec.encode command = (.ok packet, codec')) (decoded : Packet.decode packet = some p) :
    p.kind.headerLength = 16 := by
  obtain ⟨data, p', -, hp', conveys⟩ := conveys_of_encode h
  rw [decoded, Option.some.injEq] at hp'
  rw [hp', conveys.kind]
  cases command.write <;> rfl

/-! ## What is sent -/

/-- What an initiator and a target send: encoded commands that are valid, and replies to decoded commands. -/
inductive Sent : Bytes → Prop
  | command {codec codec' : Codec} {command : Command} {packet : Bytes} {p : Packet} :
      codec.encode command = (.ok packet, codec') → Packet.decode packet = some p → p.valid = true →
        Sent packet
  | reply {bytes packet : Bytes} {command : Packet} {status : UInt8} {data : Bytes} :
      Packet.decode bytes = some command → encodeReply command status data = some packet → Sent packet

/-- The reply to a decoded command that reads, with no data. -/
def EmptyReply (packet : Bytes) : Prop :=
  ∃ bytes command status, Packet.decode bytes = some command ∧ command.kind = .commandRead ∧
    encodeReply command status [] = some packet

theorem Sent.intact {packet : Bytes} (sent : Sent packet) :
    ∃ p, Packet.decode packet = some p ∧ Intact p.kind packet := by
  cases sent with
  | command _ decoded valid => exact ⟨_, decoded, (Packet.valid_iff_intact decoded).mp valid⟩
  | reply decoded reply =>
    obtain ⟨p, hp, hintact, -⟩ := intact_encodeReply decoded reply
    exact ⟨p, hp, hintact⟩

/-- What is sent as a header that announces a length with one byte behind it is the reply to a read, with
no data. -/
theorem Sent.emptyReply {packet : Bytes} (sent : Sent packet) {p : Packet}
    (decoded : Packet.decode packet = some p) (announces : p.kind.lengthAt? ≠ none)
    (length : packet.length = p.kind.headerLength + 1) : EmptyReply packet := by
  cases sent with
  | command encoded =>
    rw [headerLength_of_encode encoded decoded] at length
    exact absurd length (length_encode_ne encoded)
  | @reply bytes packet command status data hcommand reply =>
    obtain ⟨p', hp', -, hkind⟩ := intact_encodeReply hcommand reply
    rw [decoded, Option.some.injEq] at hp'
    subst hp'
    rcases hkind with ⟨-, hkind⟩ | ⟨hread, hkind, hlength⟩
    · rw [hkind] at announces
      exact absurd rfl announces
    · rw [hlength, hkind] at length
      have hdata : data = [] := List.length_eq_zero_iff.mp (by
        rw [PacketKind.headerLength] at length
        omega)
      exact ⟨bytes, command, status, hcommand, hread, hdata ▸ reply⟩

theorem EmptyReply.shape {packet : Bytes} (h : EmptyReply packet) :
    ∃ p, Packet.decode packet = some p ∧ p.kind = .replyRead ∧ Intact .replyRead packet ∧
      packet.length = 13 := by
  obtain ⟨bytes, command, status, decoded, hread, reply⟩ := h
  obtain ⟨p, hp, intact, ⟨hwrite, -⟩ | ⟨-, hkind, hlength⟩⟩ := intact_encodeReply decoded reply
  · rw [hread] at hwrite
    cases hwrite
  · exact ⟨p, hp, hkind, hkind ▸ intact, hlength⟩

/-- A proper part of a packet that is sent, from its beginning, is decoded as valid if and only if the packet
is the reply to a read with no data and its last byte alone is cut off.  Every other part is not decoded or is
not valid. -/
theorem valid_cut_iff {packet cut : Bytes} (sent : Sent packet) (begins : cut <+: packet)
    (proper : cut ≠ packet) :
    (∃ p, Packet.decode cut = some p ∧ p.valid = true) ↔
      EmptyReply packet ∧ cut.length + 1 = packet.length := by
  constructor
  · rintro ⟨q, hq, hvalid⟩
    have short := (Packet.valid_iff_intact hq).mp hvalid
    obtain ⟨p, hp, hkind⟩ := Packet.decode_of_prefix begins hq
    obtain ⟨p', hp', long⟩ := sent.intact
    rw [hp, Option.some.injEq] at hp'
    subst hp'
    rw [hkind] at long
    rcases short.cases_of_prefix long begins with heq | ⟨announces, hcut, hpacket⟩
    · exact absurd heq proper
    · rw [← hkind] at announces
      exact ⟨sent.emptyReply hp announces (hkind ▸ hpacket), by rw [hcut, hpacket]⟩
  · rintro ⟨empty, hlength⟩
    obtain ⟨p, hp, hkind, intact, hthirteen⟩ := empty.shape
    have hcut : cut = packet.take 12 := by
      rw [List.prefix_iff_eq_take.mp begins, Nat.succ.inj (hlength.trans hthirteen)]
    have short : Intact .replyRead (packet.take 12) := intact.take_header (Option.some_ne_none 8) hthirteen
    rw [← hcut] at short
    obtain ⟨-, instruction, hinstruction, htype⟩ := Packet.typeBits_of_decode hp
    obtain ⟨hinstruction', hwrite⟩ := Packet.instruction_of_decode hp
    rw [hinstruction, Option.some.injEq] at hinstruction'
    rw [← hinstruction'] at hwrite
    have hin : cut[2]? = some instruction := by
      rw [hcut, List.getElem?_take_of_lt (by omega), hinstruction]
    have long : 8 ≤ cut.length := by omega
    obtain ⟨q, hq, hkind'⟩ := Packet.exists_decode_of_kind p.kind long hin htype hwrite
    rw [hkind] at hkind'
    exact ⟨q, hq, (Packet.valid_iff_intact hq).mpr (hkind' ▸ short)⟩

/-- Three bytes to write, the second of which is the checksum of the first. -/
def misleadingWrite : Command := .toWrite 0x1000 "0xde6605" true

/-- The packet of it. -/
def misleadingPacket : Bytes :=
  let header := (Codec.start 0xFE 0x67 0x20).header misleadingWrite 3
  header ++ [crc8 header] ++ [0xDE, 0x66, 0x05, crc8 [0xDE, 0x66, 0x05]]

/-- Cut behind the byte that plays the checksum, the packet is not valid although that checksum is right. -/
theorem valid_cut_iff_misleading :
    Sent misleadingPacket ∧ misleadingPacket.take 18 <+: misleadingPacket ∧
      misleadingPacket.take 18 ≠ misleadingPacket ∧
      (Packet.decode (misleadingPacket.take 18)).map Packet.dataCrcValid = some true ∧
      ¬∃ p, Packet.decode (misleadingPacket.take 18) = some p ∧ p.valid = true := by
  have encoded : (Codec.start 0xFE 0x67 0x20).encode misleadingWrite =
      (.ok misleadingPacket, (Codec.start 0xFE 0x67 0x20).advance) :=
    encode_eq_ok_iff.mpr ⟨[0xDE, 0x66, 0x05], rfl, by decide, rfl, rfl⟩
  have hvalid : (Packet.decode misleadingPacket).map Packet.valid = some true := by decide +kernel
  have hcrc : (Packet.decode (misleadingPacket.take 18)).map Packet.dataCrcValid = some true := by
    decide +kernel
  have proper : misleadingPacket.take 18 ≠ misleadingPacket := by decide +kernel
  obtain ⟨p, decoded, valid⟩ := Option.map_eq_some_iff.mp hvalid
  have sent := Sent.command encoded decoded valid
  have begins := List.take_prefix 18 misleadingPacket
  refine ⟨sent, begins, proper, hcrc, fun h => ?_⟩
  exact absurd ((valid_cut_iff sent begins proper).mp h).2 (by decide +kernel)

/-- A command that reads four bytes. -/
def readFour : Bytes := [0x32, 1, 0x4C, 0x20, 0x20, 0, 1, 0, 0, 0, 0x12, 0x34, 0, 0, 4, 0x8D]

/-- The reply to it with no data. -/
def emptyReply : Bytes := [0x20, 1, 0x0C, 0, 0x32, 0, 1, 0, 0, 0, 0, 0xAC, 0]

/-- Without its last byte the reply to a read with no data is valid. -/
theorem valid_dropLast_emptyReply :
    (∃ command, Packet.decode readFour = some command ∧ encodeReply command 0 [] = some emptyReply) ∧
      emptyReply.dropLast <+: emptyReply ∧ emptyReply.dropLast ≠ emptyReply ∧
      ∃ p, Packet.decode emptyReply.dropLast = some p ∧ p.valid = true := by
  have hreply : ((Packet.decode readFour).bind fun command => encodeReply command 0 []) =
      some emptyReply := by decide +kernel
  have hvalid : (Packet.decode emptyReply.dropLast).map Packet.valid = some true := by decide +kernel
  exact ⟨Option.bind_eq_some_iff.mp hreply, List.dropLast_prefix emptyReply, by decide,
    Option.map_eq_some_iff.mp hvalid⟩

end Rmap

end GroundStation
