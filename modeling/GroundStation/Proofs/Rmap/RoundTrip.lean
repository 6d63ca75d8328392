/-
# Commands come back as they were given

A command is encoded where its data is hexadecimal and the length it announces has no more than 24 bits, and
in no other case.  The packet then decodes, and every field of it is the one of the command or of the codec
that encoded it (`encode_roundTrip`).

The length that a command announces need not be the one of its data, so an encoded command need not be
valid: one that writes is valid if the two agree, and one that reads if it has no data.
-/
import GroundStation.Proofs.Rmap.Integrity
import GroundStation.Proofs.Rmap.Transaction

namespace GroundStation

/-! ## Hexadecimal data -/

namespace Hex

theorem length_of_decode? : ∀ {t : Text} {bytes : Bytes}, decode? t = some bytes →
    t.length = 2 * bytes.length
  | [], _, h => by
      cases h
      rfl
  | [_], _, h => by cases h
  | a :: b :: t, bytes, h => by
      rw [decode?] at h
      split at h
      · next hrest =>
        cases h
        rw [List.length_cons, List.length_cons, List.length_cons, length_of_decode? hrest]
        omega
      · cases h

/-- A text is read if and only if it is an even number of digits. -/
theorem exists_decode?_iff : ∀ {t : Text},
    (∃ bytes, decode? t = some bytes) ↔ t.length % 2 = 0 ∧ allDigits t = true
  | [] => iff_of_true ⟨[], rfl⟩ ⟨rfl, rfl⟩
  | [_] => by
      refine iff_of_false ?_ fun h => absurd h.1 (by simp)
      rintro ⟨bytes, h⟩
      cases h
  | a :: b :: t => by
      have hlength : (a :: b :: t).length % 2 = t.length % 2 := by
        rw [List.length_cons, List.length_cons]
        omega
      have hdigits : allDigits (a :: b :: t) = ((value? a).isSome && ((value? b).isSome && allDigits t)) :=
        rfl
      have hrest := exists_decode?_iff (t := t)
      rw [hlength, hdigits, decode?]
      cases value? a with
      | none => simp
      | some hi =>
        cases value? b with
        | none => simp
        | some lo =>
          rw [Option.isSome_some, Option.isSome_some, Bool.true_and, Bool.true_and, ← hrest]
          cases decode? t <;> simp

end Hex

namespace Rmap

/-- Data that is hexadecimal: an even number of digits, perhaps with `0x` in front. -/
def HexData (t : Text) : Prop := (hexBody t).length % 2 = 0 ∧ Hex.allDigits (hexBody t) = true

instance (t : Text) : Decidable (HexData t) := inferInstanceAs (Decidable (_ ∧ _))

/-- The length that a command announces: its size, or how many bytes its digits stand for. -/
def Command.announcedLength (c : Command) : Nat :=
  if c.size = 0 then (hexBody c.data).length / 2 else c.size.toNat

theorem exists_readHex_iff {t : Text} : (∃ data, readHex t = .ok data) ↔ HexData t := by
  rw [HexData, ← Hex.exists_decode?_iff, readHex]
  cases Hex.decode? (hexBody t) <;> simp

theorem length_eq_announcedLength {c : Command} {data : Bytes} (h : readHex c.data = .ok data) :
    c.length data = c.announcedLength := by
  rw [readHex] at h
  split at h
  · next bytes hbytes =>
    cases h
    rw [Command.length, Command.announcedLength, Hex.length_of_decode? hbytes]
    simp
  · cases h

theorem encode_eq_ok_iff {c : Codec} {command : Command} {packet : Bytes} {c' : Codec} :
    c.encode command = (.ok packet, c') ↔
      ∃ data, readHex command.data = .ok data ∧ command.length data ≤ maxDataLength ∧
        packet = c.header command (command.length data) ++
          [crc8 (c.header command (command.length data))] ++ Codec.sealed data ∧
        c' = c.advance := by
  unfold Codec.encode
  split
  · next error herror => simp [herror]
  · next data hdata =>
    dsimp only
    split
    · next hmax =>
      simp only [hdata, Except.ok.injEq, Prod.mk.injEq, reduceCtorEq, false_and, false_iff, not_exists]
      rintro _ ⟨rfl, hle, -⟩
      omega
    · next hmax =>
      simp only [hdata, Except.ok.injEq, Prod.mk.injEq]
      constructor
      · rintro ⟨rfl, rfl⟩
        exact ⟨data, rfl, Nat.le_of_not_lt hmax, rfl, rfl⟩
      · rintro ⟨_, rfl, -, rfl, rfl⟩
        exact ⟨rfl, rfl⟩

/-! ## Fields -/

/-- The flags of a command are read off its instruction byte. -/
theorem flags_instruction (c : Command) :
    Instruction.write c.instruction = c.write ∧ Instruction.verify c.instruction = c.verify ∧
      Instruction.reply c.instruction = c.reply ∧ Instruction.increment c.instruction = c.increment := by
  have hall : ∀ write verify reply increment : Bool, ∀ instruction : UInt8,
      instruction = 0x40 ||| (if write then 0x20 else 0) ||| (if verify then 0x10 else 0) |||
        (if reply then 0x08 else 0) ||| (if increment then 0x04 else 0) →
      Instruction.write instruction = write ∧ Instruction.verify instruction = verify ∧
        Instruction.reply instruction = reply ∧ Instruction.increment instruction = increment := by
    rintro write verify reply increment _ rfl
    revert write verify reply increment
    decide
  exact hall c.write c.verify c.reply c.increment _ rfl

theorem toUInt32_bigEndian_bigEndianBytes (address : UInt32) :
    (bigEndian (bigEndianBytes 4 address.toNat)).toUInt32 = address := by
  have hlt : address.toNat < 256 ^ 4 := address.toNat_lt
  rw [bigEndian_bigEndianBytes, Nat.mod_eq_of_lt hlt]
  exact UInt32.ofNat_toNat

/-- Data with its checksum behind it has the checksum zero, and so has no data at all. -/
theorem crc8_sealed (data : Bytes) : crc8 (Codec.sealed data) = 0 := by
  unfold Codec.sealed
  split
  · rfl
  · exact crc8_append_self data

theorem dropLast_sealed (data : Bytes) : (Codec.sealed data).dropLast = data := by
  unfold Codec.sealed
  split
  · next hempty => rw [List.isEmpty_iff.mp hempty, List.dropLast_nil]
  · rw [List.dropLast_concat]

theorem isEmpty_sealed (data : Bytes) : (Codec.sealed data).isEmpty = data.isEmpty := by
  unfold Codec.sealed
  split
  · next hempty => rw [hempty, List.isEmpty_nil]
  · next hempty =>
    rw [Bool.eq_false_iff.mpr hempty]
    simp

theorem length_sealed (data : Bytes) :
    (Codec.sealed data).length = if data = [] then 0 else data.length + 1 := by
  cases data <;> simp [Codec.sealed]

/-- A packet says what a command with this data says, and who sends it. -/
structure Packet.Conveys (p : Packet) (c : Codec) (command : Command) (data : Bytes) : Prop where
  kind : p.kind = if command.write then .commandWrite else .commandRead
  write : Instruction.write p.instruction = command.write
  verify : Instruction.verify p.instruction = command.verify
  reply : Instruction.reply p.instruction = command.reply
  increment : Instruction.increment p.instruction = command.increment
  target : p.target = c.target
  initiator : p.initiator = c.initiator
  key : p.key = some c.key
  transactionId : p.transactionId = c.nextId
  extendedAddress : p.extendedAddress = some command.extendedAddress
  address : p.address = some command.address
  dataLength : p.dataLength = some command.announcedLength
  headerCrcValid : p.headerCrcValid = true
  protocol : p.protocol = protocolId
  valid : p.valid = true ↔
    if command.write then data.length = command.announcedLength else data = []
  data : command.write = true → p.data = data

/-- The bytes of a header, with the three numbers that some of them stand for. -/
theorem exists_header (c : Codec) (command : Command) {length : Nat} (fits : length ≤ maxDataLength) :
    ∃ i₁ i₀ a₃ a₂ a₁ a₀ l₂ l₁ l₀,
      c.header command length = [c.target, protocolId, command.instruction, c.key, c.initiator, i₁, i₀,
        command.extendedAddress, a₃, a₂, a₁, a₀, l₂, l₁, l₀] ∧
      (bigEndian [i₁, i₀]).toUInt16 = c.nextId ∧
      (bigEndian [a₃, a₂, a₁, a₀]).toUInt32 = command.address ∧
      bigEndian [l₂, l₁, l₀] = length := by
  have hid := toUInt16_bigEndian_bigEndianBytes c.nextId
  have haddress := toUInt32_bigEndian_bigEndianBytes command.address
  have hlength : bigEndian (bigEndianBytes 3 length) = length := by
    rw [bigEndian_bigEndianBytes]
    exact Nat.mod_eq_of_lt (Nat.lt_succ_of_le fits)
  obtain ⟨i₁, i₀, hi⟩ : ∃ i₁ i₀, bigEndianBytes 2 c.nextId.toNat = [i₁, i₀] := ⟨_, _, rfl⟩
  obtain ⟨a₃, a₂, a₁, a₀, ha⟩ : ∃ a₃ a₂ a₁ a₀, bigEndianBytes 4 command.address.toNat = [a₃, a₂, a₁, a₀] :=
    ⟨_, _, _, _, rfl⟩
  obtain ⟨l₂, l₁, l₀, hl⟩ : ∃ l₂ l₁ l₀, bigEndianBytes 3 length = [l₂, l₁, l₀] := ⟨_, _, _, rfl⟩
  rw [hi] at hid
  rw [ha] at haddress
  rw [hl] at hlength
  refine ⟨i₁, i₀, a₃, a₂, a₁, a₀, l₂, l₁, l₀, ?_, hid, haddress, hlength⟩
  rw [Codec.header, hi, ha, hl]
  rfl

theorem decode_command_conveys (c : Codec) {command : Command} (data : Bytes) {length : Nat}
    (announced : length = command.announcedLength) (fits : length ≤ maxDataLength) :
    ∃ p, Packet.decode (c.header command length ++ [crc8 (c.header command length)] ++
        Codec.sealed data) = some p ∧ p.Conveys c command data := by
  obtain ⟨i₁, i₀, a₃, a₂, a₁, a₀, l₂, l₁, l₀, hheader, hid, haddress, hlength⟩ :=
    exists_header c command fits
  obtain ⟨hwrite, hverify, hreply, hincrement⟩ := flags_instruction command
  obtain ⟨crc, hcrc⟩ : ∃ crc, crc8 (c.header command length) = crc := ⟨_, rfl⟩
  have hzero : (crc8 (c.header command length ++ [crc]) == 0) = true := by
    rw [← hcrc, crc8_append_self, beq_self_eq_true]
  simp only [hheader, List.cons_append, List.nil_append] at hzero
  rw [hheader] at hcrc ⊢
  rw [hcrc]
  have hdecode : Packet.decode ([c.target, protocolId, command.instruction, c.key, c.initiator, i₁, i₀,
      command.extendedAddress, a₃, a₂, a₁, a₀, l₂, l₁, l₀] ++ [crc] ++ Codec.sealed data) =
      some (Packet.ofCommand c.target protocolId command.instruction c.key c.initiator i₁ i₀
        command.extendedAddress (a₃ :: a₂ :: a₁ :: a₀ :: l₂ :: l₁ :: l₀ :: crc :: Codec.sealed data)) :=
    if_pos (typeBits_instruction command)
  rw [Packet.ofCommand_whole, hwrite] at hdecode
  refine ⟨_, hdecode, ?_⟩
  constructor
  case kind => rfl
  case write => exact hwrite
  case verify => exact hverify
  case reply => exact hreply
  case increment => exact hincrement
  case target => rfl
  case initiator => rfl
  case key => rfl
  case transactionId => exact hid
  case extendedAddress => rfl
  case address => exact congrArg some haddress
  case dataLength => exact congrArg some (hlength.trans announced)
  case headerCrcValid => exact hzero
  case protocol => rfl
  case data =>
    intro h
    show (if command.write = true then (Codec.sealed data).dropLast else []) = data
    rw [if_pos h, dropLast_sealed]
  case valid =>
    simp only [Packet.valid, hzero, crc8_sealed, dropLast_sealed, isEmpty_sealed, hlength, announced,
      beq_self_eq_true, Bool.true_and, Bool.or_true]
    cases command.write with
    | true => simp only [if_true, beq_iff_eq]
    | false => simp only [Bool.false_eq_true, if_false, List.isEmpty_iff]

theorem exists_encode_iff (c : Codec) (command : Command) :
    (∃ packet c', c.encode command = (.ok packet, c')) ↔
      HexData command.data ∧ command.announcedLength ≤ maxDataLength := by
  constructor
  · rintro ⟨packet, c', h⟩
    obtain ⟨data, hdata, hfits, -⟩ := encode_eq_ok_iff.mp h
    exact ⟨exists_readHex_iff.mp ⟨data, hdata⟩, length_eq_announcedLength hdata ▸ hfits⟩
  · rintro ⟨hhex, hfits⟩
    obtain ⟨data, hdata⟩ := exists_readHex_iff.mpr hhex
    exact ⟨_, _, encode_eq_ok_iff.mpr
      ⟨data, hdata, (length_eq_announcedLength hdata).symm ▸ hfits, rfl, rfl⟩⟩

/-- What a command is encoded as decodes and conveys it. -/
theorem conveys_of_encode {c c' : Codec} {command : Command} {packet : Bytes}
    (h : c.encode command = (.ok packet, c')) :
    ∃ data p, readHex command.data = .ok data ∧ Packet.decode packet = some p ∧ p.Conveys c command data := by
  obtain ⟨data, hdata, hfits, rfl, -⟩ := encode_eq_ok_iff.mp h
  obtain ⟨p, hp, conveys⟩ := decode_command_conveys c data (length_eq_announcedLength hdata) hfits
  exact ⟨data, p, hdata, hp, conveys⟩

/-- A packet is a header of sixteen bytes, and data with its checksum where there is data. -/
theorem length_of_encode {c c' : Codec} {command : Command} {packet : Bytes}
    (h : c.encode command = (.ok packet, c')) {data : Bytes} (hdata : readHex command.data = .ok data) :
    packet.length = 16 + (Codec.sealed data).length := by
  obtain ⟨data', hdata', -, rfl, -⟩ := encode_eq_ok_iff.mp h
  rw [hdata, Except.ok.injEq] at hdata'
  subst hdata'
  simp only [Codec.header, List.length_append, List.length_cons, List.length_nil, length_bigEndianBytes]

/-- A command is encoded if and only if its data is hexadecimal and the length it announces fits; and what
it is encoded as decodes and conveys it. -/
theorem encode_roundTrip (c : Codec) (command : Command) :
    ((∃ packet c', c.encode command = (.ok packet, c')) ↔
      HexData command.data ∧ command.announcedLength ≤ maxDataLength) ∧
    ∀ packet c', c.encode command = (.ok packet, c') →
      ∃ data p, readHex command.data = .ok data ∧ Packet.decode packet = some p ∧
        p.Conveys c command data := by
  refine ⟨exists_encode_iff c command, ?_⟩
  intro packet c' h
  exact conveys_of_encode h

/-- A command to write four bytes that announces three. -/
def overfullWrite : Command := { Command.toWrite 0x1000 "0xdeadbeef" true with size := 3 }

/-- It is encoded and comes back as it is, which is not valid. -/
theorem encode_roundTrip_overfull :
    ∃ packet c', (Codec.start 0xFE 0x67 0x20).encode overfullWrite = (.ok packet, c') ∧
      ∃ data p, readHex overfullWrite.data = .ok data ∧ Packet.decode packet = some p ∧
        p.Conveys (Codec.start 0xFE 0x67 0x20) overfullWrite data ∧ p.valid = false := by
  obtain ⟨hiff, hconveys⟩ := encode_roundTrip (Codec.start 0xFE 0x67 0x20) overfullWrite
  obtain ⟨packet, c', hencode⟩ := hiff.mpr (by decide)
  obtain ⟨data, p, hdata, hp, conveys⟩ := hconveys packet c' hencode
  refine ⟨packet, c', hencode, data, p, hdata, hp, conveys, Bool.eq_false_iff.mpr fun hvalid => ?_⟩
  have hfour : readHex overfullWrite.data = .ok [0xDE, 0xAD, 0xBE, 0xEF] := rfl
  rw [hfour, Except.ok.injEq] at hdata
  subst hdata
  exact absurd (conveys.valid.mp hvalid) (by decide)

end Rmap

end GroundStation
