/-
# Ids count the commands that are encoded

A codec gives each command that it encodes the next id.  Ids are numbers of 16 bits without zero, so there are
65535 of them: behind the last the first comes again, and among as many commands in a row no id stands twice.

A run of calls on one codec may hold any commands, those that cannot be encoded among them.  One step is
therefore described first (`encode_cases`): either a packet with the codec's id is made and the codec advances,
or nothing is made and the codec stays.  The codec is then known behind any run by the number of packets made
in it (`encodeAll_behind`), and with it the id of every packet (`encodeAll_numbers`).
-/
import GroundStation.Link.Rmap
import GroundStation.Proofs.Rmap.RoundTrip

namespace GroundStation

namespace Rmap

/-- A command that can be encoded. -/
def Command.Encodable (c : Command) : Prop := HexData c.data ∧ c.announcedLength ≤ maxDataLength

instance (c : Command) : Decidable c.Encodable := inferInstanceAs (Decidable (_ ∧ _))

namespace Codec

/-! ## Calls -/

/-- Encodes commands one after another: the outcome of each, and the codec in the end. -/
def encodeAll : Codec → List Command → List (Except RmapError Bytes) × Codec
  | c, [] => ([], c)
  | c, command :: rest =>
    ((c.encode command).1 :: ((c.encode command).2.encodeAll rest).1, ((c.encode command).2.encodeAll rest).2)

/-- The packets among the outcomes. -/
def packets (outcomes : List (Except RmapError Bytes)) : List Bytes := outcomes.filterMap Except.toOption

@[simp] theorem packets_nil : packets [] = [] := rfl

@[simp] theorem packets_ok (packet : Bytes) (outcomes : List (Except RmapError Bytes)) :
    packets (.ok packet :: outcomes) = packet :: packets outcomes := rfl

@[simp] theorem packets_error (e : RmapError) (outcomes : List (Except RmapError Bytes)) :
    packets (.error e :: outcomes) = packets outcomes := rfl

/-- A call makes a packet with the codec's id and advances the codec, or leaves it as it is. -/
theorem encode_cases (c : Codec) (command : Command) :
    (∃ packet p, c.encode command = (.ok packet, c.advance) ∧ Packet.decode packet = some p ∧
      p.transactionId = c.nextId) ∨ ∃ e, c.encode command = (.error e, c) := by
  rcases h : c.encode command with ⟨e | packet, c'⟩
  case error =>
    exact .inr ⟨e, h ▸ encode_of_error (congrArg Prod.fst h)⟩
  case ok =>
    obtain ⟨rfl, p, hp, hid⟩ := decode_encode h
    exact .inl ⟨packet, p, rfl, hp, hid⟩

/-! ## Ids -/

/-- The codec that has encoded `n` commands. -/
def behind (target initiator key : UInt8) (n : Nat) : Codec :=
  ⟨target, initiator, key, (n % 65535 + 1).toUInt16⟩

variable (target initiator key : UInt8)

theorem behind_zero : behind target initiator key 0 = start target initiator key := rfl

theorem toNat_nextId_behind (n : Nat) : (behind target initiator key n).nextId.toNat = n % 65535 + 1 := by
  have hlt : n % 65535 < 65535 := Nat.mod_lt n (by decide)
  show (n % 65535 + 1).toUInt16.toNat = _
  simp only [Nat.toUInt16, UInt16.toNat_ofNat']
  omega

/-- The id behind the last is the first. -/
theorem advance_behind (n : Nat) :
    (behind target initiator key n).advance = behind target initiator key (n + 1) := by
  have hid := toNat_nextId_behind target initiator key
  have hnext : (behind target initiator key n).advance.nextId = (behind target initiator key (n + 1)).nextId := by
    rw [← UInt16.toNat_inj, hid, advance]
    have hmax : (0xFFFF : UInt16).toNat = 65535 := rfl
    have hone : (1 : UInt16).toNat = 1 := rfl
    dsimp only
    split
    · next hlast =>
      have hn := hid n
      rw [hlast] at hn
      omega
    · next hlast =>
      rw [← UInt16.toNat_inj, hid] at hlast
      rw [UInt16.toNat_add, hid]
      omega
  show Codec.mk target initiator key (behind target initiator key n).advance.nextId = _
  rw [hnext]
  rfl

/-! ## Runs -/

/-- What a run makes of a codec that has encoded `n` commands: one more for each packet. -/
theorem encodeAll_behind (commands : List Command) : ∀ n,
    ((behind target initiator key n).encodeAll commands).2 =
      behind target initiator key (n + (packets ((behind target initiator key n).encodeAll commands).1).length) := by
  induction commands with
  | nil => exact fun _ => rfl
  | cons command rest ih =>
    intro n
    rcases encode_cases (behind target initiator key n) command with ⟨packet, p, hcall, -, -⟩ | ⟨e, hcall⟩
    · simp only [encodeAll, hcall, advance_behind, packets_ok, List.length_cons]
      rw [ih (n + 1), Nat.add_assoc, Nat.add_comm 1]
    · simp only [encodeAll, hcall, packets_error]
      exact ih n

/-- The packets of a run bear the ids that follow each other. -/
theorem numbered_encodeAll (commands : List Command) : ∀ (n k : Nat) (packet : Bytes),
    (packets ((behind target initiator key n).encodeAll commands).1)[k]? = some packet →
      ∃ p, Packet.decode packet = some p ∧ p.transactionId = (behind target initiator key (n + k)).nextId := by
  induction commands with
  | nil => intro n k packet h; cases h
  | cons command rest ih =>
    intro n k packet h
    rcases encode_cases (behind target initiator key n) command with ⟨first, p, hcall, hp, hid⟩ | ⟨e, hcall⟩
    · simp only [encodeAll, hcall, advance_behind, packets_ok] at h
      cases k with
      | zero =>
        cases h
        exact ⟨p, hp, hid⟩
      | succ k =>
        have hrest := ih (n + 1) k packet h
        rwa [Nat.add_assoc, Nat.add_comm 1 k] at hrest
    · simp only [encodeAll, hcall, packets_error] at h
      exact ih n k packet h

/-- Whether a command is encoded does not depend on the codec, so the packets of a run can be counted without
it. -/
theorem length_packets_encodeAll (commands : List Command) : ∀ c : Codec,
    (packets (c.encodeAll commands).1).length = commands.countP (Command.Encodable ·) := by
  induction commands with
  | nil => exact fun _ => rfl
  | cons command rest ih =>
    intro c
    have hiff := exists_encode_iff c command
    rcases h : c.encode command with ⟨e | packet, c'⟩
    case ok =>
      have encodable : command.Encodable := hiff.mp ⟨packet, c', h⟩
      simp only [encodeAll, h, packets_ok, List.length_cons, ih, List.countP_cons, encodable, decide_true,
        if_true]
    case error =>
      have refused : ¬command.Encodable := by
        intro encodable
        obtain ⟨packet, c', hok⟩ := hiff.mpr encodable
        rw [h] at hok
        cases hok
      simp only [encodeAll, h, packets_error, ih, List.countP_cons, refused, decide_false, Bool.false_eq_true,
        if_false, Nat.add_zero]

end Codec

open Codec

/-- A link keeps its codec, and all else, where a command is refused. -/
theorem transact_of_refused {π : Type} (socket : Socket π) (patience : Nat) {l : Link} {text : Text} (p : π)
    {command : Command} {e : RmapError} (read : readCommand text l.verify = .ok command)
    (refused : l.codec.encode command = (.error e, l.codec)) :
    transact socket patience l text p = (.error e.toLink, l, p) := by
  rw [transact, read]
  dsimp only
  rw [refused]

/-- In a run of calls on a new codec, refused ones among them, the packet behind `k` others bears the id
`k % 65535 + 1`.  So no id is zero, and the ids of 65535 packets in a row are all different.  In the end the
codec has advanced by the packets alone; another call that is refused leaves it as it is, and with it the link
that holds it. -/
theorem encodeAll_numbers (target initiator key : UInt8) (commands : List Command) :
    ∃ outcomes last, (Codec.start target initiator key).encodeAll commands = (outcomes, last) ∧
      (∀ k packet, (packets outcomes)[k]? = some packet →
        ∃ p, Packet.decode packet = some p ∧ p.transactionId.toNat = k % 65535 + 1 ∧ p.transactionId ≠ 0) ∧
      (∀ i j a b, i < j → j < i + 65535 → (packets outcomes)[i]? = some a → (packets outcomes)[j]? = some b →
        (Packet.decode a).map Packet.transactionId ≠ (Packet.decode b).map Packet.transactionId) ∧
      last = behind target initiator key (packets outcomes).length ∧
      ∀ command e, (last.encode command).1 = .error e → last.encode command = (.error e, last) ∧
        ∀ (π : Type) (socket : Socket π) patience l text (p : π), l.codec = last →
          readCommand text l.verify = .ok command → transact socket patience l text p = (.error e.toLink, l, p) := by
  have hlast := encodeAll_behind target initiator key commands 0
  have hnumbered := numbered_encodeAll target initiator key commands 0
  rw [behind_zero, Nat.zero_add] at hlast
  rw [behind_zero] at hnumbered
  have hid : ∀ k packet, (packets ((Codec.start target initiator key).encodeAll commands).1)[k]? = some packet →
      ∃ p, Packet.decode packet = some p ∧ p.transactionId.toNat = k % 65535 + 1 := by
    intro k packet h
    obtain ⟨p, hp, htid⟩ := hnumbered k packet h
    rw [Nat.zero_add] at htid
    exact ⟨p, hp, by rw [htid, toNat_nextId_behind]⟩
  refine ⟨_, _, rfl, ?_, ?_, hlast, ?_⟩
  · intro k packet h
    obtain ⟨p, hp, htid⟩ := hid k packet h
    refine ⟨p, hp, htid, fun hzero => ?_⟩
    rw [hzero] at htid
    cases htid
  · intro i j a b hij hwindow ha hb heq
    obtain ⟨p, hp, hpid⟩ := hid i a ha
    obtain ⟨q, hq, hqid⟩ := hid j b hb
    rw [hp, hq, Option.map_some, Option.map_some, Option.some.injEq] at heq
    rw [heq, hqid] at hpid
    omega
  · intro command e refused
    have stays := encode_of_error refused
    refine ⟨stays, ?_⟩
    intro π socket patience l text p hcodec read
    exact transact_of_refused socket patience p read (hcodec ▸ stays)

/-- A command whose data is not hexadecimal. -/
def refusedWrite : Command := .toWrite 0x10 "zz" false

/-- That command, and `n` commands that read. -/
def reads (n : Nat) : List Command := refusedWrite :: List.replicate n (.toRead 0x10 4)

theorem length_packets_reads (c : Codec) (n : Nat) : (packets (c.encodeAll (reads n)).1).length = n := by
  have hrefused : ¬decide refusedWrite.Encodable = true := by decide
  have hread : decide (Command.toRead 0x10 4).Encodable = true := by decide
  rw [length_packets_encodeAll, reads, List.countP_cons, if_neg hrefused, List.countP_replicate, if_pos hread,
    Nat.add_zero]

/-- With more commands than there are ids the last bears the first id again, and the one before it another; and
the codec stays where the write is refused once more. -/
theorem encodeAll_numbers_wrapping :
    ∃ outcomes last a b p q, (Codec.start 0x32 0x20 0x20).encodeAll (reads 65536) = (outcomes, last) ∧
      (packets outcomes)[65534]? = some a ∧ Packet.decode a = some p ∧ p.transactionId.toNat = 65535 ∧
      (packets outcomes)[65535]? = some b ∧ Packet.decode b = some q ∧ q.transactionId.toNat = 1 ∧
      (Packet.decode a).map Packet.transactionId ≠ (Packet.decode b).map Packet.transactionId ∧
      last.encode refusedWrite = (.error (.invalidHex "zz"), last) := by
  obtain ⟨outcomes, last, hrun, hid, hdiffer, -, hrefused⟩ := encodeAll_numbers 0x32 0x20 0x20 (reads 65536)
  have hlength : (packets outcomes).length = 65536 := by
    rw [← length_packets_reads (Codec.start 0x32 0x20 0x20) 65536, hrun]
  obtain ⟨a, ha⟩ : ∃ a, (packets outcomes)[65534]? = some a :=
    ⟨_, List.getElem?_eq_getElem (by rw [hlength]; decide)⟩
  obtain ⟨b, hb⟩ : ∃ b, (packets outcomes)[65535]? = some b :=
    ⟨_, List.getElem?_eq_getElem (by rw [hlength]; decide)⟩
  obtain ⟨p, hp, hpid, -⟩ := hid 65534 a ha
  obtain ⟨q, hq, hqid, -⟩ := hid 65535 b hb
  exact ⟨outcomes, last, a, b, p, q, hrun, ha, hp, hpid, hb, hq, hqid,
    hdiffer 65534 65535 a b (by decide) (by decide) ha hb, (hrefused refusedWrite (.invalidHex "zz") rfl).1⟩

end Rmap

end GroundStation
