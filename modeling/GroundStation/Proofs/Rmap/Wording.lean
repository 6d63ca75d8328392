/-
# What a command says

A text says a command in words: a keyword of any letter case, an address, a size or data, and perhaps an extended
address.  `Says` lists the wordings, and a text is read as a command if and only if its words say it
(`readCommand_eq_ok_iff`).  A number has many words, since it may be written in two radices, with zeros or a
plus sign in front and with digits of either letter case; which words these are is settled by `Denotes`.

A command that was read from a text either reads and has no data or writes and announces no size.  So where it is
encoded at all the length in its packet is the one of its data, the packet is valid, and no packet is too long for
a frame (`readCommand_encodes`).
-/
import GroundStation.Link.Rmap
import GroundStation.Proofs.Rmap.HexData
import GroundStation.Proofs.Text.Blank

namespace GroundStation

namespace Rmap

/-- The words for a number: a decimal numeral, or a hexadecimal one behind `0x` or `0X`. -/
inductive Denotes : Text → Nat → Prop
  | decimal {t : Text} {n : Nat} : Integer.Unsigned 10 t n → Denotes t n
  | hexadecimal {x : Char} {t : Text} {n : Nat} : x = 'x' ∨ x = 'X' → Integer.Unsigned 16 t n →
      Denotes ('0' :: x :: t) n

/-- The words for a command; `verify` is what becomes of those that write. -/
inductive Says (verify : Bool) : List Text → Command → Prop
  | read {keyword addressWord sizeWord : Text} {address size : UInt32} : Text.lower keyword = "read" →
      Denotes addressWord address.toNat → Denotes sizeWord size.toNat →
      Says verify [keyword, addressWord, sizeWord] (.toRead address size)
  | write {keyword addressWord data : Text} {address : UInt32} : Text.lower keyword = "write" →
      Denotes addressWord address.toNat →
      Says verify [keyword, addressWord, data] (.toWrite address data verify)
  | extended {keyword addressWord operand extendedWord : Text} {command : Command} {extended : UInt8} :
      Says verify [keyword, addressWord, operand] command → Denotes extendedWord extended.toNat →
      Says verify [keyword, addressWord, operand, extendedWord] { command with extendedAddress := extended }

/-! ## Numbers -/

/-- What begins with `0x` is no decimal numeral, since there is no digit `x`. -/
theorem not_unsigned_of_marked {x : Char} (marked : x = 'x' ∨ x = 'X') {t : Text} {n : Nat} :
    ¬Integer.Unsigned 10 ('0' :: x :: t) n := by
  intro h
  have hread : Integer.unsigned? (n + 1) 10 ('0' :: x :: t) = some n :=
    (Integer.unsigned?_eq_some_iff (by decide)).mpr ⟨h, Nat.lt_succ_self n⟩
  have hnone : Integer.unsigned? (n + 1) 10 ('0' :: x :: t) = none := by
    rcases marked with rfl | rfl
    · rfl
    · rfl
  rw [hnone] at hread
  cases hread

/-- What is read is below the bound, so a word of 32 bits holds it. -/
theorem exists_unsigned?_iff {radix : Nat} (small : radix ≤ 16) {t : Text} {n : UInt32} :
    (∃ m, Integer.unsigned? (2 ^ 32) radix t = some m ∧ m.toUInt32 = n) ↔ Integer.Unsigned radix t n.toNat := by
  constructor
  · rintro ⟨m, hm, rfl⟩
    obtain ⟨hread, hbound⟩ := (Integer.unsigned?_eq_some_iff small).mp hm
    have hnat : m.toUInt32.toNat = m := UInt32.toNat_ofNat_of_lt hbound
    rwa [hnat]
  · intro h
    exact ⟨n.toNat, (Integer.unsigned?_eq_some_iff small).mpr ⟨h, n.toNat_lt⟩, UInt32.ofNat_toNat⟩

theorem number_eq_ok_iff {word : Text} {n : UInt32} : number word = .ok n ↔ Denotes word n.toNat := by
  unfold number
  cases hmarked : (Text.after? "0x" word).orElse fun _ => Text.after? "0X" word with
  | some digits =>
    obtain ⟨x, hx, rfl⟩ := orElse_after?_eq_some_iff.mp hmarked
    have hword : Denotes ('0' :: x :: digits) n.toNat ↔ Integer.Unsigned 16 digits n.toNat := by
      refine ⟨fun h => ?_, .hexadecimal hx⟩
      cases h with
      | decimal h => exact absurd h (not_unsigned_of_marked hx)
      | hexadecimal _ h => exact h
    rw [hword, ← exists_unsigned?_iff (by decide)]
    dsimp only
    cases Integer.unsigned? (2 ^ 32) 16 digits <;> simp
  | none =>
    have hword : Denotes word n.toNat ↔ Integer.Unsigned 10 word n.toNat := by
      refine ⟨fun h => ?_, .decimal⟩
      cases h with
      | decimal h => exact h
      | @hexadecimal x t _ hx h =>
        have hsome : ((Text.after? "0x" ('0' :: x :: t)).orElse fun _ => Text.after? "0X" ('0' :: x :: t)) =
            some t := orElse_after?_eq_some_iff.mpr ⟨x, hx, rfl⟩
        rw [hmarked] at hsome
        cases hsome
    rw [hword, ← exists_unsigned?_iff (by decide)]
    dsimp only
    cases Integer.unsigned? (2 ^ 32) 10 word <;> simp

/-! ## Words -/

section Words

variable {text keyword addressWord operand : Text} {verify : Bool} {command : Command}

theorem ofKeyword_eq_ok_iff {address : UInt32} :
    ofKeyword text keyword address operand verify = .ok command ↔
      (Text.lower keyword = "read" ∧ ∃ size, number operand = .ok size ∧ command = .toRead address size) ∨
        Text.lower keyword = "write" ∧ command = .toWrite address operand verify := by
  unfold ofKeyword
  dsimp only
  constructor
  · intro h
    split at h
    · next hread =>
      split at h
      · next size hsize =>
        cases h
        exact .inl ⟨hread, size, hsize, rfl⟩
      · cases h
    · split at h
      · next hwrite =>
        cases h
        exact .inr ⟨hwrite, rfl⟩
      · cases h
  · rintro (⟨hread, size, hsize, rfl⟩ | ⟨hwrite, rfl⟩)
    · rw [if_pos hread, hsize]
    · have hother : ¬Text.lower keyword = "read" := by
        rw [hwrite]
        decide
      rw [if_neg hother, if_pos hwrite]

theorem extend_some_eq_ok_iff {word : Text} {command' : Command} :
    extend text command (some word) = .ok command' ↔
      ∃ extended : UInt8, Denotes word extended.toNat ∧ command' = { command with extendedAddress := extended } := by
  unfold extend
  dsimp only
  constructor
  · intro h
    split at h
    · cases h
    · next n hn =>
      split at h
      · next hbyte =>
        cases h
        have hnat : n.toUInt8.toNat = n.toNat := Nat.mod_eq_of_lt hbyte
        exact ⟨n.toUInt8, hnat ▸ number_eq_ok_iff.mp hn, rfl⟩
      · cases h
  · rintro ⟨extended, hextended, rfl⟩
    have hword : number word = .ok extended.toUInt32 := number_eq_ok_iff.mpr hextended
    have hbyte : extended.toUInt32.toNat < 256 := extended.toNat_lt
    have hback : extended.toUInt32.toUInt8 = extended := by simp
    rw [hword]
    dsimp only
    rw [if_pos hbyte, hback]

theorem ofWords_eq_ok_iff {extendedWord : Option Text} :
    ofWords text keyword addressWord operand extendedWord verify = .ok command ↔
      ∃ address plain, number addressWord = .ok address ∧
        ofKeyword text keyword address operand verify = .ok plain ∧ extend text plain extendedWord = .ok command := by
  unfold ofWords
  cases number addressWord with
  | error e => simp [bind, Except.bind]
  | ok address => cases hkeyword : ofKeyword text keyword address operand verify <;> simp [bind, Except.bind, hkeyword]

/-- Three words are read as the command that they say. -/
theorem ofWords_none_eq_ok_iff :
    ofWords text keyword addressWord operand none verify = .ok command ↔
      Says verify [keyword, addressWord, operand] command := by
  rw [ofWords_eq_ok_iff]
  constructor
  · rintro ⟨address, plain, haddress, hplain, h⟩
    cases h
    have address' := number_eq_ok_iff.mp haddress
    rcases ofKeyword_eq_ok_iff.mp hplain with ⟨hread, size, hsize, rfl⟩ | ⟨hwrite, rfl⟩
    · exact .read hread address' (number_eq_ok_iff.mp hsize)
    · exact .write hwrite address'
  · intro h
    cases h with
    | @read _ _ _ address size hread haddress hsize =>
      refine ⟨address, _, number_eq_ok_iff.mpr haddress, ofKeyword_eq_ok_iff.mpr (.inl ?_), rfl⟩
      exact ⟨hread, size, number_eq_ok_iff.mpr hsize, rfl⟩
    | @write _ _ _ address hwrite haddress =>
      exact ⟨address, _, number_eq_ok_iff.mpr haddress, ofKeyword_eq_ok_iff.mpr (.inr ⟨hwrite, rfl⟩), rfl⟩

/-- Four words are read as the command that the first three say, with the extended address that the last denotes. -/
theorem ofWords_some_eq_ok_iff {word : Text} :
    ofWords text keyword addressWord operand (some word) verify = .ok command ↔
      Says verify [keyword, addressWord, operand, word] command := by
  rw [ofWords_eq_ok_iff]
  constructor
  · rintro ⟨address, plain, haddress, hplain, h⟩
    obtain ⟨extended, hextended, rfl⟩ := extend_some_eq_ok_iff.mp h
    have said : Says verify [keyword, addressWord, operand] plain :=
      ofWords_none_eq_ok_iff.mp (ofWords_eq_ok_iff.mpr ⟨address, plain, haddress, hplain, rfl⟩)
    exact .extended said hextended
  · intro h
    cases h with
    | @extended _ _ _ _ plain extended said hextended =>
      obtain ⟨address, plain', haddress, hplain, h⟩ := ofWords_eq_ok_iff.mp (ofWords_none_eq_ok_iff.mpr said)
      cases h
      exact ⟨address, plain, haddress, hplain, extend_some_eq_ok_iff.mpr ⟨extended, hextended, rfl⟩⟩

end Words

/-- A text is read as the command that its words say. -/
theorem readCommand_eq_ok_iff {text : Text} {verify : Bool} {command : Command} :
    readCommand text verify = .ok command ↔ ∃ words, Text.Spaced text words ∧ Says verify words command := by
  have hspaced : ∀ {words}, Text.words text = words → (Says verify words command ↔
      ∃ words, Text.Spaced text words ∧ Says verify words command) := by
    rintro words rfl
    constructor
    · intro h
      exact ⟨_, Text.words_eq_iff.mp rfl, h⟩
    · rintro ⟨words, hwords, h⟩
      rwa [hwords.words_eq]
  unfold readCommand
  split
  · next hwords => exact ofWords_none_eq_ok_iff.trans (hspaced hwords)
  · next hwords => exact ofWords_some_eq_ok_iff.trans (hspaced hwords)
  · next hthree hfour =>
    rw [← hspaced rfl]
    refine iff_of_false (fun h => nomatch h) ?_
    generalize hwords : Text.words text = words
    intro h
    cases h with
    | read | write => exact hthree _ _ _ hwords
    | extended => exact hfour _ _ _ _ hwords

/-! ## Packets -/

/-- A command that was read from words writes and announces the length of its data, or reads and has none. -/
theorem Says.announced {verify : Bool} {words : List Text} {command : Command} (said : Says verify words command)
    {data : Bytes} (hdata : readHex command.data = .ok data) :
    if command.write then data.length = command.announcedLength else data = [] := by
  induction said with
  | read =>
    cases hdata
    rfl
  | @write _ _ t address =>
    -- a write announces no size of its own
    show data.length = (Command.toWrite address t verify).announcedLength
    exact length_eq_announcedLength hdata
  | extended _ _ ih => exact ih hdata

theorem announcedLength_of_empty {command : Command} (hdata : readHex command.data = .ok []) :
    command.announcedLength = command.size.toNat := by
  rw [← length_eq_announcedLength hdata, Command.length]
  split
  · next hsize =>
    rw [hsize]
    rfl
  · rfl

/-- A packet with no more data than a header can announce fits in a frame. -/
theorem length_le_maxFrameLength {c c' : Codec} {command : Command} {packet : Bytes}
    (h : c.encode command = (.ok packet, c')) {data : Bytes} (hdata : readHex command.data = .ok data)
    (announced : if command.write then data.length = command.announcedLength else data = []) :
    packet.length ≤ maxFrameLength := by
  have hfits : command.announcedLength ≤ maxDataLength := ((exists_encode_iff c command).mp ⟨packet, c', h⟩).2
  have hlength : data.length ≤ maxDataLength := by
    split at announced
    · rwa [announced]
    · rw [announced]
      exact Nat.zero_le _
  rw [length_of_encode h hdata, length_sealed, maxFrameLength]
  split <;> omega

/-- A text is read as a command if and only if its words say that command.  Where the command is then encoded, the
packet fits in a frame and decodes as valid, and it conveys the command: what reads announces its size, and what
writes carries its data. -/
theorem readCommand_encodes (text : Text) (verify : Bool) (command : Command) :
    (readCommand text verify = .ok command ↔ ∃ words, Text.Spaced text words ∧ Says verify words command) ∧
    ∀ c packet c', readCommand text verify = .ok command → c.encode command = (.ok packet, c') →
      packet.length ≤ maxFrameLength ∧
        ∃ data p, readHex command.data = .ok data ∧ Packet.decode packet = some p ∧ p.valid = true ∧
          p.Conveys c command data ∧ (command.write = false → p.dataLength = some command.size.toNat) ∧
          (command.write = true → p.data = data) := by
  refine ⟨readCommand_eq_ok_iff, ?_⟩
  intro c packet c' read encoded
  obtain ⟨words, -, said⟩ := readCommand_eq_ok_iff.mp read
  obtain ⟨data, p, hdata, hp, conveys⟩ := conveys_of_encode encoded
  have announced := said.announced hdata
  refine ⟨length_le_maxFrameLength encoded hdata announced, data, p, hdata, hp, conveys.valid.mpr announced,
    conveys, ?_, conveys.data⟩
  intro hread
  rw [hread, if_neg Bool.false_ne_true] at announced
  subst announced
  rw [conveys.dataLength, announcedLength_of_empty hdata]

/-- A write in mixed letter case, between a tab and blanks beyond ASCII. -/
def scattered : Text := "\tWrItE\u00A0\u20050XfFfFfFfF\n0xDEad +255\u3000"

/-- It writes two bytes. -/
def scatteredWrite : Command := { Command.toWrite 0xFFFFFFFF "0xDEad" true with extendedAddress := 255 }

theorem readCommand_encodes_scattered :
    ∃ packet p, readCommand scattered true = .ok scatteredWrite ∧
      (∃ words, Text.Spaced scattered words ∧ Says true words scatteredWrite) ∧
      (Codec.start 0xFE 0x67 0x20).encode scatteredWrite =
        (.ok packet, (Codec.start 0xFE 0x67 0x20).advance) ∧
      packet.length ≤ maxFrameLength ∧ Packet.decode packet = some p ∧ p.valid = true ∧
      p.address = some 0xFFFFFFFF ∧ p.extendedAddress = some 255 ∧ p.data = [0xDE, 0xAD] := by
  obtain ⟨hiff, hencodes⟩ := readCommand_encodes scattered true scatteredWrite
  have read : readCommand scattered true = .ok scatteredWrite := rfl
  obtain ⟨packet, encoded⟩ : ∃ packet, (Codec.start 0xFE 0x67 0x20).encode scatteredWrite =
      (.ok packet, (Codec.start 0xFE 0x67 0x20).advance) := ⟨_, rfl⟩
  obtain ⟨hlength, data, p, hdata, hp, hvalid, conveys, -, hwrite⟩ := hencodes _ _ _ read encoded
  have hbytes : readHex scatteredWrite.data = .ok [0xDE, 0xAD] := rfl
  rw [hbytes, Except.ok.injEq] at hdata
  subst hdata
  exact ⟨packet, p, read, hiff.mp read, encoded, hlength, hp, hvalid, conveys.address, conveys.extendedAddress,
    hwrite rfl⟩

end Rmap

end GroundStation
