/-
# Commands in the encoding of a link

A command is sent as its bytes with the termination behind them.  That this is the same as terminating the text
and writing it at once, and that a device which reads the bytes in the encoding of the link reads the command,
is what the encodings are good for: a text can be written exactly if all of its characters are `Covered`, what
was written reads back, and a text is written part by part (`encode_faithful`).

The three are not faithful in the same way.  In Latin-1 every byte string is the writing of a text, so the bytes
can be read and written again.  The reader of UTF-8, which also serves ASCII, is lenient: it changes what is
not well formed, and has to leave alone what is.
-/
import GroundStation.Link.Framing
import GroundStation.Proofs.Instrument.Assembly
import GroundStation.Proofs.Text.Encoding

namespace GroundStation

namespace Encoding

/-- The characters that an encoding can write. -/
def Covered : Encoding → Char → Prop
  | ascii, c => c.toNat < 0x80
  | utf8, _ => True
  | latin1, c => c.toNat < 0x100

variable {e : Encoding} {s t : Text} {bs : Bytes}

/-- Characters of Latin-1 are those of bytes. -/
theorem exists_map_latinChar_iff : (∃ bs : Bytes, bs.map latinChar = t) ↔ ∀ c ∈ t, c.toNat < 0x100 := by
  constructor
  · rintro ⟨bs, rfl⟩ c hc
    obtain ⟨b, -, rfl⟩ := List.mem_map.mp hc
    rw [toNat_latinChar]
    exact b.toNat_lt
  · intro h
    induction t with
    | nil => exact ⟨[], rfl⟩
    | cons c t ih =>
      obtain ⟨hc, ht⟩ := List.forall_mem_cons.mp h
      obtain ⟨bs, hbs⟩ := ih ht
      refine ⟨c.toNat.toUInt8 :: bs, ?_⟩
      rw [List.map_cons, hbs, latinChar, Utf8.toNat_toUInt8 hc, Char.ofNat_toNat]

/-- A text can be written if its characters can be. -/
theorem exists_encode_iff : (∃ bs, e.encode t = .ok bs) ↔ ∀ c ∈ t, e.Covered c := by
  cases e with
  | ascii =>
    simp only [encode_ascii_eq_ok_iff]
    constructor
    · rintro ⟨_, ascii, -⟩
      exact ascii
    · intro ascii
      exact ⟨_, ascii, rfl⟩
  | utf8 => exact iff_of_true ⟨_, rfl⟩ fun _ _ => trivial
  | latin1 =>
    simp only [encode, encodeLatin_eq_ok_iff]
    exact exists_map_latinChar_iff

/-- A text of two parts is written as they are, one behind the other. -/
theorem encode_append_eq_ok_iff : e.encode (t ++ s) = .ok bs ↔
    ∃ front behind, e.encode t = .ok front ∧ e.encode s = .ok behind ∧ bs = front ++ behind := by
  constructor
  · intro h
    obtain ⟨front, behind, hbs, hfront, hbehind⟩ := exists_encode_of_append h
    exact ⟨front, behind, hfront, hbehind, hbs⟩
  · rintro ⟨front, behind, hfront, hbehind, rfl⟩
    exact encode_append hfront hbehind

end Encoding

namespace Framing

/-- A framing is the encoding of an instrument with its terminations written in it. -/
theorem ofConfig_eq_ok_iff {c : InstrumentConfig} {f : Framing} :
    ofConfig c = .ok f ↔ f.encoding = c.encoding ∧
      c.encoding.encode c.writeTermination = .ok f.writeTermination ∧
      c.encoding.encode c.readTermination = .ok f.readTermination := by
  unfold ofConfig
  constructor
  · intro h
    split at h
    · cases h
    · next hwrite =>
      split at h
      · cases h
      · next hread =>
        cases h
        exact ⟨rfl, hwrite, hread⟩
  · rintro ⟨hencoding, hwrite, hread⟩
    rw [hwrite, hread, ← hencoding]

/-- A framed command is the writing of the command with the termination behind it. -/
theorem frame_eq_ok_iff {c : InstrumentConfig} {f : Framing} (framed : ofConfig c = .ok f) {command : Text}
    {block : Bytes} :
    f.frame command = .ok block ↔ c.encoding.encode (command ++ c.writeTermination) = .ok block := by
  obtain ⟨hencoding, hwrite, -⟩ := ofConfig_eq_ok_iff.mp framed
  rw [Encoding.encode_append_eq_ok_iff, frame, hencoding]
  cases c.encoding.encode command with
  | error e => simp
  | ok bytes => simp [hwrite, eq_comm]

end Framing

namespace Encoding

/-- Of every encoding: a text can be written exactly if its characters are covered; what was written reads back as
the text; a text of two parts is written as they are, one behind the other, and so a framed command is the
writing of the command and the termination.  In Latin-1 moreover whatever bytes were read are written again. -/
theorem encode_faithful :
    (∀ (e : Encoding) (t : Text), (∃ bs, e.encode t = .ok bs) ↔ ∀ c ∈ t, e.Covered c) ∧
    (∀ (e : Encoding) (t : Text) (bs : Bytes), e.encode t = .ok bs → e.decode bs = t) ∧
    (∀ (e : Encoding) (s t : Text) (bs : Bytes), e.encode (s ++ t) = .ok bs ↔
      ∃ front behind, e.encode s = .ok front ∧ e.encode t = .ok behind ∧ bs = front ++ behind) ∧
    (∀ (c : InstrumentConfig) (f : Framing), Framing.ofConfig c = .ok f → ∀ (command : Text) (block : Bytes),
      f.frame command = .ok block ↔ c.encoding.encode (command ++ c.writeTermination) = .ok block) ∧
    ∀ bs : Bytes, latin1.encode (latin1.decode bs) = .ok bs := by
  refine ⟨?_, ?_, ?_, ?_, ?_⟩
  · intro e t
    exact exists_encode_iff
  · intro e t bs written
    exact decode_of_encode written
  · intro e s t bs
    exact encode_append_eq_ok_iff
  · intro c f framed command block
    exact Framing.frame_eq_ok_iff framed
  · intro bs
    exact encodeLatin_eq_ok_iff.mpr rfl

/-- The characters at the ends of the two halves of Latin-1, each of which is one byte there. -/
theorem encode_faithful_latin :
    let c : InstrumentConfig := { InstrumentConfig.supply with encoding := .latin1, writeTermination := "ÿ" }
    let text : Text := [Char.ofNat 0x7F, Char.ofNat 0x80, Char.ofNat 0xFF]
    latin1.encode text = .ok [0x7F, 0x80, 0xFF] ∧ latin1.decode [0x7F, 0x80, 0xFF] = text ∧
      Framing.ofConfig c = .ok ⟨latin1, [0xFF], []⟩ ∧
      Framing.frame ⟨latin1, [0xFF], []⟩ text = .ok [0x7F, 0x80, 0xFF, 0xFF] := by
  intro c text
  obtain ⟨-, readsBack, -, frames, -⟩ := encode_faithful
  have written : latin1.encode text = .ok [0x7F, 0x80, 0xFF] := rfl
  have framed : Framing.ofConfig c = .ok ⟨latin1, [0xFF], []⟩ := rfl
  have whole : latin1.encode (text ++ "ÿ") = .ok [0x7F, 0x80, 0xFF, 0xFF] := rfl
  exact ⟨written, readsBack latin1 text _ written, framed, (frames c _ framed text _).mpr whole⟩

end Encoding

end GroundStation
