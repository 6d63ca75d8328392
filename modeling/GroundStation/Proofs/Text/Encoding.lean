/-
# What the encodings of links have in common

What was encoded decodes to what it was (`decode_of_encode`), and bytes of one text among the bytes of another
are found where the text is (`Encoding.split_of_encode`).  For UTF-8 this is what its reader is made for; in
Latin-1 a text and its bytes are the same list but for names.

ASCII is written and read like UTF-8, and so is a text of Latin-1 that keeps to the characters of ASCII
(`encode_eq_utf8`, `decode_eq_utf8`).

That no other text of Latin-1 is read alike is a matter of counting.  Suppose that among the bytes of a line
and its termination a record is found, with a terminator in UTF-8 behind it, that reads in UTF-8 as the line
does in Latin-1.  Each character of it beyond ASCII takes a leading byte, 194 or 195, of the record, and each
of the termination one of the terminator; in Latin-1 these bytes are as many characters of the line and the
termination.  So all characters beyond ASCII are among these two.  But they take a second byte too, 130 or
131, and these are characters of the line and the termination as well: there are none (`ascii_of_read`).
-/
import GroundStation.Encoding
import GroundStation.Proofs.Text.Blank
import GroundStation.Proofs.Text.Pieces
import GroundStation.Proofs.Text.Split

namespace GroundStation

namespace Text

/-- A text of ASCII characters. -/
def IsAscii (t : Text) : Prop := ∀ c ∈ t, c.toNat < 0x80

instance (t : Text) : Decidable (IsAscii t) := inferInstanceAs (Decidable (∀ c ∈ t, c.toNat < 0x80))

end Text

namespace Utf8

theorem encodeChar_of_lt {c : Char} (h : c.toNat < 0x80) : encodeChar c = [c.toNat.toUInt8] := by
  rw [encodeChar, if_pos h]

theorem lt_of_mem_encode {t : Text} (ascii : t.IsAscii) : ∀ b ∈ encode t, b.toNat < 0x80 := by
  intro b hb
  obtain ⟨c, hc, hbyte⟩ := List.mem_flatMap.mp hb
  have hlt := ascii c hc
  rw [encodeChar_of_lt hlt, List.mem_singleton] at hbyte
  rwa [hbyte, toNat_toUInt8 (by omega)]

end Utf8

namespace Encoding

/-! ## Latin-1 -/

/-- The character of a byte in Latin-1. -/
def latinChar (b : UInt8) : Char := Char.ofNat b.toNat

theorem toNat_latinChar (b : UInt8) : (latinChar b).toNat = b.toNat :=
  Utf8.toNat_ofNat (.inl (Nat.lt_trans b.toNat_lt (by decide)))

theorem latinByte?_eq_some_iff {c : Char} {b : UInt8} : latinByte? c = some b ↔ latinChar b = c := by
  rw [latinByte?]
  constructor
  · intro h
    split at h
    · next hlt =>
      cases h
      rw [latinChar, Utf8.toNat_toUInt8 hlt, Char.ofNat_toNat]
    · cases h
  · rintro rfl
    rw [toNat_latinChar, if_pos b.toNat_lt, Utf8.toUInt8_toNat]

theorem encodeLatin_eq_ok_iff : ∀ {t : Text} {bs : Bytes}, encodeLatin t = .ok bs ↔ bs.map latinChar = t
  | [], bs => by
      rw [encodeLatin, List.map_eq_nil_iff]
      exact ⟨fun h => (Except.ok.inj h).symm, fun h => congrArg _ h.symm⟩
  | c :: t, bs => by
      rw [encodeLatin, List.map_eq_cons_iff]
      constructor
      · intro h
        cases hbyte : latinByte? c with
        | none =>
          rw [hbyte] at h
          cases h
        | some b =>
          rw [hbyte] at h
          cases hrest : encodeLatin t with
          | error e =>
            rw [hrest] at h
            cases h
          | ok more =>
            rw [hrest] at h
            cases h
            exact ⟨b, more, rfl, latinByte?_eq_some_iff.mp hbyte, encodeLatin_eq_ok_iff.mp hrest⟩
      · rintro ⟨b, more, rfl, hbyte, hrest⟩
        rw [latinByte?_eq_some_iff.mpr hbyte, encodeLatin_eq_ok_iff.mpr hrest]

/-- What keeps to ASCII is written as in UTF-8. -/
theorem map_latinChar_encode : ∀ {t : Text}, t.IsAscii → (Utf8.encode t).map latinChar = t
  | [], _ => rfl
  | c :: t, h => by
      obtain ⟨hc, ht⟩ := List.forall_mem_cons.mp h
      have hcons : Utf8.encode (c :: t) = Utf8.encodeChar c ++ Utf8.encode t := List.flatMap_cons
      rw [hcons, Utf8.encodeChar_of_lt hc, List.singleton_append, List.map_cons, map_latinChar_encode ht,
        latinChar, Utf8.toNat_toUInt8 (by omega), Char.ofNat_toNat]

/-! ## All encodings -/

variable {e : Encoding} {t : Text} {bs : Bytes}

theorem encode_ascii_eq_ok_iff : encode .ascii t = .ok bs ↔ t.IsAscii ∧ bs = Utf8.encode t := by
  have hall : (t.all fun c => decide (c.toNat < 128)) = true ↔ t.IsAscii := by
    rw [List.all_eq_true]
    exact forall₂_congr fun c _ => decide_eq_true_iff
  rw [encode]
  constructor
  · intro h
    split at h
    · next hascii =>
      cases h
      exact ⟨hall.mp hascii, rfl⟩
    · cases h
  · rintro ⟨hascii, rfl⟩
    exact if_pos (hall.mpr hascii)

/-- What was encoded decodes to what it was. -/
theorem decode_of_encode (h : e.encode t = .ok bs) : e.decode bs = t := by
  cases e with
  | ascii =>
    obtain ⟨-, rfl⟩ := encode_ascii_eq_ok_iff.mp h
    exact Utf8.decode_encode t
  | utf8 =>
    cases h
    exact Utf8.decode_encode t
  | latin1 => exact encodeLatin_eq_ok_iff.mp h

theorem encode_eq_utf8 (h : e.encode t = .ok bs) (plain : e = .latin1 → t.IsAscii) : bs = Utf8.encode t := by
  cases e with
  | ascii => exact (encode_ascii_eq_ok_iff.mp h).2
  | utf8 => exact (Except.ok.inj h).symm
  | latin1 =>
    have hutf8 : encodeLatin t = .ok (Utf8.encode t) :=
      encodeLatin_eq_ok_iff.mpr (map_latinChar_encode (plain rfl))
    exact Except.ok.inj (h.symm.trans hutf8)

theorem decode_eq_utf8 (plain : e = .latin1 → ∀ b ∈ bs, b.toNat < 0x80) : e.decode bs = Utf8.decode bs := by
  cases e with
  | ascii => rfl
  | utf8 => rfl
  | latin1 =>
    have hlow := plain rfl
    rw [Utf8.decode_of_lt fun b hb => Nat.lt_trans (hlow b hb) (by decide)]
    exact List.map_congr_left fun b hb => (if_pos (hlow b hb)).symm

/-- Bytes of a text that are found among the bytes of another are found where the text is. -/
theorem split_of_encode {s : Text} {sep front behind : Bytes} (filled : s ≠ []) (hs : e.encode s = .ok sep)
    (ht : e.encode t = .ok (front ++ sep ++ behind)) :
    ∃ before after, t = before ++ s ++ after ∧ e.encode before = .ok front ∧ e.encode after = .ok behind := by
  cases e with
  | ascii =>
    obtain ⟨-, rfl⟩ := encode_ascii_eq_ok_iff.mp hs
    obtain ⟨hascii, hbytes⟩ := encode_ascii_eq_ok_iff.mp ht
    obtain ⟨before, after, rfl, rfl, rfl⟩ := Utf8.split_of_encode filled hbytes.symm
    refine ⟨before, after, rfl, encode_ascii_eq_ok_iff.mpr ⟨fun c hc => hascii c ?_, rfl⟩,
      encode_ascii_eq_ok_iff.mpr ⟨fun c hc => hascii c ?_, rfl⟩⟩
    · exact List.mem_append_left _ (List.mem_append_left _ hc)
    · exact List.mem_append_right _ hc
  | utf8 =>
    cases hs
    obtain ⟨before, after, hread, hbefore, hafter⟩ := Utf8.split_of_encode filled (Except.ok.inj ht)
    exact ⟨before, after, hread, congrArg _ hbefore, congrArg _ hafter⟩
  | latin1 =>
    have hsep : sep.map latinChar = s := encodeLatin_eq_ok_iff.mp hs
    have hread : (front ++ sep ++ behind).map latinChar = t := encodeLatin_eq_ok_iff.mp ht
    rw [List.map_append, List.map_append, hsep] at hread
    exact ⟨_, _, hread.symm, encodeLatin_eq_ok_iff.mpr rfl, encodeLatin_eq_ok_iff.mpr rfl⟩

theorem encode_append {s : Text} {cs : Bytes} (ht : e.encode t = .ok bs) (hs : e.encode s = .ok cs) :
    e.encode (t ++ s) = .ok (bs ++ cs) := by
  cases e with
  | ascii =>
    obtain ⟨htascii, rfl⟩ := encode_ascii_eq_ok_iff.mp ht
    obtain ⟨hsascii, rfl⟩ := encode_ascii_eq_ok_iff.mp hs
    refine encode_ascii_eq_ok_iff.mpr ⟨fun c hc => ?_, (Utf8.encode_append t s).symm⟩
    rcases List.mem_append.mp hc with hc | hc
    · exact htascii c hc
    · exact hsascii c hc
  | utf8 =>
    cases ht
    cases hs
    exact congrArg _ (Utf8.encode_append t s)
  | latin1 =>
    refine encodeLatin_eq_ok_iff.mpr ?_
    rw [List.map_append, encodeLatin_eq_ok_iff.mp ht, encodeLatin_eq_ok_iff.mp hs]

/-- The parts of a text that can be encoded can be. -/
theorem exists_encode_of_append {s : Text} (h : e.encode (t ++ s) = .ok bs) :
    ∃ front behind, bs = front ++ behind ∧ e.encode t = .ok front ∧ e.encode s = .ok behind := by
  cases e with
  | ascii =>
    obtain ⟨hascii, rfl⟩ := encode_ascii_eq_ok_iff.mp h
    refine ⟨_, _, Utf8.encode_append t s, encode_ascii_eq_ok_iff.mpr ⟨fun c hc => ?_, rfl⟩,
      encode_ascii_eq_ok_iff.mpr ⟨fun c hc => ?_, rfl⟩⟩
    · exact hascii c (List.mem_append_left _ hc)
    · exact hascii c (List.mem_append_right _ hc)
  | utf8 =>
    cases h
    exact ⟨_, _, Utf8.encode_append t s, rfl, rfl⟩
  | latin1 =>
    obtain ⟨front, behind, rfl, rfl, rfl⟩ := List.map_eq_append_iff.mp (encodeLatin_eq_ok_iff.mp h)
    exact ⟨front, behind, rfl, encodeLatin_eq_ok_iff.mpr rfl, encodeLatin_eq_ok_iff.mpr rfl⟩

theorem ne_nil_of_encode (filled : t ≠ []) (h : e.encode t = .ok bs) : bs ≠ [] := by
  rintro rfl
  have hread := decode_of_encode h
  cases e <;> exact filled hread.symm

/-! ## Terminations -/

section

variable {record termination : Text} {bytes sep : Bytes}

/-- A termination ends before its own place among the bytes where it does so in the text. -/
theorem ends_of_encode_iff (terminated : termination ≠ []) (encoded : e.encode record = .ok bytes)
    (hsep : e.encode termination = .ok sep) :
    sep <:+: (bytes ++ sep).dropLast ↔ termination <:+: (record ++ termination).dropLast := by
  rw [Split.infix_dropLast_iff terminated, Split.infix_dropLast_iff (ne_nil_of_encode terminated hsep)]
  have whole := encode_append encoded hsep
  constructor
  · rintro ⟨front, behind, hne, hfound⟩
    rw [hfound] at whole
    obtain ⟨before, after, hread, -, hafter⟩ := split_of_encode terminated hsep whole
    refine ⟨before, after, ?_, hread⟩
    rintro rfl
    have hnil : e.encode [] = .ok [] := by cases e <;> rfl
    exact hne (Except.ok.inj (hafter.symm.trans hnil))
  · rintro ⟨before, after, hne, hread⟩
    rw [hread] at whole
    obtain ⟨front, behind, hbytes, hfront, hbehind⟩ := exists_encode_of_append whole
    obtain ⟨first, middle, rfl, -, hmiddle⟩ := exists_encode_of_append hfront
    cases hsep.symm.trans hmiddle
    exact ⟨first, behind, ne_nil_of_encode hne hbehind, hbytes⟩

/-- Where the termination first ends in its own place, so do its bytes. -/
theorem ends_of_encode (terminated : termination ≠ []) (encoded : e.encode record = .ok bytes)
    (hsep : e.encode termination = .ok sep) (ends : ¬termination <:+: (record ++ termination).dropLast) :
    ¬sep <:+: (bytes ++ sep).dropLast :=
  mt (ends_of_encode_iff terminated encoded hsep).mp ends

end

/-! ## Bytes that read alike in Latin-1 and in UTF-8 -/

open Text

/-- A character of Latin-1 beyond ASCII. -/
def isHigh (c : Char) : Bool := 0x80 ≤ c.toNat && c.toNat < 0x100

/-- A character whose byte begins such characters in UTF-8. -/
def isLead (c : Char) : Bool := c.toNat = 0xC2 || c.toNat = 0xC3

/-- A character whose byte is the second of one of those. -/
def isSecond (c : Char) : Bool := c.toNat = 0x82 || c.toNat = 0x83

theorem encodeChar_of_isHigh {c : Char} (h : isHigh c = true) :
    Utf8.encodeChar c = [(0xC0 + c.toNat / 64).toUInt8, (0x80 + c.toNat % 64).toUInt8] := by
  simp only [isHigh, Bool.and_eq_true, decide_eq_true_eq] at h
  rw [Utf8.encodeChar, if_neg (by omega), if_pos (by omega)]

theorem lead_of_isHigh (c : Char) (h : isHigh c = true) :
    ∃ b ∈ Utf8.encodeChar c, isLead (latinChar b) = true := by
  refine ⟨(0xC0 + c.toNat / 64).toUInt8, ?_, ?_⟩
  · rw [encodeChar_of_isHigh h]
    exact List.mem_cons_self
  · simp only [isHigh, Bool.and_eq_true, decide_eq_true_eq] at h
    simp only [isLead, Bool.or_eq_true, decide_eq_true_eq]
    rw [toNat_latinChar, Utf8.toNat_toUInt8 (by omega)]
    omega

theorem isHigh_of_isLead {c : Char} (h : isLead c = true) : isHigh c = true := by
  simp only [isLead, Bool.or_eq_true, decide_eq_true_eq] at h
  simp only [isHigh, Bool.and_eq_true, decide_eq_true_eq]
  omega

theorem second_of_isLead (c : Char) (h : isLead c = true) :
    ∃ b ∈ Utf8.encodeChar c, isSecond (latinChar b) = true := by
  refine ⟨(0x80 + c.toNat % 64).toUInt8, ?_, ?_⟩
  · rw [encodeChar_of_isHigh (isHigh_of_isLead h)]
    exact List.mem_cons_of_mem _ List.mem_cons_self
  · simp only [isLead, Bool.or_eq_true, decide_eq_true_eq] at h
    simp only [isSecond, Bool.or_eq_true, decide_eq_true_eq]
    rw [toNat_latinChar, Utf8.toNat_toUInt8 (by omega)]
    omega

/-- The blanks of Latin-1 beyond ASCII. -/
theorem toNat_of_isBlank {c : Char} (h : isBlank c = true) (hlt : c.toNat < 0x100) :
    c.toNat < 0x80 ∨ c.toNat = 0x85 ∨ c.toNat = 0xA0 := by
  simp only [isBlank, Bool.or_eq_true, Bool.and_eq_true, decide_eq_true_eq, beq_iff_eq] at h
  omega

theorem not_isLead_of_isBlank (c : Char) (h : isBlank c = true) : isLead c = false := by
  rw [Bool.eq_false_iff]
  intro hlead
  simp only [isLead, Bool.or_eq_true, decide_eq_true_eq] at hlead
  have hblank := toNat_of_isBlank h (by omega)
  omega

theorem not_isSecond_of_isBlank (c : Char) (h : isBlank c = true) : isSecond c = false := by
  rw [Bool.eq_false_iff]
  intro hsecond
  simp only [isSecond, Bool.or_eq_true, decide_eq_true_eq] at hsecond
  have hblank := toNat_of_isBlank h (by omega)
  omega

/-- A high character cannot be a lead and a second byte at once. -/
theorem countP_isLead_add_le (t : Text) : t.countP isLead + t.countP isSecond ≤ t.countP isHigh := by
  induction t with
  | nil => exact Nat.le_refl 0
  | cons c t ih =>
    rw [List.countP_cons, List.countP_cons, List.countP_cons]
    by_cases hlead : isLead c = true
    · have hsecond : ¬isSecond c = true := by
        simp only [isLead, isSecond, Bool.or_eq_true, decide_eq_true_eq] at hlead ⊢
        omega
      rw [if_pos hlead, if_neg hsecond, if_pos (isHigh_of_isLead hlead)]
      omega
    · by_cases hsecond : isSecond c = true
      · have hhigh : isHigh c = true := by
          simp only [isSecond, Bool.or_eq_true, decide_eq_true_eq] at hsecond
          simp only [isHigh, Bool.and_eq_true, decide_eq_true_eq]
          omega
        rw [if_neg hlead, if_pos hsecond, if_pos hhigh]
        omega
      · rw [if_neg hlead, if_neg hsecond]
        omega

section

variable {segment line sep : Bytes} {termination : Text}

/-- What tells characters in UTF-8 is found in Latin-1, where a record is found that reads as the line. -/
theorem countP_le_of_read {p q : Char → Bool} (hp : p Utf8.replacement = false)
    (solid : ∀ c, isBlank c = true → q c = false)
    (told : ∀ c, p c = true → ∃ b ∈ Utf8.encodeChar c, q (latinChar b) = true)
    (hsep : sep.map latinChar = termination) (found : segment ++ Utf8.encode termination <:+: line ++ sep)
    (same : trim (Utf8.decode segment) = trim (line.map latinChar)) :
    (trim (line.map latinChar) ++ termination).countP p ≤ (trim (line.map latinChar) ++ termination).countP q := by
  have hrecord : (trim (line.map latinChar)).countP p ≤ segment.countP (q ∘ latinChar) := by
    rw [← same]
    exact Nat.le_trans (trim_isInfix _).countP_le (Utf8.countP_decode_le told hp segment)
  have htermination : termination.countP p ≤ (Utf8.encode termination).countP (q ∘ latinChar) := by
    have h := Utf8.countP_decode_le told hp (Utf8.encode termination)
    rwa [Utf8.decode_encode] at h
  calc (trim (line.map latinChar) ++ termination).countP p
      = (trim (line.map latinChar)).countP p + termination.countP p := List.countP_append
    _ ≤ segment.countP (q ∘ latinChar) + (Utf8.encode termination).countP (q ∘ latinChar) :=
        Nat.add_le_add hrecord htermination
    _ = (segment ++ Utf8.encode termination).countP (q ∘ latinChar) := List.countP_append.symm
    _ ≤ (line ++ sep).countP (q ∘ latinChar) := found.countP_le
    _ = (trim (line.map latinChar) ++ termination).countP q := by
        rw [List.countP_append, List.countP_append, countP_trim solid, ← hsep, List.countP_map, List.countP_map]

/-- Such a record holds ASCII only, and so does the termination. -/
theorem ascii_of_read (hsep : sep.map latinChar = termination)
    (found : segment ++ Utf8.encode termination <:+: line ++ sep)
    (same : trim (Utf8.decode segment) = trim (line.map latinChar)) :
    IsAscii (trim (line.map latinChar) ++ termination) := by
  have hlead := countP_le_of_read (p := isHigh) (by decide) not_isLead_of_isBlank lead_of_isHigh hsep found same
  have hsecond := countP_le_of_read (p := isLead) (by decide) not_isSecond_of_isBlank second_of_isLead hsep found same
  have hboth := countP_isLead_add_le (trim (line.map latinChar) ++ termination)
  have hnone : (trim (line.map latinChar) ++ termination).countP isHigh = 0 := by omega
  have hlatin : ∀ c ∈ trim (line.map latinChar) ++ termination, c.toNat < 0x100 := by
    intro c hc
    have hmem : c ∈ (line ++ sep).map latinChar := by
      rw [List.map_append, hsep]
      refine List.mem_append.mpr ((List.mem_append.mp hc).imp_left fun h => (trim_isInfix _).subset h)
    obtain ⟨b, -, rfl⟩ := List.mem_map.mp hmem
    rw [toNat_latinChar]
    exact b.toNat_lt
  intro c hc
  have hhigh := List.countP_eq_zero.mp hnone c hc
  have hlt := hlatin c hc
  simp only [isHigh, Bool.and_eq_true, decide_eq_true_eq] at hhigh
  omega

/-- A line that reads alike, and is ASCII but for blanks, is ASCII. -/
theorem ascii_of_trim (ascii : IsAscii (trim (line.map latinChar)))
    (same : trim (Utf8.decode line) = trim (line.map latinChar)) : IsAscii (line.map latinChar) := by
  have hlow : ∀ b ∈ line, b.toNat < 0xC2 := by
    intro b hb
    have hmem : latinChar b ∈ line.map latinChar := List.mem_map_of_mem hb
    rw [← toNat_latinChar]
    cases hblank : isBlank (latinChar b) with
    | true =>
      have hlt : (latinChar b).toNat < 0x100 := by
        rw [toNat_latinChar]
        exact b.toNat_lt
      have hcases := toNat_of_isBlank hblank hlt
      omega
    | false => exact Nat.lt_trans (ascii _ ((mem_trim_iff hblank).mpr hmem)) (by decide)
  intro c hc
  obtain ⟨b, hb, rfl⟩ := List.mem_map.mp hc
  rw [toNat_latinChar]
  by_cases hascii : b.toNat < 0x80
  · exact hascii
  · have hbroken : Utf8.replacement ∈ Utf8.decode line := by
      rw [Utf8.decode_of_lt hlow]
      exact List.mem_map.mpr ⟨b, hb, if_neg hascii⟩
    have hread : Utf8.replacement ∈ trim (line.map latinChar) := by
      rw [← same]
      exact (mem_trim_iff (by decide)).mpr hbroken
    exact absurd (ascii _ hread) (by decide)

end

end Encoding

end GroundStation
