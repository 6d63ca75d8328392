/-
# Reading what was written

A text that is written in UTF-8 reads back as itself, strictly and leniently (`decode_encode`).  The reader
takes a character's bytes one at a time: the first tells how many more are owed and where the next has to
lie, and each of the others adds six bits.  What makes this a case analysis is that the range of the second
byte is narrower behind four of the leading bytes; each of these bounds is met because the writer takes
the shortest form, because no character is a surrogate, or because no character lies beyond U+10FFFF.

A byte below 128 is written for the character of that value and for no other, so bytes and text are cut into
lines in the same places (`mem_encode_iff`).
-/
import GroundStation.Text.Utf8

namespace GroundStation

namespace Utf8

theorem toNat_toUInt8 {n : Nat} (h : n < 256) : n.toUInt8.toNat = n := by
  simp [Nat.toUInt8, Nat.mod_eq_of_lt h]

/-! ## One byte -/

/-- A byte that is owed adds its six bits. -/
theorem step_within {value missing low high k : Nat} {b : UInt8} (hb : b.toNat = 0x80 + k)
    (hlow : low ≤ 0x80 + k) (hhigh : 0x80 + k ≤ high) :
    step (.within value missing low high) b =
      if missing ≤ 1 then ([Char.ofNat (value * 64 + k)], .start)
      else ([], .within (value * 64 + k) (missing - 1) 0x80 0xBF) := by
  have hrange : low ≤ b.toNat ∧ b.toNat ≤ high := by
    rw [hb]
    exact ⟨hlow, hhigh⟩
  rw [step, if_pos hrange, hb, Nat.add_sub_cancel_left]

/-- The last byte of a character. -/
theorem decodeFrom_last {value low high k : Nat} (hk : k < 64) (hlow : low ≤ 0x80 + k)
    (hhigh : 0x80 + k ≤ high) (bs : Bytes) :
    decodeFrom (.within value 1 low high) ((0x80 + k).toUInt8 :: bs) =
      Char.ofNat (value * 64 + k) :: decodeFrom .start bs := by
  have hbyte : (0x80 + k).toUInt8.toNat = 0x80 + k := toNat_toUInt8 (by omega)
  rw [decodeFrom, step_within hbyte hlow hhigh, if_pos (Nat.le_refl 1)]
  rfl

/-- A byte of a character that is neither the first nor the last. -/
theorem decodeFrom_more {value missing low high k : Nat} (hk : k < 64) (hlow : low ≤ 0x80 + k)
    (hhigh : 0x80 + k ≤ high) (bs : Bytes) :
    decodeFrom (.within value (missing + 2) low high) ((0x80 + k).toUInt8 :: bs) =
      decodeFrom (.within (value * 64 + k) (missing + 1) 0x80 0xBF) bs := by
  have hbyte : (0x80 + k).toUInt8.toNat = 0x80 + k := toNat_toUInt8 (by omega)
  rw [decodeFrom, step_within hbyte hlow hhigh, if_neg (by omega)]
  rfl

/-- The first byte of a character that has more. -/
theorem decodeFrom_leading {b : UInt8} {s : State} (h : leading b = ([], s)) (bs : Bytes) :
    decodeFrom .start (b :: bs) = decodeFrom s bs := by
  rw [decodeFrom, step, h]
  rfl

theorem leading_two {n : Nat} (h : 0x80 ≤ n) (h' : n < 0x800) :
    leading (0xC0 + n / 64).toUInt8 = ([], .within (n / 64) 1 0x80 0xBF) := by
  have hbyte : (0xC0 + n / 64).toUInt8.toNat = 0xC0 + n / 64 := toNat_toUInt8 (by omega)
  simp only [leading, hbyte]
  rw [if_neg (by omega), if_neg (by omega), if_pos (by omega), Nat.add_sub_cancel_left]

/-- The least and the greatest second byte of a character of three bytes. -/
theorem leading_three {n : Nat} (h : n < 0x10000) : ∃ low high,
    leading (0xE0 + n / 4096).toUInt8 = ([], .within (n / 4096) 2 low high) ∧
      (0x800 ≤ n → n < 0xD800 ∨ 0xDFFF < n →
        low ≤ 0x80 + n / 64 % 64 ∧ 0x80 + n / 64 % 64 ≤ high) := by
  have hbyte : (0xE0 + n / 4096).toUInt8.toNat = 0xE0 + n / 4096 := toNat_toUInt8 (by omega)
  simp only [leading, hbyte]
  rw [if_neg (by omega), if_neg (by omega), if_neg (by omega)]
  by_cases hfirst : n / 4096 = 0
  · rw [if_pos (by omega), hfirst]
    exact ⟨0xA0, 0xBF, rfl, by omega⟩
  · rw [if_neg (by omega)]
    by_cases hsurrogates : n / 4096 = 0xD
    · rw [if_pos (by omega), hsurrogates]
      exact ⟨0x80, 0x9F, rfl, by omega⟩
    · rw [if_neg (by omega), if_pos (by omega), Nat.add_sub_cancel_left]
      exact ⟨0x80, 0xBF, rfl, by omega⟩

/-- The least and the greatest second byte of a character of four bytes. -/
theorem leading_four {n : Nat} (h : n < 0x110000) : ∃ low high,
    leading (0xF0 + n / 262144).toUInt8 = ([], .within (n / 262144) 3 low high) ∧
      (0x10000 ≤ n → low ≤ 0x80 + n / 4096 % 64 ∧ 0x80 + n / 4096 % 64 ≤ high) := by
  have hbyte : (0xF0 + n / 262144).toUInt8.toNat = 0xF0 + n / 262144 := toNat_toUInt8 (by omega)
  simp only [leading, hbyte]
  rw [if_neg (by omega), if_neg (by omega), if_neg (by omega), if_neg (by omega), if_neg (by omega),
    if_neg (by omega)]
  by_cases hfirst : n / 262144 = 0
  · rw [if_pos (by omega), hfirst]
    exact ⟨0x90, 0xBF, rfl, by omega⟩
  · rw [if_neg (by omega)]
    by_cases hlast : n / 262144 = 4
    · rw [if_neg (by omega), if_pos (by omega), hlast]
      exact ⟨0x80, 0x8F, rfl, by omega⟩
    · rw [if_pos (by omega), Nat.add_sub_cancel_left]
      exact ⟨0x80, 0xBF, rfl, by omega⟩

/-! ## One character, and a text -/

theorem toNat_lt (c : Char) : c.toNat < 0x110000 := by
  rcases c.valid with h | ⟨-, h⟩
  · exact Nat.lt_trans h (by decide)
  · exact h

theorem not_surrogate (c : Char) : c.toNat < 0xD800 ∨ 0xDFFF < c.toNat := by
  rcases c.valid with h | ⟨h, -⟩
  · exact .inl h
  · exact .inr h

/-- A character that was written is read, whatever follows it. -/
theorem decodeFrom_encodeChar (c : Char) (bs : Bytes) :
    decodeFrom .start (encodeChar c ++ bs) = c :: decodeFrom .start bs := by
  have hlt := toNat_lt c
  have hscalar := not_surrogate c
  have hc : Char.ofNat c.toNat = c := Char.ofNat_toNat c
  rw [encodeChar]
  generalize c.toNat = n at hlt hscalar hc ⊢
  split
  · next hone =>
    have hbyte : n.toUInt8.toNat = n := toNat_toUInt8 (by omega)
    rw [List.singleton_append, decodeFrom, step, leading]
    simp only [hbyte]
    rw [if_pos hone, hc]
    rfl
  · next hone =>
    split
    · next htwo =>
      have hvalue : n / 64 * 64 + n % 64 = n := by omega
      rw [List.cons_append, decodeFrom_leading (leading_two (by omega) htwo), List.singleton_append,
        decodeFrom_last (by omega) (by omega) (by omega), hvalue, hc]
    · next htwo =>
      split
      · next hthree =>
        obtain ⟨low, high, hleading, hbounds⟩ := leading_three hthree
        obtain ⟨hlow, hhigh⟩ := hbounds (by omega) hscalar
        have hvalue : (n / 4096 * 64 + n / 64 % 64) * 64 + n % 64 = n := by omega
        rw [List.cons_append, decodeFrom_leading hleading, List.cons_append,
          decodeFrom_more (by omega) hlow hhigh, List.singleton_append,
          decodeFrom_last (by omega) (by omega) (by omega), hvalue, hc]
      · next hthree =>
        obtain ⟨low, high, hleading, hbounds⟩ := leading_four hlt
        obtain ⟨hlow, hhigh⟩ := hbounds (by omega)
        have hvalue : ((n / 262144 * 64 + n / 4096 % 64) * 64 + n / 64 % 64) * 64 + n % 64 = n := by omega
        rw [List.cons_append, decodeFrom_leading hleading, List.cons_append,
          decodeFrom_more (by omega) hlow hhigh, List.cons_append,
          decodeFrom_more (by omega) (by omega) (by omega), List.singleton_append,
          decodeFrom_last (by omega) (by omega) (by omega), hvalue, hc]

/-- A text that was written reads back, whatever follows it. -/
theorem decode_encode_append (t : Text) (bs : Bytes) : decode (encode t ++ bs) = t ++ decode bs := by
  induction t with
  | nil => rfl
  | cons c t ih =>
    have hcons : encode (c :: t) = encodeChar c ++ encode t := List.flatMap_cons
    rw [hcons, List.append_assoc, decode, decodeFrom_encodeChar]
    exact congrArg (c :: ·) ih

theorem decode_encode (t : Text) : decode (encode t) = t := by
  have h := decode_encode_append t []
  rwa [List.append_nil, decode_nil, List.append_nil] at h

theorem strict?_encode (t : Text) : strict? (encode t) = some t := by
  rw [strict?, decode_encode, if_pos rfl]

/-! ## Bytes below 128 -/

/-- A byte below 128 is written for one character only. -/
theorem mem_encodeChar_iff {b : UInt8} (h : b.toNat < 0x80) {c : Char} :
    b ∈ encodeChar c ↔ c.toNat = b.toNat := by
  have hlt := toNat_lt c
  rw [encodeChar]
  generalize c.toNat = n at hlt ⊢
  have hbyte : ∀ k, k < 256 → (b = k.toUInt8 ↔ b.toNat = k) := fun k hk => by
    rw [← UInt8.toNat_inj, toNat_toUInt8 hk]
  split
  · rw [List.mem_singleton, hbyte n (by omega), eq_comm]
  · split
    · simp only [List.mem_cons, List.not_mem_nil, or_false]
      rw [hbyte _ (by omega), hbyte _ (by omega)]
      omega
    · split
      · simp only [List.mem_cons, List.not_mem_nil, or_false]
        rw [hbyte _ (by omega), hbyte _ (by omega), hbyte _ (by omega)]
        omega
      · simp only [List.mem_cons, List.not_mem_nil, or_false]
        rw [hbyte _ (by omega), hbyte _ (by omega), hbyte _ (by omega), hbyte _ (by omega)]
        omega

/-- A character below 128 occurs in a text exactly if its byte occurs in the bytes. -/
theorem mem_encode_iff {b : UInt8} (h : b.toNat < 0x80) {t : Text} :
    b ∈ encode t ↔ ∃ c ∈ t, c.toNat = b.toNat := by
  rw [encode, List.mem_flatMap]
  exact exists_congr fun c => and_congr_right fun _ => mem_encodeChar_iff h

end Utf8

end GroundStation
