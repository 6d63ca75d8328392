/-
# How bytes are read in pieces

Whatever the bytes are, the reader of UTF-8 cuts them into pieces: the bytes of one character each, and
pieces that are broken and read as U+FFFD (`reads_decode`).  So a character that is read accounts for the
bytes it is written in, and characters can be counted by their bytes (`countP_decode_le`).

A character is written in a first byte and bytes from 128 to 191, and none of the latter is a first byte.
So nobody who looks for the bytes of a text finds them across the characters of another: bytes that are found
are found where the text is (`split_of_encode`).

A byte of ASCII is a character by itself and breaks off what has begun before it, so what stands on both sides
of it is read apart (`decode_append_cons`).

Below 194 nothing begins a character of several bytes, and bytes are read one by one (`decode_of_lt`).
-/
import GroundStation.Proofs.Text.Utf8

namespace GroundStation

namespace Utf8

theorem toNat_ofNat {n : Nat} (h : n.isValidChar) : (Char.ofNat n).toNat = n := by
  rw [Char.ofNat, dif_pos h]
  rfl

/-! ## Characters from their bytes -/

/-- A byte that continues a character. -/
def Continues (b : UInt8) : Prop := 0x80 ≤ b.toNat ∧ b.toNat ≤ 0xBF

theorem toUInt8_toNat (b : UInt8) : b.toNat.toUInt8 = b := UInt8.ofNat_toNat

/-- What a character of two bytes is written in. -/
theorem encodeChar_two {b c : UInt8} (hb : 0xC2 ≤ b.toNat) (hb' : b.toNat < 0xE0) (hc : Continues c) :
    encodeChar (Char.ofNat ((b.toNat - 0xC0) * 64 + (c.toNat - 0x80))) = [b, c] := by
  obtain ⟨hlow, hhigh⟩ := hc
  have hvalid : ((b.toNat - 0xC0) * 64 + (c.toNat - 0x80)).isValidChar := by
    rw [Nat.isValidChar]
    omega
  rw [encodeChar, toNat_ofNat hvalid]
  rw [if_neg (by omega), if_pos (by omega)]
  have hfirst : 0xC0 + ((b.toNat - 0xC0) * 64 + (c.toNat - 0x80)) / 64 = b.toNat := by omega
  have hsecond : 0x80 + ((b.toNat - 0xC0) * 64 + (c.toNat - 0x80)) % 64 = c.toNat := by omega
  rw [hfirst, hsecond, toUInt8_toNat, toUInt8_toNat]

/-- What a character of three bytes is written in, where they are not too many for it and it is no
surrogate. -/
theorem encodeChar_three {b c d : UInt8} (hb : 0xE0 ≤ b.toNat) (hb' : b.toNat < 0xF0) (hc : Continues c)
    (hd : Continues d) (needed : b.toNat = 0xE0 → 0xA0 ≤ c.toNat) (scalar : b.toNat = 0xED → c.toNat ≤ 0x9F) :
    encodeChar (Char.ofNat (((b.toNat - 0xE0) * 64 + (c.toNat - 0x80)) * 64 + (d.toNat - 0x80))) =
      [b, c, d] := by
  obtain ⟨hclow, hchigh⟩ := hc
  obtain ⟨hdlow, hdhigh⟩ := hd
  obtain ⟨n, hn⟩ : ∃ n, n = ((b.toNat - 0xE0) * 64 + (c.toNat - 0x80)) * 64 + (d.toNat - 0x80) := ⟨_, rfl⟩
  have hvalid : n.isValidChar := by
    rw [Nat.isValidChar]
    omega
  rw [← hn, encodeChar, toNat_ofNat hvalid]
  rw [if_neg (by omega), if_neg (by omega), if_pos (by omega)]
  have hfirst : 0xE0 + n / 4096 = b.toNat := by omega
  have hsecond : 0x80 + n / 64 % 64 = c.toNat := by omega
  have hthird : 0x80 + n % 64 = d.toNat := by omega
  rw [hfirst, hsecond, hthird, toUInt8_toNat, toUInt8_toNat, toUInt8_toNat]

/-- What a character of four bytes is written in, where they are not too many for it and there is one. -/
theorem encodeChar_four {b c d e : UInt8} (hb : 0xF0 ≤ b.toNat) (hb' : b.toNat < 0xF5) (hc : Continues c)
    (hd : Continues d) (he : Continues e) (needed : b.toNat = 0xF0 → 0x90 ≤ c.toNat)
    (scalar : b.toNat = 0xF4 → c.toNat ≤ 0x8F) :
    encodeChar (Char.ofNat ((((b.toNat - 0xF0) * 64 + (c.toNat - 0x80)) * 64 + (d.toNat - 0x80)) * 64 +
      (e.toNat - 0x80))) = [b, c, d, e] := by
  obtain ⟨hclow, hchigh⟩ := hc
  obtain ⟨hdlow, hdhigh⟩ := hd
  obtain ⟨helow, hehigh⟩ := he
  obtain ⟨n, hn⟩ : ∃ n, n = (((b.toNat - 0xF0) * 64 + (c.toNat - 0x80)) * 64 + (d.toNat - 0x80)) * 64 +
    (e.toNat - 0x80) := ⟨_, rfl⟩
  have hvalid : n.isValidChar := by
    rw [Nat.isValidChar]
    omega
  rw [← hn, encodeChar, toNat_ofNat hvalid]
  rw [if_neg (by omega), if_neg (by omega), if_neg (by omega)]
  have hfirst : 0xF0 + n / 262144 = b.toNat := by omega
  have hsecond : 0x80 + n / 4096 % 64 = c.toNat := by omega
  have hthird : 0x80 + n / 64 % 64 = d.toNat := by omega
  have hfourth : 0x80 + n % 64 = e.toNat := by omega
  rw [hfirst, hsecond, hthird, hfourth, toUInt8_toNat, toUInt8_toNat, toUInt8_toNat, toUInt8_toNat]

/-- A character is written in a byte that does not continue one, and bytes that do. -/
theorem exists_encodeChar (c : Char) :
    ∃ first more, encodeChar c = first :: more ∧ ¬Continues first ∧ ∀ b ∈ more, Continues b := by
  have hlt := toNat_lt c
  rw [encodeChar]
  generalize c.toNat = n at hlt ⊢
  have hcontinues : ∀ k, k < 64 → Continues (0x80 + k).toUInt8 := by
    intro k hk
    rw [Continues, toNat_toUInt8 (by omega)]
    omega
  have hfirst : ∀ k, k < 256 → k < 0x80 ∨ 0xC0 ≤ k → ¬Continues k.toUInt8 := by
    intro k hk hout
    rw [Continues, toNat_toUInt8 hk]
    omega
  split
  · exact ⟨_, _, rfl, hfirst n (by omega) (by omega), List.forall_mem_nil _⟩
  · split
    · refine ⟨_, _, rfl, hfirst _ (by omega) (by omega), ?_⟩
      simp only [List.forall_mem_cons]
      exact ⟨hcontinues _ (by omega), List.forall_mem_nil _⟩
    · split
      · refine ⟨_, _, rfl, hfirst _ (by omega) (by omega), ?_⟩
        simp only [List.forall_mem_cons]
        exact ⟨hcontinues _ (by omega), hcontinues _ (by omega), List.forall_mem_nil _⟩
      · refine ⟨_, _, rfl, hfirst _ (by omega) (by omega), ?_⟩
        simp only [List.forall_mem_cons]
        exact ⟨hcontinues _ (by omega), hcontinues _ (by omega), hcontinues _ (by omega), List.forall_mem_nil _⟩

/-! ## A text within a text -/

/-- Bytes that begin between characters are those of the rest of the text. -/
theorem encode_eq_append {bs : Bytes} (between : ∀ b rest, bs = b :: rest → ¬Continues b) :
    ∀ {t : Text} {front : Bytes}, encode t = front ++ bs →
      ∃ before after, t = before ++ after ∧ encode before = front ∧ encode after = bs
  | [], front, h => by
      obtain ⟨rfl, rfl⟩ := List.nil_eq_append_iff.mp h
      exact ⟨[], [], rfl, rfl, rfl⟩
  | c :: t, front, h => by
      have hcons : encode (c :: t) = encodeChar c ++ encode t := List.flatMap_cons
      rcases List.append_eq_append_iff.mp (hcons.symm.trans h) with ⟨behind, rfl, hrest⟩ | ⟨cut, hchar, rfl⟩
      · obtain ⟨before, after, rfl, rfl, hafter⟩ := encode_eq_append between hrest
        exact ⟨c :: before, after, rfl, List.flatMap_cons, hafter⟩
      · obtain ⟨first, more, hfirst, -, hmore⟩ := exists_encodeChar c
        cases front with
        | nil => exact ⟨[], c :: t, rfl, rfl, by rw [hcons, hchar, List.nil_append]⟩
        | cons f front =>
          cases cut with
          | nil =>
            rw [List.append_nil] at hchar
            exact ⟨[c], t, rfl, (List.append_nil _).trans hchar, rfl⟩
          | cons b cut =>
            -- the cut goes through the character
            rw [hfirst, List.cons_append] at hchar
            obtain ⟨-, rfl⟩ := List.cons.inj hchar
            exact absurd (hmore b (List.mem_append_right front List.mem_cons_self)) (between b _ rfl)

/-- Bytes of a text that are found among the bytes of another are found where the text is. -/
theorem split_of_encode {s t : Text} {front behind : Bytes} (filled : s ≠ [])
    (h : encode t = front ++ encode s ++ behind) :
    ∃ before after, t = before ++ s ++ after ∧ encode before = front ∧ encode after = behind := by
  obtain ⟨c, s', rfl⟩ := List.exists_cons_of_ne_nil filled
  obtain ⟨first, more, hfirst, hbegins, -⟩ := exists_encodeChar c
  have hcons : encode (c :: s') = first :: (more ++ encode s') := by
    rw [← List.cons_append, ← hfirst]
    exact List.flatMap_cons
  have between : ∀ b rest, encode (c :: s') ++ behind = b :: rest → ¬Continues b := by
    intro b rest hb
    rw [hcons, List.cons_append] at hb
    rwa [← (List.cons.inj hb).1]
  rw [List.append_assoc] at h
  obtain ⟨before, rest, rfl, hbefore, hrest⟩ := encode_eq_append between h
  have hread : rest = (c :: s') ++ decode behind := by
    rw [← decode_encode_append, ← hrest, decode_encode]
  rw [hread, encode_append] at hrest
  exact ⟨before, decode behind, by rw [hread, List.append_assoc], hbefore, List.append_cancel_left hrest⟩

/-! ## Pieces -/

/-- What bytes read as, piece by piece. -/
inductive Reads : Bytes → Text → Prop
  | nil : Reads [] []
  | char {bs : Bytes} {t : Text} (c : Char) : Reads bs t → Reads (encodeChar c ++ bs) (c :: t)
  | broken {bs : Bytes} {t : Text} (piece : Bytes) : Reads bs t → Reads (piece ++ bs) (replacement :: t)

/-- The value of a character once the bytes that are owed have come. -/
def valueOf (value : Nat) (owed : Bytes) : Nat := owed.foldl (fun v b => v * 64 + (b.toNat - 0x80)) value

theorem valueOf_cons (value : Nat) (b : UInt8) (owed : Bytes) :
    valueOf value (b :: owed) = valueOf (value * 64 + (b.toNat - 0x80)) owed := by
  rw [valueOf, List.foldl_cons, valueOf]

/-- The bytes that have led to a state: what is owed there completes them to the bytes of a character. -/
def Begun : State → Bytes → Prop
  | .start, begun => begun = []
  | .within value missing low high, begun =>
    1 ≤ missing ∧ ∀ b rest, low ≤ b.toNat → b.toNat ≤ high → rest.length + 1 = missing →
      (∀ c ∈ rest, Continues c) → begun ++ b :: rest = encodeChar (Char.ofNat (valueOf value (b :: rest)))

theorem begun_two {b : UInt8} (hb : 0xC2 ≤ b.toNat) (hb' : b.toNat < 0xE0) :
    Begun (.within (b.toNat - 0xC0) 1 0x80 0xBF) [b] := by
  refine ⟨Nat.le_refl 1, fun c rest hlow hhigh hlength _ => ?_⟩
  obtain rfl : rest = [] := List.length_eq_zero_iff.mp (by omega)
  exact (encodeChar_two hb hb' ⟨hlow, hhigh⟩).symm

theorem begun_three {b : UInt8} {v low high : Nat} (hb : b.toNat = 0xE0 + v) (hv : v < 16)
    (hrange : ∀ n, low ≤ n → n ≤ high →
      0x80 ≤ n ∧ n ≤ 0xBF ∧ (v = 0 → 0xA0 ≤ n) ∧ (v = 0xD → n ≤ 0x9F)) :
    Begun (.within v 2 low high) [b] := by
  refine ⟨by decide, fun c rest hlow hhigh hlength hrest => ?_⟩
  obtain ⟨d, rfl⟩ := List.length_eq_one_iff.mp (Nat.succ.inj hlength)
  obtain ⟨hclow, hchigh, hneeded, hscalar⟩ := hrange c.toNat hlow hhigh
  have h := encodeChar_three (by omega) (by omega) ⟨hclow, hchigh⟩ (hrest d List.mem_cons_self)
    (b := b) (by omega) (by omega)
  rw [hb, Nat.add_sub_cancel_left] at h
  exact h.symm

theorem begun_four {b : UInt8} {v low high : Nat} (hb : b.toNat = 0xF0 + v) (hv : v < 5)
    (hrange : ∀ n, low ≤ n → n ≤ high →
      0x80 ≤ n ∧ n ≤ 0xBF ∧ (v = 0 → 0x90 ≤ n) ∧ (v = 4 → n ≤ 0x8F)) :
    Begun (.within v 3 low high) [b] := by
  refine ⟨by decide, fun c rest hlow hhigh hlength hrest => ?_⟩
  obtain ⟨d, rest, rfl⟩ := List.exists_cons_of_length_eq_add_one (Nat.succ.inj hlength)
  obtain ⟨e, rfl⟩ := List.length_eq_one_iff.mp (Nat.succ.inj (Nat.succ.inj hlength))
  obtain ⟨hclow, hchigh, hneeded, hscalar⟩ := hrange c.toNat hlow hhigh
  obtain ⟨hd, he⟩ := List.forall_mem_cons.mp hrest
  have h := encodeChar_four (by omega) (by omega) ⟨hclow, hchigh⟩ hd (he e List.mem_cons_self)
    (b := b) (by omega) (by omega)
  rw [hb, Nat.add_sub_cancel_left] at h
  exact h.symm

/-- A byte between characters is a character, or is broken, or begins a character. -/
theorem begun_leading (b : UInt8) :
    (∃ c, leading b = ([c], .start) ∧ (encodeChar c = [b] ∨ c = replacement)) ∨
      ∃ s, leading b = ([], s) ∧ Begun s [b] := by
  unfold leading
  dsimp only
  -- the ranges of leading bytes in their order
  repeat' refine iteInduction (motive := fun read : Text × State =>
    (∃ c, read = ([c], .start) ∧ (encodeChar c = [b] ∨ c = replacement)) ∨
      ∃ s, read = ([], s) ∧ Begun s [b]) (fun _ => ?_) fun _ => ?_
  · next hone =>
    refine .inl ⟨_, rfl, .inl ?_⟩
    rw [encodeChar, toNat_ofNat (.inl (by omega)), if_pos hone, toUInt8_toNat]
  · exact .inl ⟨_, rfl, .inr rfl⟩
  · exact .inr ⟨_, rfl, begun_two (by omega) (by omega)⟩
  · exact .inr ⟨_, rfl, begun_three (v := 0) (by omega) (by omega) (by omega)⟩
  · exact .inr ⟨_, rfl, begun_three (v := 0xD) (by omega) (by omega) (by omega)⟩
  · exact .inr ⟨_, rfl, begun_three (by omega) (by omega) (by omega)⟩
  · exact .inr ⟨_, rfl, begun_four (v := 0) (by omega) (by omega) (by omega)⟩
  · exact .inr ⟨_, rfl, begun_four (by omega) (by omega) (by omega)⟩
  · exact .inr ⟨_, rfl, begun_four (v := 4) (by omega) (by omega) (by omega)⟩
  · exact .inl ⟨_, rfl, .inr rfl⟩

/-- A byte that is owed completes a character, or leaves less to be owed. -/
theorem Begun.step_within {value missing low high : Nat} {begun : Bytes} {b : UInt8}
    (h : Begun (.within value missing low high) begun) (hlow : low ≤ b.toNat) (hhigh : b.toNat ≤ high) :
    (∃ c, step (.within value missing low high) b = ([c], .start) ∧ encodeChar c = begun ++ [b]) ∨
      ∃ s, step (.within value missing low high) b = ([], s) ∧ Begun s (begun ++ [b]) := by
  obtain ⟨hmissing, hcompletes⟩ := h
  rw [step, if_pos ⟨hlow, hhigh⟩]
  dsimp only
  split
  · next hlast =>
    have hone : ([] : Bytes).length + 1 = missing := by
      rw [List.length_nil]
      omega
    exact .inl ⟨_, rfl, (hcompletes b [] hlow hhigh hone (List.forall_mem_nil _)).symm⟩
  · next hmore =>
    refine .inr ⟨_, rfl, by omega, fun c rest hclow hchigh hlength hrest => ?_⟩
    rw [List.append_assoc, List.singleton_append, ← valueOf_cons]
    refine hcompletes b (c :: rest) hlow hhigh ?_ (List.forall_mem_cons.mpr ⟨⟨hclow, hchigh⟩, hrest⟩)
    rw [List.length_cons]
    omega

theorem reads_decodeFrom (bs : Bytes) :
    ∀ {s : State} {begun : Bytes}, Begun s begun → Reads (begun ++ bs) (decodeFrom s bs) := by
  induction bs with
  | nil =>
    intro s begun h
    cases s with
    | start =>
      cases h
      exact .nil
    | within value missing low high => exact .broken begun .nil
  | cons b bs ih =>
    have hstart : Reads (b :: bs) (decodeFrom .start (b :: bs)) := by
      rw [decodeFrom, step]
      rcases begun_leading b with ⟨c, hleading, hc⟩ | ⟨s, hleading, hbegun⟩
      · rw [hleading]
        have hrest : Reads bs (decodeFrom .start bs) := ih (s := .start) rfl
        rcases hc with hc | rfl
        · have h := Reads.char c hrest
          rwa [hc] at h
        · exact .broken [b] hrest
      · rw [hleading]
        exact ih hbegun
    intro s begun h
    cases s with
    | start =>
      cases h
      exact hstart
    | within value missing low high =>
      by_cases hrange : low ≤ b.toNat ∧ b.toNat ≤ high
      · rw [decodeFrom, ← List.singleton_append, ← List.append_assoc]
        rcases h.step_within hrange.1 hrange.2 with ⟨c, hstep, hc⟩ | ⟨s, hstep, hbegun⟩
        · rw [hstep, ← hc]
          exact .char c (ih (s := .start) rfl)
        · rw [hstep]
          exact ih hbegun
      · rw [decodeFrom, step, if_neg hrange]
        exact .broken begun hstart

theorem reads_decode (bs : Bytes) : Reads bs (decode bs) := reads_decodeFrom bs (s := .start) rfl

variable {p : Char → Bool} {q : UInt8 → Bool}

theorem Reads.countP_le (told : ∀ c, p c = true → ∃ b ∈ encodeChar c, q b = true)
    (hp : p replacement = false) {bs : Bytes} {t : Text} (h : Reads bs t) : t.countP p ≤ bs.countP q := by
  induction h with
  | nil => exact Nat.le_refl 0
  | @char bs t c _ ih =>
    rw [List.countP_append, List.countP_cons]
    split
    · next hc =>
      obtain ⟨b, hb, hq⟩ := told c hc
      have hpos : 0 < (encodeChar c).countP q := List.countP_pos_iff.mpr ⟨b, hb, hq⟩
      omega
    · omega
  | broken piece _ ih =>
    rw [List.countP_append, List.countP_cons_of_neg (by rw [hp]; exact Bool.false_ne_true)]
    omega

/-- Characters that are told by a byte of theirs are at most as many as such bytes. -/
theorem countP_decode_le (told : ∀ c, p c = true → ∃ b ∈ encodeChar c, q b = true)
    (hp : p replacement = false) (bs : Bytes) : (decode bs).countP p ≤ bs.countP q :=
  (reads_decode bs).countP_le told hp

/-! ## ASCII -/

/-- What reads as two texts together is two byte strings that read as them. -/
theorem Reads.exists_append {t : Text} :
    ∀ {s : Text} {bs : Bytes}, Reads bs (s ++ t) → ∃ front behind, bs = front ++ behind ∧ Reads front s ∧ Reads behind t
  | [], bs, h => ⟨[], bs, rfl, .nil, h⟩
  | c :: s, bs, h => by
      rw [List.cons_append] at h
      cases h with
      | char _ hrest =>
        obtain ⟨front, behind, rfl, hfront, hbehind⟩ := hrest.exists_append
        exact ⟨encodeChar c ++ front, behind, (List.append_assoc ..).symm, .char c hfront, hbehind⟩
      | broken piece hrest =>
        obtain ⟨front, behind, rfl, hfront, hbehind⟩ := hrest.exists_append
        exact ⟨piece ++ front, behind, (List.append_assoc ..).symm, .broken piece hfront, hbehind⟩

/-- A text of ASCII is read from its own bytes only. -/
theorem Reads.exists_ascii {t : Text} :
    ∀ {s : Text} {bs : Bytes}, (∀ c ∈ s, c.toNat < 0x80) → Reads bs (s ++ t) →
      ∃ rest, bs = encode s ++ rest ∧ Reads rest t
  | [], bs, _, h => ⟨bs, rfl, h⟩
  | c :: s, bs, ascii, h => by
      obtain ⟨hc, hs⟩ := List.forall_mem_cons.mp ascii
      rw [List.cons_append] at h
      cases h with
      | char _ hrest =>
        obtain ⟨rest, rfl, ht⟩ := hrest.exists_ascii hs
        have hcons : encode (c :: s) = encodeChar c ++ encode s := List.flatMap_cons
        exact ⟨rest, by rw [hcons, List.append_assoc], ht⟩
      | broken => exact absurd hc (by decide)

/-- Where a text of ASCII stands in what is read, its bytes stand in what was there to be read. -/
theorem encode_infix_of_infix_decode {s : Text} (ascii : ∀ c ∈ s, c.toNat < 0x80) {bs : Bytes}
    (h : s <:+: decode bs) : encode s <:+: bs := by
  obtain ⟨before, after, hread⟩ := h
  have hreads := reads_decode bs
  rw [← hread, List.append_assoc] at hreads
  obtain ⟨front, behind, rfl, -, hbehind⟩ := hreads.exists_append
  obtain ⟨rest, rfl, -⟩ := hbehind.exists_ascii ascii
  exact ⟨front, rest, List.append_assoc ..⟩

/-- No byte of ASCII continues what has begun. -/
def State.Guarded : State → Prop
  | .start => True
  | .within _ _ low _ => 0x80 ≤ low

theorem guarded_leading (b : UInt8) : (leading b).2.Guarded := by
  unfold leading
  dsimp only
  repeat' refine iteInduction (motive := fun read : Text × State => read.2.Guarded) (fun _ => ?_) fun _ => ?_
  all_goals simp [State.Guarded]

theorem guarded_step {s : State} (h : s.Guarded) (b : UInt8) : (step s b).2.Guarded := by
  cases s with
  | start => exact guarded_leading b
  | within value missing low high =>
    rw [step]
    split
    · dsimp only
      split
      · trivial
      · exact Nat.le_refl 0x80
    · exact guarded_leading b

/-- A byte of ASCII is a character, and what has begun before it breaks off there as at the end. -/
theorem step_ascii {s : State} (h : s.Guarded) {b : UInt8} (ascii : b.toNat < 0x80) :
    step s b = (decodeFrom s [] ++ [Char.ofNat b.toNat], .start) := by
  have hleading : leading b = ([Char.ofNat b.toNat], .start) := if_pos ascii
  cases s with
  | start => exact hleading
  | within value missing low high =>
    have hlow : 0x80 ≤ low := h
    have hout : ¬(low ≤ b.toNat ∧ b.toNat ≤ high) := by omega
    rw [step, if_neg hout, hleading]
    rfl

theorem decodeFrom_cons (s : State) (b : UInt8) (bs : Bytes) :
    decodeFrom s (b :: bs) = (step s b).1 ++ decodeFrom (step s b).2 bs := by
  cases s <;> rfl

theorem decodeFrom_append_cons {b : UInt8} (ascii : b.toNat < 0x80) (cs : Bytes) :
    ∀ {bs : Bytes} {s : State}, s.Guarded →
      decodeFrom s (bs ++ b :: cs) = decodeFrom s bs ++ Char.ofNat b.toNat :: decode cs := by
  intro bs
  induction bs with
  | nil =>
    intro s h
    rw [List.nil_append, decodeFrom_cons, step_ascii h ascii, List.append_assoc, List.singleton_append, decode]
  | cons x bs ih =>
    intro s h
    rw [List.cons_append, decodeFrom_cons, decodeFrom_cons, ih (guarded_step h x), List.append_assoc]

/-- Reading goes apart at a byte of ASCII, whatever stands on both sides of it. -/
theorem decode_append_cons {b : UInt8} (ascii : b.toNat < 0x80) (bs cs : Bytes) :
    decode (bs ++ b :: cs) = decode bs ++ Char.ofNat b.toNat :: decode cs :=
  decodeFrom_append_cons ascii cs trivial

/-! ## Low bytes -/

/-- Bytes that begin no character of several bytes are read one by one. -/
theorem decode_of_lt :
    ∀ {bs : Bytes}, (∀ b ∈ bs, b.toNat < 0xC2) →
      decode bs = bs.map fun b => if b.toNat < 0x80 then Char.ofNat b.toNat else replacement
  | [], _ => rfl
  | b :: bs, h => by
      obtain ⟨hb, hbs⟩ := List.forall_mem_cons.mp h
      have hleading : leading b =
          ([if b.toNat < 0x80 then Char.ofNat b.toNat else replacement], .start) := by
        rw [leading]
        by_cases hone : b.toNat < 0x80
        · rw [if_pos hone, if_pos hone]
        · rw [if_neg hone, if_pos hb, if_neg hone]
      rw [decode, decodeFrom, step, hleading, List.map_cons, ← decode_of_lt hbs]
      rfl

end Utf8

end GroundStation
