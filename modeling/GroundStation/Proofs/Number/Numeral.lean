/-
# Numerals

The plain decimal numeral of a natural number is a text of digits, so it holds no sign, colon or brace;
and it reads back as the number (`unsigned?_ofNat`), as that of an integer does (`signed?_ofInt`).

There are other numerals of a number: with zeros in front, in another radix, with digits of either letter case.
`Numeral` says which texts these are, a digit at a time, and a text is read as a number if and only if it is a
numeral of it (`digits?_eq_some_iff`).
-/
import GroundStation.Number.Integer

namespace GroundStation

namespace Text

theorem isDigit_of_mem_ofNat {n : Nat} {c : Char} (h : c ∈ ofNat n) : c.isDigit = true :=
  Nat.isDigit_of_mem_toDigits (by decide) (by decide) h

/-- A character that is no digit stands in no numeral. -/
theorem not_mem_ofNat {c : Char} (h : c.isDigit = false) (n : Nat) : c ∉ ofNat n := by
  intro hmem
  rw [isDigit_of_mem_ofNat hmem] at h
  cases h

/-- A numeral does not begin with a character that is no digit. -/
theorem ofNat_ne_cons {c : Char} (h : c.isDigit = false) (n : Nat) (rest : Text) : ofNat n ≠ c :: rest := by
  intro heq
  exact not_mem_ofNat h n (heq ▸ List.mem_cons_self)

end Text

namespace Integer

theorem value?_of_isDigit {c : Char} (h : c.isDigit = true) :
    Hex.value? c = some (c.toNat - '0'.toNat) :=
  if_pos (Char.isDigit_iff_toNat.mp h)

/-- A run of digits is read as the number that it denotes. -/
theorem digitsFrom?_of_isDigit {t : Text} :
    ∀ {value : Nat}, (∀ c ∈ t, c.isDigit = true) →
      digitsFrom? 10 value t = some (Nat.ofDigitChars 10 t value) := by
  induction t with
  | nil => exact fun _ => rfl
  | cons c t ih =>
      intro value h
      obtain ⟨hc, ht⟩ := List.forall_mem_cons.mp h
      have hten : c.toNat - '0'.toNat < 10 := by
        have hle := (Char.isDigit_iff_toNat.mp hc).2
        have hnine : '9'.toNat = 57 := rfl
        have hzero : '0'.toNat = 48 := rfl
        omega
      rw [digitsFrom?, value?_of_isDigit hc]
      dsimp only
      rw [if_pos hten, ih ht, Nat.mul_comm]
      rfl

theorem digits?_ofNat (n : Nat) : digits? 10 (Text.ofNat n) = some n := by
  have hread : digitsFrom? 10 0 (Text.ofNat n) = some n := by
    rw [digitsFrom?_of_isDigit fun c hc => Text.isDigit_of_mem_ofNat hc]
    exact congrArg some Nat.ofDigitChars_ten_toDigits
  rw [digits?]
  · exact hread
  · exact Nat.toDigits_ne_nil

/-- The plain numeral of a number reads back as the number. -/
theorem unsigned?_ofNat {bound n : Nat} (h : n < bound) : unsigned? bound 10 (Text.ofNat n) = some n := by
  unfold unsigned?
  split
  · next r heq => exact absurd heq (Text.ofNat_ne_cons (by decide) n r)
  · dsimp only
    rw [digits?_ofNat, Option.filter_some, if_pos (decide_eq_true h)]

/-- The plain numeral of an integer reads back as the integer, also at both ends of the range. -/
theorem signed?_ofInt {bound : Nat} {n : Int} (low : -(bound : Int) ≤ n) (high : n < bound) :
    signed? bound 10 (Text.ofInt n) = some n := by
  cases n with
  | ofNat n =>
    have hbound : n < bound := Int.ofNat_lt.mp high
    show signed? bound 10 (Text.ofNat n) = some (n : Int)
    unfold signed?
    split
    · next r heq => exact absurd heq (Text.ofNat_ne_cons (by decide) n r)
    · next r heq => exact absurd heq (Text.ofNat_ne_cons (by decide) n r)
    · rw [digits?_ofNat, Option.filter_some, if_pos (decide_eq_true hbound)]
      rfl
  | negSucc n =>
    have hbound : n + 1 ≤ bound := by omega
    show ((digits? 10 (Text.ofNat (n + 1))).filter (· ≤ bound)).map (fun m => -(m : Int)) = _
    rw [digits?_ofNat, Option.filter_some, if_pos (decide_eq_true hbound)]
    rfl

end Integer

/-! ## Numerals of a radix -/

namespace Hex

theorem toNat_toLower (c : Char) :
    c.toLower.toNat = if 65 ≤ c.toNat ∧ c.toNat ≤ 90 then c.toNat + 32 else c.toNat := by
  have hcapital : c.val ≥ 'A'.val ∧ c.val ≤ 'Z'.val ↔ 65 ≤ c.toNat ∧ c.toNat ≤ 90 :=
    and_congr UInt32.le_iff_toNat_le UInt32.le_iff_toNat_le
  unfold Char.toLower
  split
  · next h =>
    rw [if_pos (hcapital.mp h)]
    have hlt := (hcapital.mp h).2
    show (c.val + 32).toNat = c.val.toNat + 32
    rw [UInt32.toNat_add]
    have h32 : (32 : UInt32).toNat = 32 := rfl
    have hval : c.val.toNat ≤ 90 := hlt
    omega
  · next h => rw [if_neg (mt hcapital.mpr h)]

theorem toNat_digit {d : Nat} (h : d < 16) : (digit d).toNat = if d < 10 then 48 + d else 87 + d := by
  have hall : ∀ m : Fin 16, (digit m).toNat = if m.val < 10 then 48 + m.val else 87 + m.val := by decide
  exact hall ⟨d, h⟩

/-- A digit has the value of which it is the small digit or the capital one. -/
theorem value?_eq_some_iff {c : Char} {d : Nat} : value? c = some d ↔ d < 16 ∧ c.toLower = digit d := by
  have hlower := toNat_toLower c
  constructor
  · intro h
    have hd : d < 16 := by
      unfold value? at h
      grind
    refine ⟨hd, Char.toNat_inj.mp ?_⟩
    rw [hlower, toNat_digit hd]
    unfold value? at h
    grind
  · rintro ⟨hd, h⟩
    have hnat := congrArg Char.toNat h
    rw [hlower, toNat_digit hd] at hnat
    unfold value?
    grind

end Hex

namespace Integer

/-- A text of one or more digits, and the number for which it stands. -/
inductive Numeral (radix : Nat) : Text → Nat → Prop
  | digit {c : Char} {d : Nat} : d < radix → c.toLower = Hex.digit d → Numeral radix [c] d
  | more {t : Text} {n : Nat} {c : Char} {d : Nat} : Numeral radix t n → d < radix → c.toLower = Hex.digit d →
      Numeral radix (t ++ [c]) (n * radix + d)

variable {radix : Nat}

theorem Numeral.ne_nil {t : Text} {n : Nat} (h : Numeral radix t n) : t ≠ [] := by
  cases h <;> simp

theorem digitsFrom?_append_singleton (t : Text) (c : Char) : ∀ value : Nat,
    digitsFrom? radix value (t ++ [c]) = (digitsFrom? radix value t).bind fun n => digitsFrom? radix n [c] := by
  induction t with
  | nil => exact fun _ => rfl
  | cons a t ih =>
    intro value
    rw [List.cons_append, digitsFrom?, digitsFrom?]
    split
    · split
      · exact ih _
      · rfl
    · rfl

theorem digitsFrom?_singleton (small : radix ≤ 16) {value d : Nat} {c : Char} (hd : d < radix)
    (hc : c.toLower = Hex.digit d) : digitsFrom? radix value [c] = some (value * radix + d) := by
  have hvalue := Hex.value?_eq_some_iff.mpr ⟨Nat.lt_of_lt_of_le hd small, hc⟩
  simp only [digitsFrom?, hvalue, hd, if_true]

theorem digits?_of_ne_nil {t : Text} (filled : t ≠ []) : digits? radix t = digitsFrom? radix 0 t := by
  cases t with
  | nil => exact absurd rfl filled
  | cons => rfl

/-- One digit is read, with its place behind the value so far, and then the rest. -/
theorem exists_digit_of_digitsFrom? {value n : Nat} {c : Char} {t : Text}
    (h : digitsFrom? radix value (c :: t) = some n) :
    ∃ d, d < radix ∧ c.toLower = Hex.digit d ∧ digitsFrom? radix (value * radix + d) t = some n := by
  rw [digitsFrom?] at h
  split at h
  · next d hd =>
    split at h
    · next hradix => exact ⟨d, hradix, (Hex.value?_eq_some_iff.mp hd).2, h⟩
    · cases h
  · cases h

/-- Digits behind a numeral make it longer. -/
theorem Numeral.append {t : Text} : ∀ {s : Text} {value n : Nat}, Numeral radix s value →
    digitsFrom? radix value t = some n → Numeral radix (s ++ t) n := by
  induction t with
  | nil =>
    intro s value n hs h
    cases h
    rwa [List.append_nil]
  | cons c t ih =>
    intro s value n hs h
    obtain ⟨d, hd, hc, hrest⟩ := exists_digit_of_digitsFrom? h
    rw [List.append_cons]
    exact ih (.more hs hd hc) hrest

/-- Digits are read as the number for which they stand, and nothing else is read. -/
theorem digits?_eq_some_iff (small : radix ≤ 16) {t : Text} {n : Nat} :
    digits? radix t = some n ↔ Numeral radix t n := by
  constructor
  · intro h
    cases t with
    | nil => cases h
    | cons c t =>
      obtain ⟨d, hd, hc, hrest⟩ := exists_digit_of_digitsFrom? h
      rw [Nat.zero_mul, Nat.zero_add] at hrest
      exact (Numeral.digit hd hc).append hrest
  · intro h
    induction h with
    | @digit c d hd hc =>
      show digitsFrom? radix 0 [c] = some d
      rw [digitsFrom?_singleton small hd hc, Nat.zero_mul, Nat.zero_add]
    | @more t n c d ht hd hc ih =>
      have hfilled : t ++ [c] ≠ [] := by simp
      rw [digits?_of_ne_nil ht.ne_nil] at ih
      rw [digits?_of_ne_nil hfilled, digitsFrom?_append_singleton, ih]
      exact digitsFrom?_singleton small hd hc

/-- A numeral, perhaps with a plus sign in front. -/
inductive Unsigned (radix : Nat) : Text → Nat → Prop
  | plain {t : Text} {n : Nat} : Numeral radix t n → Unsigned radix t n
  | plus {t : Text} {n : Nat} : Numeral radix t n → Unsigned radix ('+' :: t) n

theorem unsigned?_eq_some_iff (small : radix ≤ 16) {bound : Nat} {t : Text} {n : Nat} :
    unsigned? bound radix t = some n ↔ Unsigned radix t n ∧ n < bound := by
  have hread : ∀ t, (digits? radix t).filter (· < bound) = some n ↔ Numeral radix t n ∧ n < bound := by
    intro t
    rw [Option.filter_eq_some_iff, digits?_eq_some_iff small, decide_eq_true_iff]
  -- a sign is no digit, so a text that begins with one is no numeral by itself
  have hsign : ∀ t n, ¬Numeral radix ('+' :: t) n := by
    intro t n h
    have hnone : digits? radix ('+' :: t) = none := rfl
    rw [← digits?_eq_some_iff small, hnone] at h
    cases h
  unfold unsigned?
  dsimp only
  split
  · next r =>
    rw [hread]
    refine and_congr_left fun _ => ⟨.plus, fun h => ?_⟩
    cases h with
    | plain h => exact absurd h (hsign r n)
    | plus h => exact h
  · next hplain =>
    rw [hread]
    refine and_congr_left fun _ => ⟨.plain, fun h => ?_⟩
    cases h with
    | plain h => exact h
    | plus h => exact absurd rfl (hplain _)

end Integer

end GroundStation
