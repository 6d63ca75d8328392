/-
# Hosts in numbers

A host may be named by its number, which has 32 bits, in one to four parts with dots between them.  A part
is decimal, octal behind a zero, or hexadecimal behind `0x`.  All parts but the last are bytes, and the
last stands for all bytes that are left: `127.1` and `0177.0.0.1` are the same host.
-/
import GroundStation.Number.Integer
import GroundStation.Text.Split

namespace GroundStation

namespace Host

/-- The value of a part. -/
def part? : Text → Option Nat
  | '0' :: c :: t => if c = 'x' ∨ c = 'X' then Integer.digits? 16 t else Integer.digits? 8 (c :: t)
  | t => Integer.digits? 10 t

/-- The number that parts make where `room` bytes are left, behind `high` for the bytes before. -/
def numberFrom? (high : Nat) : Nat → List Text → Option Nat
  | _, [] => none
  | 0, _ => none
  | room + 1, [last] =>
    ((part? last).filter (· < 256 ^ (room + 1))).map fun n => high * 256 ^ (room + 1) + n
  | room + 1, first :: rest =>
    ((part? first).filter (· < 256)).bind fun n => numberFrom? (high * 256 + n) room rest

/-- The number of a host that is named in numbers. -/
def number? (name : Text) : Option Nat := numberFrom? 0 4 (Split.splitOn '.' name)

/-! ## Small lemmas -/

/-- The number takes the bytes before and those that were left. -/
theorem lt_of_numberFrom? {high room n : Nat} {parts : List Text}
    (h : numberFrom? high room parts = some n) : n < (high + 1) * 256 ^ room := by
  induction room generalizing high parts with
  | zero => cases parts <;> simp [numberFrom?] at h
  | succ room ih =>
    match parts with
    | [] => simp [numberFrom?] at h
    | [last] =>
      simp only [numberFrom?, Option.map_eq_some_iff, Option.filter_eq_some_iff] at h
      obtain ⟨m, ⟨_, hm⟩, rfl⟩ := h
      have hm := of_decide_eq_true hm
      rw [Nat.add_mul, Nat.one_mul]
      omega
    | first :: second :: rest =>
      simp only [numberFrom?, Option.bind_eq_some_iff, Option.filter_eq_some_iff] at h
      obtain ⟨m, ⟨_, hm⟩, h⟩ := h
      have hm := of_decide_eq_true hm
      refine Nat.lt_of_lt_of_le (ih h) ?_
      rw [Nat.pow_succ', ← Nat.mul_assoc]
      exact Nat.mul_le_mul_right _ (by omega)

/-- The number of a host has 32 bits. -/
theorem lt_of_number? {name : Text} {n : Nat} (h : number? name = some n) : n < 2 ^ 32 := by
  have := lt_of_numberFrom? h
  omega

end Host

end GroundStation
