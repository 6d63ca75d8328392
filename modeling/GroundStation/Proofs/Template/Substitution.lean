/-
# What filling yields

A template is spelled from pieces: literal texts, with every brace doubled, and positions of arguments,
each as its plain numeral in braces.  Whatever the pieces are, next to each other or empty, full of braces
or of digits, both scanners read them back: the scan at compile time finds the positions, and filling
yields the literals and the arguments as they are (`render_spell`).

A piece is a run of segments, so nothing has to be said of the scanners again: the literals have no
placeholder, and a position is one whose placeholder is a plain numeral, with nothing behind it.
-/
import GroundStation.Proofs.Number.Numeral
import GroundStation.Proofs.Template.Soundness
import Mathlib.Data.List.TakeWhile

namespace GroundStation

/-! ## Pieces -/

namespace Template

/-- A part of a template. -/
inductive Piece where
  | literal (t : Text)
  /-- The argument at a position. -/
  | argument (position : Nat)
  deriving DecidableEq

namespace Piece

/-- A piece as it is spelled: braces of a literal are doubled. -/
def spell : Piece → Text
  | literal t => t.flatMap fun c => if c = '{' ∨ c = '}' then [c, c] else [c]
  | argument position => '{' :: Text.ofNat position ++ ['}']

/-- The position that a piece refers to. -/
def position? : Piece → Option Nat
  | literal _ => none
  | argument position => some position

/-- What stands in the place of a piece: the literal, or the argument. -/
def value (args : List Text) : Piece → Text
  | literal t => t
  | argument position => args[position]?.getD []

/-- The segments of a piece. -/
def segments : Piece → List Segment
  | literal t => t.map .literal
  | argument position => [.placeholder (Text.ofNat position)]

theorem writeAll_segments (p : Piece) : writeAll p.segments = p.spell := by
  cases p with
  | literal t =>
      show (t.map Segment.literal).flatMap Segment.write = _
      rw [List.flatMap_map]
      rfl
  | argument position => exact List.append_nil _

theorem wellFormed_of_mem_segments {p : Piece} {s : Segment} (h : s ∈ p.segments) : s.WellFormed := by
  cases p with
  | literal t =>
      obtain ⟨c, -, rfl⟩ := List.mem_map.mp h
      trivial
  | argument position =>
      rw [List.mem_singleton.mp h]
      refine ⟨Text.not_mem_ofNat (by decide) position, fun hhead => ?_⟩
      exact Text.not_mem_ofNat (by decide) position (List.mem_of_head? hhead)

end Piece

def spell (pieces : List Piece) : Text := pieces.flatMap Piece.spell

def segmentsOf (pieces : List Piece) : List Segment := pieces.flatMap Piece.segments

theorem writeAll_segmentsOf (pieces : List Piece) : writeAll (segmentsOf pieces) = spell pieces := by
  induction pieces with
  | nil => rfl
  | cons p rest ih =>
      show writeAll (p.segments ++ segmentsOf rest) = p.spell ++ spell rest
      rw [writeAll, List.flatMap_append, ← ih, ← p.writeAll_segments]
      rfl

theorem wellFormed_segmentsOf {pieces : List Piece} : ∀ s ∈ segmentsOf pieces, s.WellFormed := by
  intro s hs
  obtain ⟨p, -, hmem⟩ := List.mem_flatMap.mp hs
  exact Piece.wellFormed_of_mem_segments hmem

/-! ## Positions -/

/-- A plain numeral names its number, as far as 64 bits go. -/
theorem position?_ofNat {n : Nat} (h : n < 2 ^ 64) : position? (Text.ofNat n) = some n := by
  have hword : (Text.ofNat n).takeWhile (· ≠ ':') = Text.ofNat n := by
    rw [List.takeWhile_eq_self_iff]
    intro c hc
    refine decide_eq_true fun hcolon => ?_
    exact Text.not_mem_ofNat (by decide) n (hcolon ▸ hc)
  rw [position?, hword]
  exact Integer.unsigned?_ofNat h

/-- The scan finds the positions of a template that is spelled from pieces. -/
theorem positions_spell {pieces : List Piece} (h : ∀ n, .argument n ∈ pieces → n < 2 ^ 64) :
    positions (spell pieces) = .ok (pieces.filterMap Piece.position?) := by
  rw [positions, ← writeAll_segmentsOf]
  refine positionsFrom_write _ wellFormed_segmentsOf ?_
  induction pieces with
  | nil => rfl
  | cons p rest ih =>
      have hrest := ih fun n hn => h n (List.mem_cons_of_mem _ hn)
      rw [segmentsOf, List.flatMap_cons, List.filterMap_append, List.map_append]
      cases p with
      | literal t =>
          have hnone : (Piece.literal t).segments.filterMap Segment.body? = [] := by
            rw [Piece.segments, List.filterMap_map]
            exact List.filterMap_eq_nil_iff.mpr fun _ _ => rfl
          rw [hnone]
          exact hrest
      | argument n =>
          show [position? (Text.ofNat n)] ++ _ = [some n] ++ _
          rw [position?_ofNat (h n List.mem_cons_self)]
          exact congrArg ([some n] ++ ·) hrest

/-! ## Filling -/

theorem prepend_prepend (s t : Text) (outcome : Except FormatFault Text) :
    prepend s (prepend t outcome) = prepend (s ++ t) outcome := by
  cases outcome with
  | error fault => rfl
  | ok rest => exact congrArg Except.ok (List.append_assoc s t rest).symm

/-- The placeholder of a plain numeral is filled with the argument as it is. -/
theorem fillSegment_ofNat {args : List Text} {n : Nat} (h : n < args.length) :
    fillSegment args (.placeholder (Text.ofNat n)) = .ok (args[n]?.getD []) := by
  -- a numeral has no colon, so all of it is the name and the format is the empty one
  have hparts : parts (Text.ofNat n) = (Text.ofNat n, []) := by
    rw [parts]
    cases hcut : Split.cutOnce? ':' (Text.ofNat n) with
    | none => rfl
    | some halves =>
        obtain ⟨heq, -⟩ := Split.cutOnce?_eq_some (a := halves.1) (b := halves.2) hcut
        refine absurd ?_ (Text.not_mem_ofNat (by decide : ':'.isDigit = false) n)
        rw [heq]
        exact List.mem_append_right _ List.mem_cons_self
  have hvalue : argument? args (Text.ofNat n) = some args[n] :=
    argument?_eq_some_iff.mpr ⟨n, rfl, List.getElem?_eq_getElem h⟩
  have hsome : ¬(Text.ofNat n).isEmpty = true := by
    rw [List.isEmpty_iff]
    exact Nat.toDigits_ne_nil
  rw [fillSegment, if_neg (Text.not_mem_ofNat (by decide) n), fill_eq, hparts, if_neg hsome,
    Format.read_nil, hvalue, List.getElem?_eq_getElem h]
  exact Format.apply_plain args[n]

/-- In front of other segments, those of a piece yield its value. -/
theorem fillAll_segments {args : List Text} {p : Piece} (h : ∀ n, p = .argument n → n < args.length)
    (rest : List Segment) :
    fillAll args (p.segments ++ rest) = prepend (p.value args) (fillAll args rest) := by
  cases p with
  | literal t =>
      show fillAll args (t.map .literal ++ rest) = prepend t (fillAll args rest)
      induction t with
      | nil =>
          show fillAll args rest = _
          cases fillAll args rest <;> rfl
      | cons c t ih =>
          have htail := ih fun n hn => nomatch hn
          rw [List.map_cons, List.cons_append, fillAll, fillSegment]
          dsimp only
          rw [htail, prepend_prepend]
          rfl
  | argument n =>
      show fillAll args (.placeholder (Text.ofNat n) :: rest) = _
      rw [fillAll, fillSegment_ofNat (h n rfl)]
      rfl

theorem fillAll_segmentsOf {args : List Text} {pieces : List Piece}
    (declared : ∀ n, .argument n ∈ pieces → n < args.length) :
    fillAll args (segmentsOf pieces) = .ok (pieces.flatMap (Piece.value args)) := by
  induction pieces with
  | nil => rfl
  | cons p rest ih =>
      have hpiece : ∀ n, p = .argument n → n < args.length :=
        fun n hn => declared n (hn ▸ List.mem_cons_self)
      have hrest := ih fun n hn => declared n (List.mem_cons_of_mem _ hn)
      rw [segmentsOf, List.flatMap_cons, fillAll_segments hpiece]
      show prepend _ (fillAll args (segmentsOf rest)) = _
      rw [hrest]
      rfl

/-- A template that is spelled from literals and positions of arguments refers to just these positions,
and filled it is the literals and the arguments in their places, whatever characters they hold.  The scan
for positions counts with 64 bits, which is enough for every list that a machine holds. -/
theorem render_spell {pieces : List Piece} {args : List Text}
    (declared : ∀ n, .argument n ∈ pieces → n < args.length) (id : Text) :
    (args.length ≤ 2 ^ 64 → positions (spell pieces) = .ok (pieces.filterMap Piece.position?)) ∧
      render id (spell pieces) args = .ok (pieces.flatMap (Piece.value args)) := by
  constructor
  · intro counted
    exact positions_spell fun n hn => Nat.lt_of_lt_of_le (declared n hn) counted
  · rw [render, ← writeAll_segmentsOf, fillFrom_write wellFormed_segmentsOf,
      fillAll_segmentsOf declared]

/-- A position between braces, and another between braces the other way round. -/
def bracedPieces : List Piece :=
  [.literal "\x7b", .argument 0, .literal "\x7d\x7d", .argument 1, .literal "\x7b", .argument 0, .literal ""]

/-- Arguments that look like placeholders are not read as such. -/
theorem render_spell_braced :
    (∀ n, .argument n ∈ bracedPieces → n < [("{1}" : Text), ":>7"].length) ∧
    spell bracedPieces =
      "\x7b\x7b\x7b0\x7d\x7d\x7d\x7d\x7d\x7b1\x7d\x7b\x7b\x7b0\x7d" ∧
    positions (spell bracedPieces) = .ok [0, 1, 0] ∧
    render "volt" (spell bracedPieces) ["{1}", ":>7"] = .ok "{{1}}\x7d:>7\x7b{1}" := by
  have declared : ∀ n, .argument n ∈ bracedPieces → n < [("{1}" : Text), ":>7"].length := by
    intro n hn
    have hcases : n = 0 ∨ n = 1 := by
      simp [bracedPieces] at hn
      omega
    rcases hcases with rfl | rfl <;> decide
  obtain ⟨hpositions, hrender⟩ := render_spell declared "volt"
  exact ⟨declared, by decide, hpositions (by decide), hrender⟩

end Template

end GroundStation
