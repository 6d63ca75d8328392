/-
# Blank characters, trimming and words

The characters that separate words are those of the Unicode property `White_Space`: the five ASCII
controls from tab to carriage return, the space, and the nineteen blanks beyond ASCII.  `trim` takes
them off both ends of a text, and `words` cuts a text at every run of them.
-/
import GroundStation.Text.Basic

namespace GroundStation

namespace Text

/-- The Unicode property `White_Space`. -/
def isBlank (c : Char) : Bool :=
  let n := c.toNat
  (9 ≤ n && n ≤ 13) || n == 0x20 || n == 0x85 || n == 0xA0 || n == 0x1680 ||
    (0x2000 ≤ n && n ≤ 0x200A) || n == 0x2028 || n == 0x2029 || n == 0x202F ||
    n == 0x205F || n == 0x3000

/-- `t` without the blanks at its start. -/
def trimStart (t : Text) : Text := t.dropWhile isBlank

/-- `t` without the blanks at its end. -/
def trimEnd (t : Text) : Text := (t.reverse.dropWhile isBlank).reverse

/-- `t` without the blanks at either end. -/
def trim (t : Text) : Text := trimEnd (trimStart t)

/-- The word that a text begins with, empty where it begins with a blank, and the words behind it. -/
def wordsFrom : Text → Text × List Text
  | [] => ([], [])
  | c :: t =>
    let (word, rest) := wordsFrom t
    if isBlank c then ([], if word.isEmpty then rest else word :: rest) else (c :: word, rest)

/-- The maximal runs of characters that are not blank, in order. -/
def words (t : Text) : List Text :=
  let (word, rest) := wordsFrom t
  if word.isEmpty then rest else word :: rest

end Text

/-! ## Small lemmas -/

namespace Text

/-- Every blank of ASCII is a blank. -/
theorem isBlank_of_isWhitespace {c : Char} (h : c.isWhitespace = true) : isBlank c = true := by
  simp only [Char.isWhitespace, Bool.or_eq_true, decide_eq_true_eq] at h
  rcases h with ((rfl | rfl) | rfl) | rfl <;> decide

@[simp] theorem trimStart_nil : trimStart [] = [] := rfl

@[simp] theorem trimEnd_nil : trimEnd [] = [] := rfl

@[simp] theorem trim_nil : trim [] = [] := rfl

@[simp] theorem words_nil : words [] = [] := rfl

end Text

end GroundStation
