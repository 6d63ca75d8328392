/-
# Tokens of an operator's line

A line is cut at the spaces outside double quotes.  Quotes are not part of a token but make one, so `""`
is an empty token, and they may stand around any part of a token.

The scanner reads from the end: for the rest of a line it knows the token that begins there, if one
does, and the tokens behind it.
-/
import GroundStation.Text.Blank

namespace GroundStation

namespace Wire

/-- The token that a text begins with, if it begins with one, and the tokens behind it.  `quoted` tells
whether a quote is open where the text begins. -/
def tokensFrom (quoted : Bool) : Text → Option Text × List Text
  | [] => (none, [])
  | c :: t =>
    if c = '"' then
      let (token, rest) := tokensFrom (!quoted) t
      (some (token.getD []), rest)
    else if c = ' ' ∧ !quoted then
      let (token, rest) := tokensFrom false t
      (none, token.toList ++ rest)
    else
      let (token, rest) := tokensFrom quoted t
      (some (c :: token.getD []), rest)

/-- The tokens of a line. -/
def tokenize (line : Text) : List Text :=
  let (token, rest) := tokensFrom false line
  token.toList ++ rest

end Wire

end GroundStation
