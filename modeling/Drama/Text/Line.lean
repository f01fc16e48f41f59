-- SUMMARY: Lines of text, and the place of a character among them.

/-!
# Lines

Source text is divided into lines by the newline alone. A list of numbers, one on a line, may be
divided by any of the line boundaries of Unicode, which is `splitLines`.
-/

namespace Drama.Text

/-- The pieces of a text between the characters that satisfy `isSeparator`; there is always one more
piece than there are separators. -/
def splitBy (isSeparator : Char → Bool) : List Char → List (List Char)
  | [] => [[]]
  | c :: rest =>
    if isSeparator c then [] :: splitBy isSeparator rest
    else
      match splitBy isSeparator rest with
      | [] => [[c]]
      | piece :: pieces => (c :: piece) :: pieces

/-- The lines of source text. -/
def sourceLines (text : List Char) : List (List Char) := splitBy (· == '\n') text

/-- How far a position, counted from the end if it is negative, is from the start of a text. -/
def clampPosition (length : Nat) (position : Int) : Nat :=
  if position < 0 then (length + position).toNat else position.toNat

/-- The number of the line that holds a position, the first line being line 1. -/
def lineOf (text : List Char) (position : Int) : Nat :=
  (text.take (clampPosition text.length position)).count '\n' + 1

/-- How many characters stand before a position on its own line. -/
def columnOf (text : List Char) (position : Nat) : Nat :=
  ((text.take position).reverse.takeWhile (· != '\n')).length

/-- The boundaries between lines of Unicode text; a carriage return and a newline are one. -/
def isLineBoundary (c : Char) : Bool :=
  let code := c.toNat
  (0x0A ≤ code && code ≤ 0x0D) || (0x1C ≤ code && code ≤ 0x1E) || code == 0x85 ||
    code == 0x2028 || code == 0x2029

/-- The newlines of a text with each carriage return, and each pair of carriage return and newline,
made one newline. -/
def normalizeNewlines : List Char → List Char
  | [] => []
  | '\r' :: '\n' :: rest => '\n' :: normalizeNewlines rest
  | c :: rest => (if c == '\r' then '\n' else c) :: normalizeNewlines rest

/-- The lines of a text, divided at each line boundary. -/
def splitLines (text : List Char) : List (List Char) :=
  splitBy isLineBoundary (normalizeNewlines text)

end Drama.Text
