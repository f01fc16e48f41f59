-- SUMMARY: The blank characters, and text without them at its ends.

/-!
# Blanks

Three sets of blanks differ. `isBlank` holds the white space of every script together with the four
information separators of ASCII. Around a number the separators do not count, which is `isNumberBlank`.
Between lexemes only the horizontal blanks of ASCII may stand, which is `isHorizontalBlank`.
-/

namespace Drama.Text

/-- White space outside ASCII. -/
def isWideBlank (c : Char) : Bool :=
  let code := c.toNat
  code == 0x85 || code == 0xA0 || code == 0x1680 || (0x2000 ≤ code && code ≤ 0x200A) ||
    code == 0x2028 || code == 0x2029 || code == 0x202F || code == 0x205F || code == 0x3000

/-- White space that may stand around a number. -/
def isNumberBlank (c : Char) : Bool :=
  c == ' ' || (0x09 ≤ c.toNat && c.toNat ≤ 0x0D) || isWideBlank c

/-- White space of any script, and the information separators. -/
def isBlank (c : Char) : Bool :=
  isNumberBlank c || (0x1C ≤ c.toNat && c.toNat ≤ 0x1F)

/-- White space within a line of source text: space, tab, carriage return, form feed, vertical tab. -/
def isHorizontalBlank (c : Char) : Bool :=
  c == ' ' || c == '\t' || c == '\r' || c == '\x0c' || c == '\x0b'

/-- Text without the blanks at its two ends. -/
def strip (s : List Char) : List Char :=
  ((s.dropWhile isBlank).reverse.dropWhile isBlank).reverse

end Drama.Text
