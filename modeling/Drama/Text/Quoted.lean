-- SUMMARY: Text in quotes, with escapes for what cannot be shown.
import Drama.Text.Printable

/-!
# Quoted text

Text is quoted by apostrophes, or by double quotes where it holds an apostrophe and no double quote.
Inside, the backslash and the quote are escaped by a backslash, and what is not printable is written
by a letter or by its code in hexadecimal digits.
-/

namespace Drama.Text

def apostrophe : Char := Char.ofNat 0x27

def doubleQuote : Char := Char.ofNat 0x22

def backslash : Char := Char.ofNat 0x5C

/-- A backslash, a letter, and a code in at least `width` hexadecimal digits. -/
def hexEscape (letter : Char) (width code : Nat) : List Char :=
  backslash :: letter :: (Nat.toDigits 16 code).leftpad width '0'

/-- One character as it stands between the given quotes. -/
def escape (quote c : Char) : List Char :=
  if c == backslash || c == quote then [backslash, c]
  else if c == '\n' then [backslash, 'n']
  else if c == '\r' then [backslash, 'r']
  else if c == '\t' then [backslash, 't']
  else if isPrintable c then [c]
  else if c.toNat ≤ 0xFF then hexEscape 'x' 2 c.toNat
  else if c.toNat ≤ 0xFFFF then hexEscape 'u' 4 c.toNat
  else hexEscape 'U' 8 c.toNat

/-- The quotes that need the fewest escapes, apostrophes where it makes no difference. -/
def quoteFor (s : List Char) : Char :=
  if s.contains apostrophe && !s.contains doubleQuote then doubleQuote else apostrophe

def quoted (s : List Char) : List Char :=
  let quote := quoteFor s
  quote :: s.flatMap (escape quote) ++ [quote]

end Drama.Text
