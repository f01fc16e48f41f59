-- SUMMARY: Decimal numerals: reading integers from text in any script, and writing them.
import Drama.TenPow
import Drama.Text.Blank
import Drama.Text.Digit
import Drama.Text.Line
import Drama.Text.Quoted

/-!
# Numerals

An integer is written as an optional sign and decimal digits of any script, where single underscores
may stand between digits and blanks around the whole. Numerals of more than `maxDigits` digits are
neither read nor written; leading zeros count.
-/

namespace Drama.Numeral

open Drama.Text

/-- The most digits that a numeral may have. -/
def maxDigits : Nat := 4300

/-- Why text is not read as an integer, or an integer not written. -/
inductive Error
  | malformed (text : List Char)
  | tooManyDigits (count : Nat)
  | notWritable
deriving DecidableEq

/-- How much of a malformed numeral, in quotes, is shown. -/
def shownLength : Nat := 200

def Error.message : Error → String
  | .malformed text =>
    let shown := String.ofList ((quoted text).take shownLength)
    s!"invalid literal for int() with base 10: {shown}"
  | .tooManyDigits count =>
    s!"Exceeds the limit ({maxDigits} digits) for integer string conversion: value has {count} " ++
      "digits; use sys.set_int_max_str_digits() to increase the limit"
  | .notWritable =>
    s!"Exceeds the limit ({maxDigits} digits) for integer string conversion; " ++
      "use sys.set_int_max_str_digits() to increase the limit"

/-! ## Reading -/

/-- The number that digits spell, most significant first. -/
def ofDigits (digits : List Nat) : Nat := digits.foldl (fun value d => 10 * value + d) 0

def applySign (negative : Bool) (value : Nat) : Int := if negative then -value else value

/-- The integer that a sign and digits spell, unless there are too many of them. -/
def ofSignedDigits (negative : Bool) (digits : List Nat) : Except Error Int :=
  if digits.length ≤ maxDigits then .ok (applySign negative (ofDigits digits))
  else .error (.tooManyDigits digits.length)

/-- Splits off the sign, of which the plus is redundant. -/
def splitSign : List Char → Bool × List Char
  | '-' :: rest => (true, rest)
  | '+' :: rest => (false, rest)
  | rest => (false, rest)

def isDigitOrUnderscore (c : Char) : Bool := c == '_' || isDecimalDigit c

/-- Whether each underscore in a run of digits stands between two digits. -/
def underscoresSeparate : List Char → Bool
  | [] => true
  | '_' :: _ => false
  | _ :: '_' :: rest => !rest.isEmpty && underscoresSeparate rest
  | _ :: rest => underscoresSeparate rest

/-- Reads an integer. A run of too many digits is reported as such even where something else, which
would make the text malformed, follows it. -/
def read (text : List Char) : Except Error Int := do
  let (negative, unsigned) := splitSign (text.dropWhile isNumberBlank)
  let run := unsigned.takeWhile isDigitOrUnderscore
  let rest := unsigned.dropWhile isDigitOrUnderscore
  if run.isEmpty || !underscoresSeparate run then throw (.malformed text)
  let value ← ofSignedDigits negative (run.filterMap digitValue?)
  if rest.all isNumberBlank then pure value else throw (.malformed text)

/-- Reads the integers of a list that is separated by commas; blank items are skipped. -/
def readList (text : List Char) : Except Error (List Int) :=
  ((splitBy (· == ',') text).filter fun item => !(strip item).isEmpty).mapM read

/-! ## Writing -/

/-- The smallest number with too many digits. -/
def writeBound : Nat := tenPow maxDigits

def write (value : Int) : Except Error String :=
  if value.natAbs < writeBound then .ok (toString value) else .error .notWritable

theorem write_of_lt {value : Int} (h : value.natAbs < writeBound) : write value = .ok (toString value) := if_pos h

theorem write_of_le {value : Int} (h : writeBound ≤ value.natAbs) : write value = .error .notWritable :=
  if_neg (Nat.not_lt.2 h)

end Drama.Numeral
