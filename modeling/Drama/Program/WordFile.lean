-- SUMMARY: Word files: the words of a program as text, one on a line.
import Drama.Text.Line
import Drama.Text.Numeral
import Drama.Word.Basic

/-!
# Word files

A word file holds one word on each line, as a number. It is written with zeros before the number; it is
read with any numerals, and lines of blanks are skipped.
-/

namespace Drama.WordFile

open Text

inductive Error
  | numeral (error : Numeral.Error)
  | word (error : Word.Error)
  | tooManyWords (count : Nat)
deriving DecidableEq

def Error.message : Error → String
  | .numeral error => error.message
  | .word error => error.message
  | .tooManyWords count => s!"{count} words do not fit in {addressSpace} addresses"

def render (words : List MachineWord) : List Char :=
  words.flatMap fun w => w.text.toList ++ ['\n']

/-- The word on a line that is not empty. -/
def readWord (line : List Char) : Except Error MachineWord := do
  let value ← (Numeral.read line).mapError .numeral
  (Word.ofInt 10 value).mapError .word

def read (text : List Char) : Except Error (List MachineWord) := do
  let lines := ((splitLines text).map strip).filter (!·.isEmpty)
  let words ← lines.mapM readWord
  if words.length ≤ addressSpace then pure words else throw (.tooManyWords words.length)

end Drama.WordFile
