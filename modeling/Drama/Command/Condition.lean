-- SUMMARY: The condition register of the machine and the conditions a jump can ask for.
import Drama.Text.Case
import Drama.Word.Basic

/-!
# Conditions

The machine remembers the sign of a value or of a comparison. A conditional jump names a condition on
that sign, either by what it says of a value (`NUL`, `POS`, …) or by what it says of two values that
were compared (`GEL`, `GR`, …).
-/

namespace Drama

inductive Condition
  | zero
  | positive
  | negative
  | nonzero
  | nonpositive
  | nonnegative
deriving DecidableEq

namespace Condition

def all : List Condition := [.zero, .positive, .negative, .nonzero, .nonpositive, .nonnegative]

/-- The name of the condition on a value. -/
def mnemonic : Condition → String
  | .zero => "NUL"
  | .positive => "POS"
  | .negative => "NEG"
  | .nonzero => "NNUL"
  | .nonpositive => "NPOS"
  | .nonnegative => "NNEG"

/-- The name of the condition on a comparison: equal, greater, smaller, and their opposites. -/
def comparison : Condition → String
  | .zero => "GEL"
  | .positive => "GR"
  | .negative => "KL"
  | .nonzero => "NGEL"
  | .nonpositive => "KLG"
  | .nonnegative => "GRG"

/-- The digit of the condition in a command word. -/
def code : Condition → Nat
  | .zero => 1
  | .positive => 2
  | .negative => 3
  | .nonzero => 4
  | .nonpositive => 5
  | .nonnegative => 6

def ofCode? (code : Int) : Option Condition := all.find? fun c => (c.code : Int) == code

def hasName (c : Condition) (name : String) : Bool := name == c.mnemonic || name == c.comparison

/-- The condition that goes by a name, whatever the case of its letters. -/
def named? (name : List Char) : Option Condition :=
  all.find? (·.hasName (String.ofList (Text.toUpper name)))

end Condition

/-- What the condition register holds. -/
inductive Sign
  | zero
  | positive
  | negative
deriving DecidableEq

namespace Sign

/-- The sign of the first number less the second, without taking the difference. -/
def ofComparison (first second : Int) : Sign :=
  if first < second then .negative else if first = second then .zero else .positive

def ofWord {n : Nat} (w : Word n) : Sign := ofComparison w.signed 0

def satisfies (s : Sign) : Condition → Bool
  | .zero => s == .zero
  | .positive => s == .positive
  | .negative => s == .negative
  | .nonzero => s != .zero
  | .nonpositive => s != .positive
  | .nonnegative => s != .negative

def name : Sign → String
  | .zero => "ZERO"
  | .positive => "POSITIVE"
  | .negative => "NEGATIVE"

end Sign

end Drama
