-- SUMMARY: Why lexemes are not the construct that was looked for.
import Drama.Source.Lexeme

/-!
# Parse errors

An error knows how many lexemes stand before the place where it was found. Of several failed attempts
the error with the most is the most helpful one, the first of them if there are several.
-/

namespace Drama

inductive ParseError.Cause
  /-- The lexeme found, if there is any, is of none of the expected kinds. -/
  | unexpected (expected : List LexemeKind) (found : Option Lexeme)
  | openingExpected
  | closingExpected
  | allocationExpected (found : Lexeme)
  | negativeSize (size : Int)
  | labelMarkerExpected (name : List Char)
  | unknownInstruction (name : List Char)
  | operatorInAddress (operator : Operator)
  | operatorAroundIndex (operator : Operator)
  | modifiedTwice
deriving DecidableEq

structure ParseError where
  cause : ParseError.Cause
  depth : Nat
  span : Option Span
deriving DecidableEq

namespace ParseError

/-- How the next lexeme, if there is one, is named in messages. -/
def describeNext : Option Lexeme → String
  | none => "end of source"
  | some lexeme => lexeme.describe

def Cause.message : Cause → String
  | .unexpected expected found =>
    let kinds := " or ".intercalate (expected.map LexemeKind.name)
    s!"Expected {kinds}, found {describeNext found}"
  | .openingExpected => "Expected '(' before the index register"
  | .closingExpected => "Expected ')' after the index register"
  | .allocationExpected found => s!"Expected RESGR, found {found.describe}"
  | .negativeSize size => s!"Cannot reserve {size} words"
  | .labelMarkerExpected name =>
    let name := String.ofList name
    s!"Expected label marker after '{name}'"
  | .unknownInstruction name =>
    let name := String.ofList name
    s!"'{name}' is not an instruction"
  | .operatorInAddress operator => s!"'{operator.symbol}' is not allowed in an address"
  | .operatorAroundIndex operator =>
    s!"'{operator.symbol}' is not allowed around an index register"
  | .modifiedTwice => "An index register cannot be modified both before and after use"

def message (e : ParseError) : String := e.cause.message

/-- The error that got further, the first one if none did. -/
def orDeeper (e f : ParseError) : ParseError := if e.depth < f.depth then f else e

/-- The error of a list starting with `e` that got furthest. -/
def deepest (e : ParseError) : List ParseError → ParseError
  | [] => e
  | f :: rest => e.orDeeper (f.deepest rest)

end ParseError

end Drama
