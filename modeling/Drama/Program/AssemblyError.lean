-- SUMMARY: Why source text is not assembled into a program.
import Drama.Command.Encoding
import Drama.Source.Statement

/-!
# Assembly errors

An error knows the span that it is about, unless it is about the program as a whole, and the number of
statements before it, where that is known.
-/

namespace Drama

inductive AssemblyError.Cause
  | unrecognised (source : UnrecognisedSource)
  | duplicateSymbol (name : List Char)
  | overflow (wordCount : Nat)
  | undefinedSymbol (name : List Char)
  | commandFormat (error : FormatError)
  | encoding (error : EncodingError)
deriving DecidableEq

structure AssemblyError where
  cause : AssemblyError.Cause
  span : Option Span
  statement : Option Nat
deriving DecidableEq

namespace AssemblyError

def Cause.message : Cause → String
  | .unrecognised source => s!"Unrecognised source: {source.error.message}"
  | .duplicateSymbol name =>
    let name := String.ofList name
    s!"Symbol '{name}' is defined more than once"
  | .overflow wordCount => s!"Program of {wordCount} words does not fit in the address space"
  | .undefinedSymbol name =>
    let name := String.ofList name
    s!"Undefined symbol '{name}'"
  | .commandFormat error => error.message
  | .encoding error => error.message

def message (e : AssemblyError) : String :=
  match e.statement with
  | none => e.cause.message
  | some index => s!"{e.cause.message} (statement {index})"

/-- The error at a statement. -/
def atStatement (index : Nat) (e : AssemblyError) : AssemblyError :=
  { e with statement := some index }

/-- Errors have messages unless a number in them is too long to be written. -/
def checkMessage (e : AssemblyError) : Except Numeral.Error Unit :=
  match e.cause with
  | .overflow wordCount => discard (Numeral.write wordCount)
  | _ => .ok ()

end AssemblyError

end Drama
