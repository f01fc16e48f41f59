-- SUMMARY: Statements and the other elements that source text consists of.
import Drama.Command.Basic
import Drama.Source.Address
import Drama.Source.ParseError

/-!
# Statements and elements

A statement takes up words of the program: a command and a value take one word, an allocation as many
as it reserves. The other elements of source text are labels, comments, the terminator that ends the
program, and source that could not be parsed.
-/

namespace Drama

/-- An argument of a command as written. -/
inductive WrittenArgument
  | register (number : Nat)
  | condition (condition : Condition)
  | address (expression : AddressExpression)
deriving DecidableEq

structure CommandStatement where
  instruction : Instruction
  mode : Option AddressingMode
  arguments : List WrittenArgument
  instructionSpan : Span
deriving DecidableEq

inductive Statement.Body
  | command (command : CommandStatement)
  | value (value : Int)
  | allocation (size : Nat)
deriving DecidableEq

structure Statement where
  body : Statement.Body
  span : Span
deriving DecidableEq

def Statement.wordCount (s : Statement) : Nat :=
  match s.body with
  | .command _ | .value _ => 1
  | .allocation size => size

/-- Source that is none of the constructs, with the error of the attempt that got furthest. -/
structure UnrecognisedSource where
  first : Lexeme
  others : List Lexeme
  error : ParseError
deriving DecidableEq

namespace UnrecognisedSource

def lexemes (s : UnrecognisedSource) : List Lexeme := s.first :: s.others

def span (s : UnrecognisedSource) : Span := ⟨s.first.start, (s.others.getLastD s.first).stop⟩

end UnrecognisedSource

inductive Element
  | statement (statement : Statement)
  | label (name : List Char) (span : Span)
  | comment (text : List Char) (span : Span)
  | terminator (span : Span)
  | unrecognised (source : UnrecognisedSource)
deriving DecidableEq

namespace Element

def span : Element → Span
  | .statement s => s.span
  | .label _ span | .comment _ span | .terminator span => span
  | .unrecognised source => source.span

def statement? : Element → Option Statement
  | .statement s => some s
  | _ => none

def unrecognised? : Element → Option UnrecognisedSource
  | .unrecognised source => some source
  | _ => none

end Element

/-- The elements of a source text, in order. -/
structure CompilationUnit where
  elements : List Element
deriving DecidableEq

namespace CompilationUnit

def statements (u : CompilationUnit) : List Statement := u.elements.filterMap Element.statement?

def unrecognised (u : CompilationUnit) : List UnrecognisedSource :=
  u.elements.filterMap Element.unrecognised?

end CompilationUnit

end Drama
