-- SUMMARY: Source texts with the programs they assemble to, or with what is wrong with them.
import Drama.Program.Listing
import Drama.Program.WordFile
import Drama.Source.Unit

/-!
# Scripts

A script keeps a source text together with everything that became of it: its lexemes, its elements, and
a program or an assembly error. `Script.describeError` shows the error under the line that it is in.
-/

namespace Drama

structure Script where
  text : List Char
  lexemes : List Lexeme
  unit : CompilationUnit
  outcome : Except AssemblyError Program

namespace Script

open Text

/-- The script of a text, unless a number is too long: one in the text, the address of a label, or one
in the error message. -/
def ofText (text : List Char) : Except Numeral.Error Script := do
  let lexemes ← lex text
  let unit := CompilationUnit.ofLexemes lexemes
  unit.place.1.checkAddresses
  let outcome := unit.assemble
  if let .error e := outcome then e.checkMessage
  return ⟨text, lexemes, unit, outcome⟩

def program? (s : Script) : Option Program := s.outcome.toOption

def error? (s : Script) : Option AssemblyError :=
  match s.outcome with
  | .ok _ => none
  | .error e => some e

def errorSpan? (s : Script) : Option Span := s.error?.bind (·.span)

/-- The line of the text that a span starts in, with its number, and carets under the span. -/
def showSpan (text : List Char) (span : Span) : String :=
  let number := lineOf text span.start
  let source := (sourceLines text).getD (number - 1) []
  let mark := List.replicate (columnOf text span.start) ' ' ++
    List.replicate (max (span.stop - span.start) 1) '^'
  String.ofList (padLeft 4 (toString number).toList ++ separator ++ source ++ ['\n'] ++
    margin ++ mark)
where
  separator := [' ', '|', ' ']
  margin := "     | ".toList

def describe (text : List Char) (e : AssemblyError) : String :=
  match e.span with
  | none => e.message
  | some span => s!"{e.message}, at line {lineOf text span.start}\n\n{showSpan text span}"

def describeError? (s : Script) : Option String := s.error?.map (describe s.text)

/-- Why there is no listing. -/
inductive ListingError
  | notAssembled
  | numeral (error : Numeral.Error)
deriving DecidableEq

def ListingError.message : ListingError → String
  | .notAssembled => "Script did not assemble"
  | .numeral error => error.message

/-- The listing of the program, if the text was assembled. -/
def listing (s : Script) : Except ListingError (List Char) :=
  match s.program? with
  | none => .error .notAssembled
  | some program => (program.listing s.text).mapError .numeral

end Script

end Drama
