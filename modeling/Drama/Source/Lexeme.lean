-- SUMMARY: Lexemes: the tokens of a source text together with their texts and places.
import Drama.Source.Token

/-!
# Lexemes

`lex` divides a source text into lexemes. Between them stand only horizontal blanks. A literal with too
many digits stops it; `Lexing.ofText` also tells which lexemes stand before that literal.
-/

namespace Drama

open Text

/-- A stretch of source text, from `start` up to but without `stop`, counted in characters. -/
structure Span where
  start : Nat
  stop : Nat
deriving DecidableEq

def Span.text (s : Span) : String := s!"({s.start}, {s.stop})"

/-- The characters of a text that lie in a span. -/
def Span.extract (s : Span) (text : List Char) : List Char :=
  (text.drop s.start).take (s.stop - s.start)

structure Lexeme where
  token : Token
  text : List Char
  start : Nat
  stop : Nat
deriving DecidableEq

namespace Lexeme

def kind (l : Lexeme) : LexemeKind := l.token.kind

def span (l : Lexeme) : Span := ⟨l.start, l.stop⟩

/-- The lexeme as it is named in messages. -/
def describe (l : Lexeme) : String :=
  let text := String.ofList l.text
  s!"{l.kind.name} '{text}'"

end Lexeme

/-- The lexemes of a text up to its end or to what made it fail. -/
structure Lexing where
  lexemes : List Lexeme
  failure : Option Numeral.Error
deriving DecidableEq

namespace Lexing

/-- The lexemes from a position on; `skip` characters belong to a lexeme already found. -/
def scan : (position skip : Nat) → List Char → Lexing
  | _, _, [] => ⟨[], none⟩
  | position, skip + 1, _ :: rest => scan (position + 1) skip rest
  | position, 0, c :: rest =>
    if isHorizontalBlank c then scan (position + 1) 0 rest
    else
      match Token.read (c :: rest) with
      | .error failure => ⟨[], some failure⟩
      | .ok (token, length) =>
        let lexeme : Lexeme := ⟨token, (c :: rest).take length, position, position + length⟩
        let following := scan (position + 1) (length - 1) rest
        { following with lexemes := lexeme :: following.lexemes }

def ofText (text : List Char) : Lexing := scan 0 0 text

end Lexing

/-- The lexemes of a source text. -/
def lex (text : List Char) : Except Numeral.Error (List Lexeme) :=
  let lexing := Lexing.ofText text
  match lexing.failure with
  | none => .ok lexing.lexemes
  | some failure => .error failure

end Drama
