-- SUMMARY: Reading lexemes one after the other, with errors that know their place.
import Drama.Place
import Drama.Source.ParseError

/-!
# Reading lexemes

A `Cursor` stands before the lexemes that are still to be read. A `Parser` moves it or fails; where it
fails the cursor stays as it was left, and `attempt` puts it back. Parsers that look for a lexeme say
by a function what they make of it, and which kinds they expect.
-/

namespace Drama

/-- A place among lexemes: how many stand before it, where the last of these stops, and which follow. -/
structure Cursor where
  position : Nat
  lastStop : Nat
  ahead : List Lexeme
deriving DecidableEq

namespace Cursor

def ofLexemes (lexemes : List Lexeme) : Cursor := ⟨0, 0, lexemes⟩

def next? (c : Cursor) : Option Lexeme := c.ahead.head?

/-- The cursor behind the next lexeme. -/
def advance (c : Cursor) : Cursor :=
  match c.ahead with
  | [] => c
  | l :: rest => ⟨c.position + 1, l.stop, rest⟩

/-- The span from the next lexeme of one cursor to the last lexeme of another. -/
def spanTo (start stop : Cursor) : Span := ⟨(start.next?.map (·.start)).getD 0, stop.lastStop⟩

/-- The cursor behind all lexemes. -/
def toEnd (c : Cursor) : Cursor :=
  ⟨c.position + c.ahead.length, (c.ahead.getLast?.map (·.stop)).getD c.lastStop, []⟩

/-- The span from the lexeme at an index to the one before a position. -/
def spanBetween? (lexemes : List Lexeme) (start : Int) (position : Nat) : Option Span := do
  let first ← itemAt? lexemes start
  let last ← itemAt? lexemes ((position : Int) - 1)
  return ⟨first.start, last.stop⟩

/-- The error of a cause at the next lexeme. -/
def error (c : Cursor) (cause : ParseError.Cause) : ParseError :=
  ⟨cause, c.position, c.next?.map (·.span)⟩

end Cursor

/-- Whether a lexeme is of one of the kinds, or of any kind if none is given. -/
def Lexeme.isOf (kinds : List LexemeKind) (l : Lexeme) : Bool :=
  kinds.isEmpty || kinds.contains l.kind

abbrev Parser := EStateM ParseError Cursor

namespace Parser

variable {α : Type}

def fail (cause : ParseError.Cause) : Parser α := do throw ((← get).error cause)

/-- Fails at an earlier place, to which the cursor returns. -/
def failAt (place : Cursor) (cause : ParseError.Cause) : Parser α := do
  set place
  fail cause

/-- Puts the cursor back if the parser fails. -/
def attempt (parser : Parser α) : Parser α := do
  let start ← get
  try parser catch e => set start; throw e

/-- What is made of the next lexeme, without reading it. -/
def peekMap (f : Lexeme → Option α) : Parser (Option α) := do
  return (← get).next?.bind f

/-- Reads the next lexeme if something is made of it. -/
def readIf (f : Lexeme → Option α) : Parser (Option α) := do
  match ← peekMap f with
  | none => return none
  | some a => do
    modify Cursor.advance
    return some a

/-- Reads the next lexeme, of which something has to be made; the kinds are for the message. -/
def read (kinds : List LexemeKind) (f : Lexeme → Option α) : Parser α := do
  match ← readIf f with
  | some a => return a
  | none => fail (.unexpected kinds (← get).next?)

/-- Repeats a parser that reads something or nothing until it reads nothing, at most `limit` times. -/
def repeatAtMost (parser : Parser (Option α)) : Nat → Parser (List α)
  | 0 => return []
  | limit + 1 => do
    match ← parser with
    | none => return []
    | some a => return a :: (← repeatAtMost parser limit)

/-- Repeats a parser until it reads nothing. Each time it reads at least one lexeme, so there are no
more repetitions than lexemes. -/
def repeated (parser : Parser (Option α)) : Parser (List α) := do
  repeatAtMost parser (← get).ahead.length

/-! ## Lexemes by kind -/

def ofKinds (kinds : List LexemeKind) (l : Lexeme) : Option Lexeme :=
  if l.isOf kinds then some l else none

def peekKinds (kinds : List LexemeKind) : Parser (Option Lexeme) := peekMap (ofKinds kinds)

def readIfKinds (kinds : List LexemeKind) : Parser (Option Lexeme) := readIf (ofKinds kinds)

def readKinds (kinds : List LexemeKind) : Parser Lexeme := read kinds (ofKinds kinds)

/-- Reads all lexemes before the next one of one of the kinds. -/
def readUntil (kinds : List LexemeKind) : Parser (List Lexeme) :=
  repeated (readIf fun l => if l.isOf kinds then none else some l)

end Parser

end Drama
