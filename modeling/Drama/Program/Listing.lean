-- SUMMARY: Listings: each word of a program beside its address and its source.
import Drama.Program.Basic
import Drama.Text.Pad

/-!
# Listings

A listing has four columns: address, word, source and command. Each word has a line, the first word of
a statement shows the source. A statement without words has a line too, and so has each label, before
the first statement at its address or, if there is none, at the end.
-/

namespace Drama

namespace Listing

open Text

/-- The columns of a line, without address and word where there are none. -/
structure Line where
  address : Option Nat
  word : Option MachineWord
  source : List Char
  command : List Char
deriving DecidableEq

def wordWidth : Nat := 10

def sourceWidth : Nat := 29

/-- How far the source of a statement is moved to the right of labels. -/
def indentation : List Char := List.replicate 4 ' '

/-- The addresses have four digits; a line without one is indented to leave their column empty. -/
def addressColumn : Option Nat → List Char
  | some address => Word.paddedDigits 4 address ++ [' ', '|', ' ']
  | none => "     | ".toList

def separator : List Char := [' ', '|', ' ']

def Line.render (l : Line) : List Char :=
  addressColumn l.address ++ padRight wordWidth ((l.word.map (·.text.toList)).getD []) ++
    separator ++ padRight sourceWidth l.source ++ separator ++ l.command ++ ['\n']

def labelLine (name : List Char) : Line := ⟨none, none, name ++ [':'], []⟩

/-- The lines of the words of a statement. -/
def statementLines (address : Nat) (source command : List Char) : List MachineWord → List Line
  | [] => [⟨some address, none, indentation ++ source, []⟩]
  | word :: others =>
    ⟨some address, some word, indentation ++ source, command⟩ ::
      others.mapIdx fun offset word => ⟨some (address + offset + 1), some word, [], []⟩

/-- The command of a statement as it would be written without symbols; empty for other statements. -/
def commandText (p : Program) (s : Statement) : Except Numeral.Error (List Char) :=
  match s.command? p.symbols with
  | some (.ok command) => String.toList <$> command.text
  | some (.error _) | none => .ok []

/-- The lines of statements, with the lines of labels before the first statement at their address. The
labels that are left over stand at the end, by address. -/
def linesFrom (p : Program) (text : List Char) (labels : SymbolTable) :
    List PlacedStatement → Except Numeral.Error (List Line)
  | [] => .ok ((labels.mergeSort fun a b => a.2 ≤ b.2).map fun label => labelLine label.1)
  | ⟨address, s⟩ :: rest => do
    let (here, elsewhere) := labels.partition fun label => label.2 == (address : Int)
    let words := (p.words.extract address (address + s.wordCount)).toList
    let command ← commandText p s
    let following ← linesFrom p text elsewhere rest
    return here.map (labelLine ·.1) ++
      statementLines address (s.span.extract text) command words ++ following

end Listing

/-- The listing of a program that was assembled from a text. -/
def Program.listing (p : Program) (text : List Char) : Except Numeral.Error (List Char) := do
  let lines ← Listing.linesFrom p text p.symbols p.statements.toList
  return lines.flatMap Listing.Line.render

end Drama
