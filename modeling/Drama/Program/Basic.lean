-- SUMMARY: Assembled programs, and the correspondence of their statements and addresses.
import Drama.Place
import Drama.Program.Layout
import Drama.Program.Lowering

/-!
# Programs

`CompilationUnit.assemble` makes a program of a unit in two passes: the layout settles all addresses,
then each statement becomes words, with labels before and after it known alike.
-/

namespace Drama

/-- Machine words, together with the statements and symbols that they come from. -/
structure Program where
  words : Array MachineWord
  statements : Array PlacedStatement
  symbols : SymbolTable
deriving DecidableEq

namespace Layout

/-- The words of the statements from the one with the given index on. -/
def wordsFrom (symbols : SymbolTable) :
    Nat → List PlacedStatement → Except AssemblyError (List (List MachineWord))
  | _, [] => .ok []
  | index, placed :: rest => do
    let words ← (placed.statement.words symbols).mapError (·.atStatement index)
    return words :: (← wordsFrom symbols (index + 1) rest)

def program (l : Layout) : Except AssemblyError Program := do
  let words ← wordsFrom l.symbols 0 l.statements.toList
  return ⟨words.flatten.toArray, l.statements, l.symbols⟩

end Layout

def CompilationUnit.assemble (u : CompilationUnit) : Except AssemblyError Program := do
  (← u.layout).program

namespace Program

def size (p : Program) : Nat := p.words.size

/-- The address of a statement by its index, which may also count from the end. -/
def addressOf? (p : Program) (index : Int) : Option Nat :=
  (place? p.statements.size index).map fun place => p.statements[place].address

/-- The index of the statement that the word at an address belongs to. Of statements that share an
address only the last one can have words. -/
def statementAt? (p : Program) (address : Int) : Option Nat :=
  if 0 ≤ address ∧ address < p.size then
    some (placeBeyond p.statements (address < ·.address) 0 p.statements.size (Nat.le_refl _) - 1)
  else none

end Program

end Drama
