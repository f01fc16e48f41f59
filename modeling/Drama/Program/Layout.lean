-- SUMMARY: Placing statements and labels at addresses.
import Drama.Program.AssemblyError

/-!
# Layout

The first pass over a compilation unit gives each statement the address after the words of those before
it, and each label the address of what follows. It ends at the first program terminator. The words of
all statements have to leave at least one address free.
-/

namespace Drama

structure PlacedStatement where
  address : Nat
  statement : Statement
deriving DecidableEq

/-- Statements at their addresses, the labels with theirs, and the number of words in all. -/
structure Layout where
  statements : Array PlacedStatement
  symbols : SymbolTable
  size : Nat
deriving DecidableEq

namespace Layout

def empty : Layout := ⟨#[], [], 0⟩

def addStatement (l : Layout) (s : Statement) : Layout :=
  { l with statements := l.statements.push ⟨l.size, s⟩, size := l.size + s.wordCount }

def addLabel (l : Layout) (name : List Char) : Layout :=
  { l with symbols := l.symbols ++ [(name, (l.size : Int))] }

def defines (l : Layout) (name : List Char) : Bool := (l.symbols.lookup name).isSome

/-- Places elements up to the first terminator. The error is that of a label which is defined already;
the layout then holds what stands before it. -/
def extend (l : Layout) : List Element → Layout × Option AssemblyError
  | [] => (l, none)
  | .terminator _ :: _ => (l, none)
  | .statement s :: rest => (l.addStatement s).extend rest
  | .label name span :: rest =>
    if l.defines name then (l, some ⟨.duplicateSymbol name, some span, some l.statements.size⟩)
    else (l.addLabel name).extend rest
  | .comment .. :: rest => l.extend rest
  | .unrecognised _ :: rest => l.extend rest

/-- Labels are placed at addresses that can be written down. -/
def checkAddresses (l : Layout) : Except Numeral.Error Unit :=
  l.symbols.forM fun label => discard (Numeral.write label.2)

end Layout

namespace CompilationUnit

/-- The layout of a unit as far as it goes, and what is wrong with it. -/
def place (u : CompilationUnit) : Layout × Option AssemblyError :=
  match u.unrecognised with
  | source :: _ => (.empty, some ⟨.unrecognised source, some source.span, none⟩)
  | [] =>
    match Layout.empty.extend u.elements with
    | (layout, some error) => (layout, some error)
    | (layout, none) =>
      if layout.size < addressSpace then (layout, none)
      else (layout, some ⟨.overflow layout.size, none, none⟩)

def layout (u : CompilationUnit) : Except AssemblyError Layout :=
  match u.place with
  | (layout, none) => .ok layout
  | (_, some error) => .error error

end CompilationUnit

end Drama
