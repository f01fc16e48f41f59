-- SUMMARY: Absolute paths of files.
import Drama.Text.Line

namespace Drama

/-- An absolute path by its components. -/
structure Path where
  components : List (List Char)
deriving DecidableEq

namespace Path

/-- The path after one more component of a name: nothing and a dot stay, two dots go back. -/
def enter (p : Path) (component : List Char) : Path :=
  if component.isEmpty || component == ['.'] then p
  else if component == ['.', '.'] then ⟨p.components.dropLast⟩
  else ⟨p.components ++ [component]⟩

/-- The path of a name, seen from a directory. -/
def resolve (directory : Path) (name : List Char) : Path :=
  let start : Path := if name.head? == some '/' then ⟨[]⟩ else directory
  (Text.splitBy (· == '/') name).foldl enter start

def text (p : Path) : List Char :=
  if p.components.isEmpty then ['/'] else p.components.flatMap ('/' :: ·)

def parent (p : Path) : Path := ⟨p.components.dropLast⟩

/-- Whether the first path leads through a directory to the second. -/
def contains (p q : Path) : Bool := p != q && p.components.isPrefixOf q.components

/-- The name of a path inside a directory. -/
def nameIn? (directory p : Path) : Option (List Char) :=
  if directory.contains p then
    some ((p.components.drop directory.components.length).intersperse ['/']).flatten
  else none

end Path

end Drama
