-- SUMMARY: A host that is a value: files, input and outputs in memory.
import Drama.CommandLine.Host

/-!
# The host in memory

A `World` holds everything that a program can see of its host, so a run of a program is a function from
worlds to worlds.
-/

namespace Drama

/-- The files come with the latest first; the input is what has not been read of it. -/
structure World where
  directory : Path
  files : List (Path × FileEntry)
  input : List Char
  output : String
  errors : String
deriving DecidableEq

namespace World

/-- Whether a directory stands at a path: one of the files, or what leads to a file or to the working
directory. -/
def hasDirectory (w : World) (path : Path) : Bool :=
  match w.files.lookup path with
  | some entry => entry = .directory
  | none =>
    path = w.directory || path.contains w.directory ||
      w.files.any (fun file => path.contains file.1)

/-- The greatest length of a name, in bytes. -/
def nameLimit : Nat := 255

/-- The greatest length of a whole path, in bytes. -/
def pathLimit : Nat := 4095

/-- Whether a text has more bytes than a limit. -/
def exceeds (limit : Nat) (text : List Char) : Bool :=
  limit < (String.ofList text).utf8ByteSize

/-- Whether a path or a name in it is too long. Names are only looked up inside of directories. -/
def isTooLong (w : World) (path : Path) : Bool :=
  exceeds pathLimit path.text || path.components.zipIdx.any fun (name, place) =>
    exceeds nameLimit name && w.hasDirectory ⟨path.components.take place⟩

/-- What stands at a path. -/
def entry (w : World) (path : Path) : FileEntry :=
  match w.files.lookup path with
  | some entry => entry
  | none =>
    if w.hasDirectory path then .directory
    else if w.isTooLong path then .unnameable
    else .missing

/-- The world with a file written, if one can stand at its path and that is inside of a directory. -/
def write? (w : World) (path : Path) (content : List Char) : Option World :=
  if w.entry path ∈ [.directory, .unnameable] || w.entry path.parent ≠ .directory then none
  else
    let bytes := (String.ofList content).toUTF8.toList
    some { w with files := (path, .file bytes) :: w.files }

/-- The first line of the input, and the world without it. -/
def takeLine (w : World) : Option (List Char) × World :=
  if w.input.isEmpty then (none, w)
  else
    let line := w.input.takeWhile (· != '\n')
    (some line, { w with input := w.input.drop (line.length + 1) })

end World

instance : Host (StateM World) where
  directory := return (← get).directory
  entry path := return (← get).entry path
  writeFile path content := do
    match (← get).write? path content with
    | some w =>
      set w
      return true
    | none => return false
  readLine := modifyGet World.takeLine
  print text := modify fun w => { w with output := w.output ++ text }
  report text := modify fun w => { w with errors := w.errors ++ text }

/-- A run of a program in a world. -/
def World.run {α : Type} (w : World) (session : Session (StateM World) α) :
    Except Abort α × World :=
  StateT.run (m := Id) session.run w

end Drama
