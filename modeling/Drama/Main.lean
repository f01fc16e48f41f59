-- SUMMARY: The programs on the real host.
import Drama.CommandLine.Tool

namespace Drama

/-- What stands at a path. What is there but cannot be read as a file is taken for a directory. -/
def realEntry (path : Path) : IO FileEntry := do
  try
    let bytes ← IO.FS.readBinFile (String.ofList path.text)
    return .file bytes.toList
  catch e =>
    match e with
    | .noFileOrDirectory .. => return .missing
    | .invalidArgument .. => return .unnameable
    | _ => return .directory

def realWrite (path : Path) (content : List Char) : IO Bool := do
  try
    IO.FS.writeFile (String.ofList path.text) (String.ofList content)
    return true
  catch _ => return false

def realReadLine : IO (Option (List Char)) := do
  let line := (← (← IO.getStdin).getLine).toList
  if line.isEmpty then return none
  else return some (line.takeWhile (· != '\n'))

instance : Host IO where
  directory := return Path.resolve ⟨[]⟩ (toString (← IO.currentDir)).toList
  entry := realEntry
  writeFile := realWrite
  readLine := realReadLine
  print := IO.print
  report := IO.eprint

/-- The program that goes by a name; names that are not known stand for the combined one. -/
def Tool.ofName (name : List Char) : Tool :=
  if name = "assembler".toList then .assembler
  else if name = "emulator".toList then .emulator
  else .combined

end Drama

/-- Runs the program under whose name the executable was started. -/
def main (arguments : List String) : IO UInt32 := do
  let executable := Drama.Path.resolve ⟨[]⟩ (toString (← IO.appPath)).toList
  let tool := Drama.Tool.ofName (executable.components.getLastD [])
  match ← (tool.run (m := IO) (arguments.map String.toList)).run with
  | .ok _ => return 0
  | .error .exit => return 0
  | .error abort =>
    IO.eprintln abort.message
    return 1
