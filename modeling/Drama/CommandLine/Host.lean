-- SUMMARY: What the programs need of the system that they run on.
import Drama.CommandLine.Log
import Drama.CommandLine.Path
import Drama.Machine.Basic
import Drama.Text.Utf8

/-!
# Hosts

The programs run in any monad that is a `Host`: one that has files, an input that is read by lines, and
two outputs. A program may end early, in an `Abort`; most of these have told the reason in the log.
-/

namespace Drama

/-- What stands at a path. -/
inductive FileEntry
  | missing
  /-- Nothing can stand there, as the path or a name in it is too long. -/
  | unnameable
  | directory
  | file (bytes : List UInt8)
deriving DecidableEq

class Host (m : Type → Type) where
  /-- The directory that names of files are seen from. -/
  directory : m Path
  entry : Path → m FileEntry
  /-- Makes a file, or replaces one, and says whether this was possible. -/
  writeFile : Path → List Char → m Bool
  /-- The next line of the input without its end, none at the end of the input. -/
  readLine : m (Option (List Char))
  print : String → m Unit
  report : String → m Unit

/-- Why a program ended early. -/
inductive Abort
  /-- The program has said what there is to say. -/
  | exit
  | endOfInput
  /-- The NUL character ends all names, so none has it inside. -/
  | nulInName
  | nameTooLong (path : Path)
  | isDirectory (path : Path)
  | undecodable (error : Text.Utf8.Error)
  | numeral (error : Numeral.Error)
  | machine (fault : Fault)
deriving DecidableEq

def Abort.message : Abort → String
  | .exit => ""
  | .endOfInput => "EOF when reading a line"
  | .nulInName => "embedded null byte"
  | .nameTooLong path =>
    let shown := String.ofList (Text.quoted path.text)
    s!"[Errno 36] File name too long: {shown}"
  | .isDirectory path =>
    let shown := String.ofList (Text.quoted path.text)
    s!"[Errno 21] Is a directory: {shown}"
  | .undecodable error => error.message
  | .numeral error => error.message
  | .machine fault => fault.message

abbrev Session (m : Type → Type) := ExceptT Abort m

namespace Session

variable {m : Type → Type} [Monad m] [Host m]

/-- Shows a log record if it is severe enough. -/
def log (threshold : Option Severity) (r : LogRecord) : Session m Unit :=
  match r.shown? threshold with
  | some line => Host.report (m := m) (line ++ "\n")
  | none => return

/-- Shows a critical record and ends. -/
def exitWith {α : Type} (threshold : Option Severity) (source message : String) : Session m α := do
  log threshold ⟨.critical, source, message⟩
  throw .exit

def print (text : String) : Session m Unit := Host.print (m := m) text

/-- The path of a name. -/
def resolve (name : List Char) : Session m Path := do
  if name.contains (Char.ofNat 0) then throw .nulInName
  let directory ← Host.directory (m := m)
  return directory.resolve name

def entry (path : Path) : Session m FileEntry := Host.entry (m := m) path

/-- The text in bytes of a file, whose lines may end in any of the usual ways. -/
def decode (bytes : List UInt8) : Except Text.Utf8.Error (List Char) :=
  Text.normalizeNewlines <$> Text.Utf8.decode bytes

end Session

end Drama
