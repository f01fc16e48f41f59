-- SUMMARY: Assembling a file into a word file and a listing.
import Drama.CommandLine.Host
import Drama.CommandLine.Trace

namespace Drama

namespace Session

variable {m : Type → Type} [Monad m] [Host m]

def logAll (level : Severity) (records : List LogRecord) : Session m Unit :=
  records.forM (log (some level))

/-- Leaves early by what made a result fail. -/
def orAbort {ε α : Type} (abort : ε → Abort) : Except ε α → Session m α
  | .ok a => return a
  | .error e => throw (abort e)

/-- The script of a file that has to be assembled without an error. -/
def loadScript (level : Severity) (path : Path) : Session m (Script × Program) := do
  let shown := String.ofList path.text
  let .file bytes ← entry path
    | exitWith (some level) "CLI" s!"Could not read {shown}. Exiting."
  let text ← orAbort .undecodable (decode bytes)
  let lexing := Lexing.ofText text
  logAll level (Trace.ofLexing lexing)
  if lexing.failure.isNone then
    let unit := CompilationUnit.ofLexemes lexing.lexemes
    logAll level (Trace.ofUnit unit)
    logAll level (Trace.ofLayout unit)
  let script ← orAbort .numeral (Script.ofText text)
  match script.outcome with
  | .error e =>
    exitWith (some level) "CLI"
      s!"Could not assemble {shown}:\n{Script.describe script.text e}"
  | .ok program =>
    log (some level) ⟨.info, "CLI", s!"Assembled {shown} into {program.size} words"⟩
    return (script, program)

/-- Writes a file. -/
def writeOutput (level : Severity) (path : Path) (content : List Char) (description : String) :
    Session m Unit := do
  let shown := String.ofList path.text
  if !(← Host.writeFile (m := m) path content) then
    exitWith (some level) "CLI" s!"Could not write to {shown}. Exiting."
  log (some level) ⟨.info, "CLI", s!"Generated {description} at {shown}"⟩

/-- The end of the names of listings. -/
def listingSuffix : List Char := ".debug".toList

/-- Assembles a file, and writes the word file and the listing if they have names. -/
def assembleFile (level : Severity) (path : Path) (output listing : Option (List Char)) :
    Session m (Script × Program) := do
  let (script, program) ← loadScript level path
  if let some name := output then
    writeOutput level (← resolve name) (WordFile.render program.words.toList) "word file"
  if let some name := listing then
    let path ← resolve (name ++ listingSuffix)
    let content ← orAbort .numeral (program.listing script.text)
    writeOutput level path content ".debug file"
  return (script, program)

end Session

end Drama
