-- SUMMARY: The three programs from their arguments to their results.
import Drama.CommandLine.Running
import Drama.CommandLine.Settings

namespace Drama

/-- What a program leaves behind when it comes to its end. -/
inductive Product
  | script (script : Script)
  | machine (machine : Machine)

namespace Tool

variable {m : Type → Type} [Monad m] [Host m]

open Session

/-- The file to work on, without which there is nothing to do. -/
def requireInput (s : Settings) : Session m Path :=
  match s.input with
  | some path => return path
  | none => exitWith (some s.level) "Main" "No input file found. Exiting."

/-- Whether a name is given for a file; the empty name does not count. -/
def isNamed (name : Option (List Char)) : Bool := name.any (!·.isEmpty)

def runCombined (s : Settings) : Session m Product := do
  let path ← requireInput s
  if !(isNamed s.output || isNamed s.listing || s.run) then
    exitWith (some s.level) "Main" "Nothing to do, give an output file or -r. Exiting."
  let (script, program) ← assembleFile s.level path s.output s.listing
  if s.run then
    let machine ← orAbort .machine (Machine.ofProgram program)
    return .machine (← runMachine s.level machine s.inputs s.stepLimit)
  else return .script script

def runAssembler (s : Settings) : Session m Product := do
  let path ← requireInput s
  if !(isNamed s.output || isNamed s.listing) then
    exitWith (some s.level) "Main" "No output files specified. Exiting."
  let (script, _) ← assembleFile s.level path s.output s.listing
  return .script script

/-- The words in a word file. -/
def loadWords (level : Severity) (path : Path) : Session m (List MachineWord) := do
  let shown := String.ofList path.text
  let refuseFile (reason : String) : Session m (List MachineWord) :=
    exitWith (some level) "Main" s!"{shown} is not a word file: {reason}. Exiting."
  match ← entry path with
  | .file bytes =>
    match decode bytes with
    | .error e => refuseFile e.message
    | .ok text =>
      match WordFile.read text with
      | .error e => refuseFile e.message
      | .ok words => return words
  | .directory | .missing | .unnameable => throw (.isDirectory path)

def runEmulator (s : Settings) : Session m Product := do
  let path ← requireInput s
  let words ← loadWords s.level path
  let machine ← orAbort .machine (Machine.ofWords words)
  return .machine (← runMachine s.level machine s.inputs s.stepLimit)

/-- Runs a program on its arguments. -/
def run (t : Tool) (arguments : List (List Char)) : Session m Product := do
  let settings ← t.readSettings arguments
  match t with
  | .combined => runCombined settings
  | .assembler => runAssembler settings
  | .emulator => runEmulator settings

end Tool

end Drama
