-- SUMMARY: The three programs, the switches they take, and what these set.
import Drama.CommandLine.Host
import Drama.CommandLine.Switch
import Drama.Machine.Run

/-!
# Programs and their settings

One program assembles and emulates, the two others do one of both. `Tool.readSettings` goes through the
switches in order; help is shown, and a wrong argument reported, as soon as its switch is met.
-/

namespace Drama

inductive Tool
  | combined
  | assembler
  | emulator
deriving DecidableEq

inductive Setting
  | help
  | input
  | output
  | listing
  | run
  | inputs
  | steps
  | verbose
  | superVerbose
deriving DecidableEq

def Setting.switch (s : Setting) : Switch Setting :=
  match s with
  | .help => ⟨'h', "help".toList, false, s⟩
  | .input => ⟨'i', "input".toList, true, s⟩
  | .output => ⟨'o', "output".toList, true, s⟩
  | .listing => ⟨'P', "debug_output".toList, true, s⟩
  | .run => ⟨'r', "run".toList, false, s⟩
  | .inputs => ⟨'I', "Inputs".toList, true, s⟩
  | .steps => ⟨'s', "steps".toList, true, s⟩
  | .verbose => ⟨'v', "verbose".toList, false, s⟩
  | .superVerbose => ⟨'V', "super_verbose".toList, false, s⟩

/-- What the switches set. -/
structure Settings where
  input : Option Path
  output : Option (List Char)
  listing : Option (List Char)
  run : Bool
  inputs : List Int
  stepLimit : Int
  level : Severity
deriving DecidableEq

def Settings.initial : Settings where
  input := none
  output := none
  listing := none
  run := false
  inputs := []
  stepLimit := defaultStepLimit
  level := .warning

namespace Tool

def settings : Tool → List Setting
  | .combined =>
    [.help, .input, .output, .listing, .run, .inputs, .steps, .verbose, .superVerbose]
  | .assembler => [.help, .input, .output, .listing, .verbose, .superVerbose]
  | .emulator => [.help, .input, .inputs, .steps, .verbose, .superVerbose]

def switches (t : Tool) : List (Switch Setting) := t.settings.map Setting.switch

def usage : Tool → String
  | .combined =>
    "\n" ++
    "Usage:\n" ++
    "\n" ++
    "main.py -i <file>                DRAMA source file\n" ++
    "        -o <filename>            word output, one zero padded word per line\n" ++
    "        -P <filename>            generate .debug listing\n" ++
    "        -r                       run the program after assembling it\n" ++
    "        -I <values>              comma separated input values for LEZ\n" ++
    "        -s <steps>               step limit (default 10000)\n" ++
    "        -v <verbose>\n" ++
    "        -V <very verbose>\n"
  | .assembler =>
    "\n" ++
    "Usage:\n" ++
    "\n" ++
    "assembler.py -i <file>                DRAMA source file\n" ++
    "             -o <filename>            word output, one zero padded word per line\n" ++
    "             -P <filename>            generate .debug listing\n" ++
    "             -v <verbose>\n" ++
    "             -V <very verbose>\n"
  | .emulator =>
    "\n" ++
    "Usage:\n" ++
    "\n" ++
    "emulator.py -i <file>                 word file, as written by 'assembler.py -o'\n" ++
    "            -I <values>               comma separated input values for LEZ\n" ++
    "            -s <steps>                step limit (default 10000)\n" ++
    "            -v <verbose>\n" ++
    "            -V <very verbose>\n"

variable {m : Type → Type} [Monad m] [Host m]

open Session

/-- Ends before logging is set up. -/
def refuse {α : Type} (message : String) : Session m α := exitWith none "Main" message

def applySetting (t : Tool) (s : Settings) (found : Setting × List Char) : Session m Settings := do
  let argument := found.2
  let shown := String.ofList argument
  match found.1 with
  | .help => do
    print (t.usage ++ "\n")
    throw .exit
  | .input => do
    let path ← resolve argument
    match ← entry path with
    | .missing =>
      let shown := String.ofList path.text
      refuse s!"Could not find input file at {shown}. Exiting."
    | .unnameable => throw (.nameTooLong path)
    | .directory | .file _ => return { s with input := some path }
  | .output => return { s with output := some argument }
  | .listing => return { s with listing := some argument }
  | .run => return { s with run := true }
  | .inputs =>
    match Numeral.readList argument with
    | .ok inputs => return { s with inputs := inputs }
    | .error _ => refuse s!"Inputs '{shown}' are not comma separated integers. Exiting."
  | .steps =>
    match Numeral.read argument with
    | .ok limit => return { s with stepLimit := limit }
    | .error _ => refuse s!"Step limit '{shown}' is not an integer. Exiting."
  | .verbose => return { s with level := .info }
  | .superVerbose => return { s with level := .debug }

/-- The settings that arguments make; without any arguments help is asked for. -/
def readSettings (t : Tool) (arguments : List (List Char)) : Session m Settings := do
  let arguments := if arguments.isEmpty then [['-', 'h']] else arguments
  match Switch.read t.switches arguments with
  | .error e => refuse s!"{e.message}. Exiting."
  | .ok found => found.foldlM t.applySetting .initial

end Tool

end Drama
