-- SUMMARY: What the programs write to the log about their work.
import Drama.CommandLine.Log
import Drama.Machine.Step
import Drama.Program.Script

/-!
# Traces

The records are made from the results of each stage, so the stages themselves know nothing of the log.
-/

namespace Drama

namespace Trace

open Text

/-! ## Assembling -/

def ofLexeme (l : Lexeme) : List LogRecord :=
  let found : LogRecord := ⟨.debug, "Lexer", s!"Lexeme: {l.describe} at {l.span.text}"⟩
  if l.kind = .unrecognised then
    let shown := String.ofList (quoted l.text)
    [found, ⟨.debug, "Lexer", s!"Unrecognised character {shown} at {l.start}"⟩]
  else [found]

def ofLexing (l : Lexing) : List LogRecord :=
  l.lexemes.flatMap ofLexeme ++
    (if l.failure.isNone then [⟨.debug, "Lexer", "End of text"⟩] else [])

/-- The construct of an element that is one. -/
def constructName? : Element → Option String
  | .statement s =>
    match s.body with
    | .command _ => some "CommandStatement"
    | .value _ => some "ValueStatement"
    | .allocation _ => some "AllocationStatement"
  | .label .. => some "Label"
  | .comment .. | .terminator _ | .unrecognised _ => none

def ofElement (e : Element) : List LogRecord :=
  match e, constructName? e with
  | .unrecognised source, _ =>
    [⟨.warning, "Parser",
      s!"Unrecognised source at {source.span.text}: {source.error.message}"⟩]
  | e, some name => [⟨.debug, "Parser", s!"Parsed {name} at {e.span.text}"⟩]
  | _, none => []

def ofUnit (u : CompilationUnit) : List LogRecord :=
  u.elements.flatMap ofElement ++
    [⟨.debug, "Parser", s!"Parsed {u.elements.length} elements"⟩]

def ofLabel (label : List Char × Int) : LogRecord :=
  let name := String.ofList label.1
  ⟨.debug, "Assembler", s!"Label '{name}' at {label.2}"⟩

/-- The labels that were placed, up to the first whose address is too long to be written, and what came
of placing the whole unit. -/
def ofLayout (u : CompilationUnit) : List LogRecord :=
  let (layout, error) := u.place
  let count := u.unrecognised.length
  let unrecognised : List LogRecord :=
    if count = 0 then []
    else [⟨.warning, "Assembler", s!"Found {count} pieces of unrecognised source"⟩]
  let placed : List LogRecord :=
    if error.isSome then []
    else [⟨.info, "Assembler",
      s!"Assembling {layout.statements.size} statements into {layout.size} words"⟩]
  let labels := layout.symbols.takeWhile fun label => (Numeral.write label.2).isOk
  unrecognised ++ labels.map ofLabel ++ placed

/-! ## Running -/

/-- The command that a machine is about to execute. -/
def ofNextCommand (m : Machine) : List LogRecord :=
  match InstructionSet.standard.decode (m.memory.read m.pc) with
  | .error _ => []
  | .ok command =>
    match command.text with
    | .ok text => [⟨.debug, "Machine", s!"{m.pc.text}: {text}"⟩]
    | .error _ => []

def ofTransfer : Transfer → LogRecord
  | .input word => ⟨.info, "Machine", s!"Input {word.signed}"⟩
  | .output word => ⟨.info, "Machine", s!"Output {word.signed}"⟩

def previousText (m : Machine) : String := (m.previousPc.map (·.text)).getD ""

/-- What a machine crashed of, and where. -/
def crashText? (m : Machine) : Option String :=
  if m.state = .crashed then
    m.crash.map fun crash => s!"Machine crashed at {previousText m}: {crash.message}"
  else none

/-- What an action did to a machine: the words that it transferred, and whether it crashed. -/
def ofChange (before after : Machine) : List LogRecord :=
  (after.transfers.toList.drop before.transfers.size).map ofTransfer ++
    (crashText? after).toList.map (⟨.warning, "Machine", ·⟩)

end Trace

end Drama
