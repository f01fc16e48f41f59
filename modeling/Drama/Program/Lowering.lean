-- SUMMARY: The words that a statement becomes once the symbols have values.
import Drama.Instruction.Standard
import Drama.Program.AssemblyError

namespace Drama

namespace WrittenArgument

/-- The argument with its address worked out. -/
def evaluate (symbols : SymbolTable) : WrittenArgument → Except AssemblyError Argument
  | .register number => .ok (.register number)
  | .condition c => .ok (.condition c)
  | .address expression =>
    match expression.evaluate symbols with
    | .ok base => .ok (.operand ⟨base, expression.index⟩)
    | .error name => .error ⟨.undefinedSymbol name, some expression.span, none⟩

end WrittenArgument

/-- The command of a statement with the given span. -/
def CommandStatement.command (c : CommandStatement) (span : Span) (symbols : SymbolTable) :
    Except AssemblyError Command := do
  let arguments ← c.arguments.mapM (·.evaluate symbols)
  (c.instruction.resolve c.mode arguments).mapError (⟨.commandFormat ·, some span, none⟩)

namespace Statement

/-- The command of a statement that is one. -/
def command? (s : Statement) (symbols : SymbolTable) : Option (Except AssemblyError Command) :=
  match s.body with
  | .command c => some (c.command s.span symbols)
  | .value _ | .allocation _ => none

def words (s : Statement) (symbols : SymbolTable) : Except AssemblyError (List MachineWord) :=
  match s.body with
  | .command c => do
    let command ← c.command s.span symbols
    let word ← (command.encode .standard).mapError (⟨.encoding ·, some s.span, none⟩)
    return [word]
  | .value value => .ok [Word.wrap value]
  | .allocation size => .ok (List.replicate size Word.zero)

end Statement

end Drama
