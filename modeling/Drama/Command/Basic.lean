-- SUMMARY: Commands: an instruction with operands of one of its shapes, resolved from arguments.
import Drama.Command.Condition
import Drama.Command.Mode
import Drama.Instruction.Basic

/-!
# Commands

A command is an instruction together with operands. `Instruction.resolve` builds one from arguments,
which have to be of a shape that the instruction accepts. `Command.native` replaces a command whose
instruction has no opcode by the command that it stands for.
-/

namespace Drama

/-- The register that points to the top of the stack. -/
def stackRegister : Nat := 9

/-! ## Operands -/

/-- The operands of a command, one constructor for each shape. -/
inductive Operands
  | nullary
  | register (register : Int)
  | registers (first second : Int)
  | address (mode : AddressingMode) (operand : Operand)
  | registerAddress (register : Int) (mode : AddressingMode) (operand : Operand)
  | conditionAddress (condition : Condition) (mode : AddressingMode) (operand : Operand)
deriving DecidableEq

namespace Operands

def shape : Operands → Shape
  | .nullary => .nullary
  | .register .. => .register
  | .registers .. => .registers
  | .address .. => .address
  | .registerAddress .. => .registerAddress
  | .conditionAddress .. => .conditionAddress

/-- The first register among the operands. -/
def register? : Operands → Option Int
  | .register r | .registers r _ | .registerAddress r _ _ => some r
  | .nullary | .address .. | .conditionAddress .. => none

def secondRegister? : Operands → Option Int
  | .registers _ s => some s
  | _ => none

def condition? : Operands → Option Condition
  | .conditionAddress c _ _ => some c
  | _ => none

def mode? : Operands → Option AddressingMode
  | .address mode _ | .registerAddress _ mode _ | .conditionAddress _ mode _ => some mode
  | .nullary | .register .. | .registers .. => none

def operand? : Operands → Option Operand
  | .address _ o | .registerAddress _ _ o | .conditionAddress _ _ o => some o
  | .nullary | .register .. | .registers .. => none

/-- The texts of the operands, in order. -/
def texts : Operands → Except Numeral.Error (List String)
  | .nullary => pure []
  | .register r => pure [s!"R{r}"]
  | .registers r s => pure [s!"R{r}", s!"R{s}"]
  | .address _ o => return [← o.text]
  | .registerAddress r _ o => return [s!"R{r}", ← o.text]
  | .conditionAddress c _ o => return [c.mnemonic, ← o.text]

end Operands

/-! ## Commands -/

structure Command where
  instruction : Instruction
  operands : Operands
deriving DecidableEq

namespace Command

/-- The mnemonic with the suffix of a mode, and the texts of operands after it. -/
def layoutText (mnemonic : String) (mode : Option AddressingMode) (texts : List String) : String :=
  let suffix := match mode with
    | none => ""
    | some mode => String.ofList ['.', mode.letter]
  if texts.isEmpty then mnemonic ++ suffix
  else mnemonic ++ suffix ++ " " ++ ", ".intercalate texts

/-- The command as it stands in source text. -/
def text (c : Command) : Except Numeral.Error String :=
  (layoutText c.instruction.mnemonic c.operands.mode?) <$> c.operands.texts

end Command

/-! ## Resolution -/

inductive Argument
  | register (register : Int)
  | condition (condition : Condition)
  | operand (operand : Operand)
deriving DecidableEq

/-- Why an instruction does not take its arguments. -/
inductive FormatError
  | wrongArguments (mnemonic : String)
  | modeNotTaken (mnemonic : String) (shape : Shape)
  | memoryOnly (mnemonic : String) (mode : AddressingMode)
deriving DecidableEq

namespace FormatError

def mnemonic : FormatError → String
  | .wrongArguments mnemonic | .modeNotTaken mnemonic _ | .memoryOnly mnemonic _ => mnemonic

def message : FormatError → String
  | .wrongArguments mnemonic => s!"{mnemonic} command with incorrect kind of arguments"
  | .modeNotTaken mnemonic shape =>
    s!"{mnemonic} command with {shape.name} arguments takes no addressing mode"
  | .memoryOnly mnemonic mode =>
    s!"{mnemonic} command only accesses memory, '.{mode.letter}' is not allowed"

end FormatError

/-- The operands that arguments make, if they make any. -/
def Operands.ofArguments? (mode : AddressingMode) : List Argument → Option Operands
  | [] => some .nullary
  | [.register r] => some (.register r)
  | [.register r, .register s] => some (.registers r s)
  | [.operand o] => some (.address mode o)
  | [.register r, .operand o] => some (.registerAddress r mode o)
  | [.condition c, .operand o] => some (.conditionAddress c mode o)
  | _ => none

/-- The command of an instruction on arguments. Addresses are accessed directly where no mode is
given; other operands take no mode. -/
def Instruction.resolve (i : Instruction) (mode : Option AddressingMode)
    (arguments : List Argument) : Except FormatError Command :=
  let effective := mode.getD .direct
  match Operands.ofArguments? effective arguments with
  | none => .error (.wrongArguments i.mnemonic)
  | some operands =>
    if !i.shapes.contains operands.shape then .error (.wrongArguments i.mnemonic)
    else if !operands.shape.hasAddress then
      if mode.isSome then .error (.modeNotTaken i.mnemonic operands.shape)
      else .ok ⟨i, operands⟩
    else if i.memoryOnly && !effective.accessesMemory then
      .error (.memoryOnly i.mnemonic effective)
    else .ok ⟨i, operands⟩

/-- What is given as an argument, which may be nothing of the kind; it is then known as it is shown. -/
inductive GivenArgument
  | argument (argument : Argument)
  | other (shown : String)
deriving DecidableEq

inductive ResolutionError
  | unexpected (shown : String)
  | format (error : FormatError)
deriving DecidableEq

def ResolutionError.message : ResolutionError → String
  | .unexpected shown => s!"Unexpected argument {shown}"
  | .format error => error.message

def GivenArgument.argument? : GivenArgument → Except ResolutionError Argument
  | .argument a => .ok a
  | .other shown => .error (.unexpected shown)

/-- `resolve` on whatever is given. -/
def Instruction.resolveGiven (i : Instruction) (mode : Option AddressingMode)
    (given : List GivenArgument) : Except ResolutionError Command := do
  let arguments ← given.mapM GivenArgument.argument?
  (i.resolve mode arguments).mapError .format

/-! ## Expansion -/

/-- A register as an argument; a vacant one is no argument. -/
def GivenArgument.ofRegister : Option Int → GivenArgument
  | some r => .argument (.register r)
  | none => .other "None"

/-- Why a command has no native form. -/
inductive ExpansionError
  | unknownTarget (mnemonic : String)
  | resolution (error : ResolutionError)
deriving DecidableEq

def ExpansionError.message : ExpansionError → String
  | .unknownTarget mnemonic => String.ofList (Text.quoted mnemonic.toList)
  | .resolution error => error.message

/-- The operand that addresses the top of the stack. -/
def Operand.stackTop (modification : Modification) : Operand :=
  ⟨0, some ⟨stackRegister, some modification⟩⟩

/-- The command that an expansion makes of the register it is applied to. -/
def Expansion.expand (e : Expansion) (set : InstructionSet) (register : Option Int) :
    Except ExpansionError Command :=
  match e with
  | .stack target modification =>
    match set.find? target with
    | none => .error (.unknownTarget target)
    | some i =>
      (i.resolveGiven (some .direct)
        [.ofRegister register, .argument (.operand (.stackTop modification))]).mapError .resolution
  | .alias target =>
    match set.find? target with
    | none => .error (.unknownTarget target)
    | some i => (i.resolveGiven none []).mapError .resolution

/-- The command itself if its instruction has an opcode, else the one that it stands for. -/
def Command.native (c : Command) (set : InstructionSet) : Except ExpansionError Command :=
  match c.instruction.form with
  | .coded .. => .ok c
  | .derived expansion _ => expansion.expand set c.operands.register?

end Drama
