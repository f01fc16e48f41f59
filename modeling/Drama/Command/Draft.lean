-- SUMMARY: Commands put together part by part, without the checks of resolution.
import Drama.Command.Encoding
import Drama.Command.Parts

/-!
# Drafts

A draft names any shapes and any parts for an instruction, also such as do not go together. It behaves
as the command would whose parts it has, as far as there is one: its text needs exactly one shape, and
its word needs one shape or at least one with an address.
-/

namespace Drama

structure Draft where
  instruction : Instruction
  shapes : ShapeSet
  parts : Parts
deriving DecidableEq

/-- Why a draft has no text or no word. -/
inductive Draft.Error
  | unknownShape (bits : Int)
  | vacant (part : Part)
  | numeral (error : Numeral.Error)
  | expansion (error : ExpansionError)
  | encoding (error : EncodingError)
deriving DecidableEq

def Draft.Error.message : Draft.Error → String
  | .unknownShape bits => s!"Unknown command shape {bits}"
  | .vacant part => s!"The {part.name} of the command is vacant"
  | .numeral error => error.message
  | .expansion error => error.message
  | .encoding error => error.message

def Draft.ofCommand (c : Command) : Draft := ⟨c.instruction, ⟨c.operands.shape.bit⟩, c.operands.parts⟩

namespace Draft

private def require {α : Type} (part : Part) : Option α → Except Error α
  | some a => .ok a
  | none => .error (.vacant part)

private def registerText : Option Int → String
  | some r => s!"R{r}"
  | none => "RNone"

private def operandText : Option Operand → Except Error String
  | some o => o.text.mapError .numeral
  | none => .ok "None"

/-- The texts of the parts that belong to a shape. -/
def texts (d : Draft) : Shape → Except Error (List String)
  | .nullary => pure []
  | .register => pure [registerText d.parts.register]
  | .registers => pure [registerText d.parts.register, registerText d.parts.second]
  | .address => return [← operandText d.parts.operand]
  | .registerAddress => return [registerText d.parts.register, ← operandText d.parts.operand]
  | .conditionAddress => do
    let condition ← require .condition d.parts.condition
    return [condition.mnemonic, ← operandText d.parts.operand]

/-- The draft as it would stand in source text. -/
def text (d : Draft) : Except Error String := do
  let some shape := d.shapes.single? | throw (.unknownShape d.shapes.bits)
  return Command.layoutText d.instruction.mnemonic d.parts.mode (← d.texts shape)

/-- The draft itself if its instruction has an opcode, else the command that it stands for. -/
def native (d : Draft) (set : InstructionSet) : Except Error Draft :=
  match d.instruction.form with
  | .coded .. => .ok d
  | .derived expansion _ =>
    ((expansion.expand set d.parts.register).map ofCommand).mapError .expansion

/-- The error of a vacant part, unless the operands packed before it fail already. -/
private def vacantAfter (i : Instruction) (earlier : Operands) (part : Part) : Error :=
  match i.pack earlier with
  | .ok _ => .vacant part
  | .error error => .encoding error

/-- The operands that go into the word of a draft. Several shapes at once make an address. -/
def packedOperands (d : Draft) : Except Error Operands :=
  match d.shapes.single? with
  | some .nullary => pure .nullary
  | some .register => return .register (← require .register d.parts.register)
  | some .registers => do
    let first ← require .register d.parts.register
    let some second := d.parts.second
      | throw (vacantAfter d.instruction (.register first) .register)
    return .registers first second
  | some .address | none => do
    if !d.shapes.meetsAddress then throw (.unknownShape d.shapes.bits)
    return .address (← require .mode d.parts.mode) (← require .operand d.parts.operand)
  | some .registerAddress => do
    let mode ← require .mode d.parts.mode
    let operand ← require .operand d.parts.operand
    let some register := d.parts.register
      | throw (vacantAfter d.instruction (.address mode operand) .register)
    return .registerAddress register mode operand
  | some .conditionAddress => do
    let mode ← require .mode d.parts.mode
    let operand ← require .operand d.parts.operand
    let some condition := d.parts.condition
      | throw (vacantAfter d.instruction (.address mode operand) .condition)
    return .conditionAddress condition mode operand

/-- The word of the native form of a draft. -/
def encode (d : Draft) (set : InstructionSet) : Except Error MachineWord := do
  let native ← d.native set
  let operands ← native.packedOperands
  (native.instruction.pack operands).mapError .encoding

end Draft

end Drama
