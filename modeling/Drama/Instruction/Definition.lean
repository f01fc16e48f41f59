-- SUMMARY: Defining instructions: what a definition has to say to enter an instruction set.
import Drama.Instruction.Basic
import Drama.Text.Case
import Drama.Text.Numeral

/-!
# Definitions

`InstructionSet.define` enters the instruction of a definition into an instruction set, or says what is wrong
with the definition. It is an action in `InstructionSetM`: what it has done to the set before it fails remains.
-/

namespace Drama

/-- What a definition says of the opcode. -/
inductive OpcodeClause
  | missing
  | without
  | code (value : Int)
deriving DecidableEq

/-- A definition under its name, which starts with a mark that does not belong to the mnemonic. -/
structure Definition where
  name : List Char
  opcode : OpcodeClause
  shapes : Option ShapeSet
  memoryOnly : Bool
  operation : Option Operation
  expansion : Option Expansion
deriving DecidableEq

namespace Definition

/-- The name in upper case without its mark. -/
def mnemonic (d : Definition) : String := String.ofList (Text.toUpper (d.name.drop 1))

inductive Error
  /-- There is no set to take the definition, but a value of the shown kind in its place. -/
  | noInstructionSet (shown : String)
  | alreadyDefined (mnemonic : String)
  | missingOpcode (mnemonic : String)
  | missingShapes (mnemonic : String)
  | missingExpansion (mnemonic : String)
  | missingOperation (mnemonic : String)
  | opcodeOutOfRange (mnemonic : String) (code : Int)
  /-- The opcode is out of range, but too long to be written into the message about it. -/
  | numeral (error : Numeral.Error)
deriving DecidableEq

def Error.message : Error → String
  | .noInstructionSet shown =>
    s!"Error parsing instructions reference, expected dict, got '{shown}'"
  | .alreadyDefined mnemonic =>
    s!"Error parsing instruction '{mnemonic}', instruction already exists"
  | .missingOpcode mnemonic => s!"Error parsing instruction '{mnemonic}', missing 'opcode'"
  | .missingShapes mnemonic => s!"Error parsing instruction '{mnemonic}', missing 'shapes'"
  | .missingExpansion mnemonic =>
    s!"Error parsing instruction '{mnemonic}', without an opcode it needs a native representation"
  | .missingOperation mnemonic => s!"Error parsing instruction '{mnemonic}', missing 'execute'"
  | .opcodeOutOfRange mnemonic code =>
    s!"Error parsing instruction '{mnemonic}', opcode {code} is not two digits"
  | .numeral error => error.message

/-- Whether the error is told and the program left because of it. -/
def Error.exits : Error → Bool
  | .numeral _ => false
  | _ => true

/-- What is wrong with an opcode that is out of range. -/
def Error.ofOpcode (mnemonic : String) (code : Int) : Error :=
  match Numeral.write code with
  | .ok _ => .opcodeOutOfRange mnemonic code
  | .error error => .numeral error

/-- The form of the instruction, which needs an operation or an expansion depending on the opcode. -/
def form (d : Definition) : Except Error Form :=
  match d.opcode with
  | .missing => .error (.missingOpcode d.mnemonic)
  | .without =>
    match d.expansion with
    | none => .error (.missingExpansion d.mnemonic)
    | some expansion => .ok (.derived expansion d.operation)
  | .code value =>
    match d.operation with
    | none => .error (.missingOperation d.mnemonic)
    | some operation =>
      if h : 0 ≤ value ∧ value.toNat < 100 then
        .ok (.coded ⟨value.toNat, h.2⟩ operation d.expansion)
      else .error (.ofOpcode d.mnemonic value)

/-- The instruction that is defined. A missing opcode is reported before missing shapes, and these
before anything that is wrong with the form. -/
def instruction (d : Definition) : Except Error Instruction :=
  match d.opcode, d.shapes with
  | .missing, _ => .error (.missingOpcode d.mnemonic)
  | _, none => .error (.missingShapes d.mnemonic)
  | _, some shapes => d.form.map fun form => ⟨d.mnemonic, shapes, d.memoryOnly, form⟩

end Definition

/-- What is done to an instruction set. -/
abbrev InstructionSetM := EStateM Definition.Error InstructionSet

/-- Enters the instruction that is defined under its mnemonic, unless the mnemonic is taken. -/
def InstructionSet.define (d : Definition) : InstructionSetM Instruction := do
  let set ← get
  if set.mnemonics.contains d.mnemonic then throw (.alreadyDefined d.mnemonic)
  else
    match d.instruction with
    | .ok i =>
      modify fun set => set.insert d.mnemonic i
      return i
    | .error error => throw error

end Drama
