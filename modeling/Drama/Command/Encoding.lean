-- SUMMARY: Packing commands into machine words, and unpacking them again.
import Drama.Command.Basic
import Drama.Command.Field

/-!
# Encoding

`Command.encode` packs the native form of a command into a machine word, `InstructionSet.decode`
unpacks a word into a command of the set. Packing keeps the last four digits of the base of an operand;
digits that a command does not use are zero, and are ignored by unpacking.
-/

namespace Drama

/-! ## Encoding -/

/-- Why a command cannot be packed. -/
inductive EncodingError
  | expansion (error : ExpansionError)
  /-- The native form is a command of an instruction that has no opcode either. -/
  | withoutOpcode (mnemonic : String)
  | digits (error : Word.Error)
deriving DecidableEq

def EncodingError.message : EncodingError → String
  | .expansion error => error.message
  | .withoutOpcode mnemonic => s!"{mnemonic} has no opcode"
  | .digits error => error.message

/-- Packs what all address shapes have in common. -/
def Operand.pack (o : Operand) (mode : AddressingMode) (memoryOnly : Bool) (w : MachineWord) :
    Except Word.Error MachineWord := do
  let w ← Field.addressingMode.set (mode.code memoryOnly) w
  let w ← Field.indexingMode.set o.indexingCode w
  let w ← Field.indexRegister.set o.indexRegister w
  Field.address.set (Word.wrap o.base : AddressWord).raw w

def Operands.pack (operands : Operands) (memoryOnly : Bool) (w : MachineWord) :
    Except Word.Error MachineWord :=
  match operands with
  | .nullary => pure w
  | .register r => do
    let w ← Field.addressingMode.set (AddressingMode.value.code false) w
    Field.register.set r w
  | .registers r s => do
    let w ← Field.addressingMode.set (AddressingMode.value.code false) w
    let w ← Field.indexingMode.set plainIndexCode w
    let w ← Field.register.set r w
    Field.indexRegister.set s w
  | .address mode o => o.pack mode memoryOnly w
  | .registerAddress r mode o => do
    let w ← o.pack mode memoryOnly w
    Field.register.set r w
  | .conditionAddress c mode o => do
    let w ← o.pack mode memoryOnly w
    Field.register.set c.code w

/-- Packs operands of an instruction that has to have an opcode. -/
def Instruction.pack (i : Instruction) (operands : Operands) : Except EncodingError MachineWord :=
  match i.form with
  | .derived .. => .error (.withoutOpcode i.mnemonic)
  | .coded opcode .. =>
    (do operands.pack i.memoryOnly (← Field.opcode.set opcode.val Word.zero)).mapError .digits

/-- The word of the native form of a command. -/
def Command.encode (c : Command) (set : InstructionSet) : Except EncodingError MachineWord := do
  let native ← (c.native set).mapError .expansion
  native.instruction.pack native.operands

/-! ## Decoding -/

/-- What makes a machine word, or a part of it, no command. -/
inductive DecodeError.Cause
  | opcode (code : Nat)
  | addressingMode (code : Nat)
  | indexingMode (code : Int)
  | condition (code : Nat)
  /-- The instruction accepts no shape that can be unpacked. -/
  | notDecodable (mnemonic : String)
deriving DecidableEq

structure DecodeError where
  cause : DecodeError.Cause
  word : MachineWord
deriving DecidableEq

def DecodeError.Cause.message : DecodeError.Cause → String
  | .opcode code => s!"{code} is not a valid opcode"
  | .addressingMode code => s!"{code} is not a valid addressing mode code"
  | .indexingMode code => s!"{code} is not a valid indexing mode code"
  | .condition code => s!"{code} is not a valid condition code"
  | .notDecodable mnemonic => s!"{mnemonic} commands cannot be decoded"

def DecodeError.message (e : DecodeError) : String := s!"{e.cause.message} (word {e.word.text})"

/-- The operand with the given digits. -/
def Operand.decode (base register indexingCode : Int) : Except DecodeError.Cause Operand :=
  match Operand.ofCode? base register indexingCode with
  | some o => .ok o
  | none => .error (.indexingMode indexingCode)

/-- Whether the fields say that both operands are registers. -/
def Word.isRegisterPair (w : MachineWord) : Bool :=
  Field.addressingMode.get w == AddressingMode.value.code false &&
    Field.indexingMode.get w == plainIndexCode && Field.address.get w == 0

/-- The operands of a word whose operands include an address. A register goes before a condition, and
a condition before an address alone, where the instruction accepts several of these shapes. -/
def Instruction.unpackAddress (i : Instruction) (w : MachineWord) :
    Except DecodeError.Cause Operands := do
  let some mode := AddressingMode.ofCode? (Field.addressingMode.get w) i.memoryOnly
    | throw (.addressingMode (Field.addressingMode.get w))
  let base := (Word.wrap (Field.address.get w) : AddressWord).signed
  let operand ←
    Operand.decode base (Field.indexRegister.get w) (Field.indexingMode.get w)
  if i.shapes.contains .registerAddress then
    return .registerAddress (Field.register.get w) mode operand
  else if i.shapes.contains .conditionAddress then
    let some condition := Condition.ofCode? (Field.register.get w)
      | throw (.condition (Field.register.get w))
    return .conditionAddress condition mode operand
  else if i.shapes.contains .address then
    return .address mode operand
  else throw (.notDecodable i.mnemonic)

/-- The operands of a word under the opcode of an instruction. -/
def Instruction.unpack (i : Instruction) (w : MachineWord) : Except DecodeError.Cause Operands :=
  if i.shapes.contains .nullary then .ok .nullary
  else if i.shapes.contains .register then .ok (.register (Field.register.get w))
  else if i.shapes.contains .registers && w.isRegisterPair then
    .ok (.registers (Field.register.get w) (Field.indexRegister.get w))
  else i.unpackAddress w

/-- The command that a word holds. -/
def InstructionSet.decode (set : InstructionSet) (w : MachineWord) : Except DecodeError Command :=
  match set.withOpcode? (Field.opcode.get w) with
  | none => .error ⟨.opcode (Field.opcode.get w), w⟩
  | some i =>
    match i.unpack w with
    | .ok operands => .ok ⟨i, operands⟩
    | .error cause => .error ⟨cause, w⟩

end Drama
