-- SUMMARY: What the machine does for each operation.
import Drama.Machine.Basic

/-!
# Operations

`Machine.operate` carries out an operation on the parts of a draft. A part is looked for only when the
operation comes to it, so what was done before a part turns out vacant remains done.
-/

namespace Drama

def Arithmetic.apply : Arithmetic → MachineWord → Int → MachineWord
  | .add => Word.add
  | .subtract => Word.subtract
  | .multiply => Word.multiply
  | .divide => Word.divide
  | .remainder => Word.remainder

namespace Machine

/-! ## Operands -/

/-- Steps a register by one, up or down. -/
def stepRegister (number : Int) (step : Int) : MachineM Unit := do
  let w ← peekRegister number
  putRegister number (if step > 0 then w.incremented else w.decremented)

/-- The base of an operand plus its index register, which is stepped before or after it is used. -/
def evaluate (operand : Operand) : MachineM MachineWord := do
  match operand.index with
  | none => return Word.wrap operand.base
  | some ⟨number, modification⟩ =>
    if let some m := modification then
      if m.isPre then stepRegister number m.step
    let index ← peekRegister number
    if let some m := modification then
      if !m.isPre then stepRegister number m.step
    return Word.wrap (operand.base + index.signed)

/-- What an operand stands for in a mode. -/
def operandValue (mode : Option AddressingMode) (operand : Operand) : MachineM MachineWord := do
  let value ← evaluate operand
  match mode with
  | some .value => return value
  | some .address => return value.toAddress.toMachine
  | some .direct => readCell value.toAddress
  | some .indirect => do
    let reference ← readCell value.toAddress
    readCell reference.toAddress
  | none => throw (.execution .unknownMode)

/-- The address that an operand leads to: the one found there in indirect mode, else its own. -/
def destination (mode : Option AddressingMode) (operand : Operand) : MachineM AddressWord := do
  let address := (← evaluate operand).toAddress
  if mode = some .indirect then return (← readCell address).toAddress
  else return address

/-! ## Parts -/

/-- What a part holds, unless it is vacant. -/
def require {α : Type} (part : Part) : Option α → MachineM α
  | some a => return a
  | none => throw (.vacant part)

/-- The value of the second operand: that of the second register if the draft is of two registers. -/
def secondOperand (d : Draft) : MachineM MachineWord := do
  if d.shapes.single? = some .registers then
    peekRegister (← require .register d.parts.second)
  else
    operandValue d.parts.mode (← require .operand d.parts.operand)

/-- The address that the operand of a draft leads to. -/
def target (d : Draft) : MachineM AddressWord := do
  destination d.parts.mode (← require .operand d.parts.operand)

/-- Puts a word into the register of a draft, and its sign into the condition register. All registers
take the word where no single one is named. -/
def writePart (d : Draft) (w : MachineWord) : MachineM Unit :=
  match d.parts.register with
  | some number => writeRegister number w
  | none => do
    modify fun m => { m with registers := .replicate registerCount w }
    noteSign w

/-! ## Operations -/

def setState (state : MachineState) : MachineM Unit := modify fun m => { m with state := state }

def jumpTo (a : AddressWord) : MachineM Unit := modify fun m => { m with pc := a }

def record (t : Transfer) : MachineM Unit :=
  modify fun m => { m with transfers := m.transfers.push t }

/-- Puts the address of the next command on the stack. -/
def pushReturnAddress : MachineM Unit := do
  let stack := (← peekRegister stackRegister).decremented
  putRegister stackRegister stack
  writeCell stack.toAddress (← get).pc.toMachine

/-- Takes an address from the stack and goes on there. -/
def popReturnAddress : MachineM Unit := do
  let stack ← peekRegister stackRegister
  jumpTo (← readCell stack.toAddress).toAddress
  putRegister stackRegister stack.incremented

/-- Carries out an operation on the parts of a draft. -/
def operate (operation : Operation) (d : Draft) : MachineM Unit :=
  match operation with
  | .load => do
    writePart d (← secondOperand d)
  | .store => do
    let address ← target d
    writeCell address (← readRegister (← require .register d.parts.register))
  | .arithmetic f => do
    let operand ← secondOperand d
    let register ← require .register d.parts.register
    let current ← peekRegister register
    writeRegister register (f.apply current operand.signed)
  | .compare => do
    let operand ← secondOperand d
    let current ← peekRegister (← require .register d.parts.register)
    modify fun m => { m with condition := .ofComparison current.signed operand.signed }
  | .jump => do
    jumpTo (← target d)
  | .branch => do
    let condition ← require .condition d.parts.condition
    if (← get).condition.satisfies condition then jumpTo (← target d)
  | .call => do
    pushReturnAddress
    jumpTo (← target d)
  | .ret => popReturnAddress
  | .read => setState .waitingForInput
  | .print => do
    record (.output (← readRegister 0))
  | .halt => setState .halted

end Machine

end Drama
