-- SUMMARY: Executing commands, and the steps of the machine.
import Drama.Instruction.Standard
import Drama.Machine.Operation

/-!
# Steps

`Machine.execute` carries out a command of an instruction set. `Machine.executeNext` is a step of the
machine: it fetches the word at the program counter, decodes it and executes the command. A machine
that asked for input goes on after `Machine.provideInput`.
-/

namespace Drama

namespace Machine

/-- The native form of a draft whose instruction has none of its own. -/
def expand (set : InstructionSet) (e : Expansion) (d : Draft) : MachineM Command :=
  match e.expand set d.parts.register with
  | .ok command => return command
  | .error error => throw (.expansion error)

/-- Instructions only execute drafts of which they accept a shape. -/
def checkShapes (d : Draft) : MachineM Unit :=
  if d.instruction.shapes.meets d.shapes then return
  else
    match d.shapes.single? with
    | some shape => throw (.execution (.shapeNotAccepted d.instruction.mnemonic shape))
    | none => throw (.unknownShape d.shapes.bits)

/-- Executes a draft. Instructions without an opcode are expanded, at most `expansions` times over. -/
def executeWithin (set : InstructionSet) : (expansions : Nat) → Draft → MachineM Unit
  | expansions, d => do
    checkShapes d
    match d.instruction.form, expansions with
    | .coded _ operation _, _ => operate operation d
    | .derived _ _, 0 => throw .endlessExpansion
    | .derived expansion _, expansions + 1 =>
      executeWithin set expansions (.ofCommand (← expand set expansion d))

/-- Expansions that do not come to an end within as many instructions as there are never do. -/
def expansionLimit (set : InstructionSet) : Nat := set.entries.length + 1

def executeDraft (set : InstructionSet) (d : Draft) : MachineM Unit :=
  executeWithin set (expansionLimit set) d

def execute (set : InstructionSet) (c : Command) : MachineM Unit := executeDraft set (.ofCommand c)

/-- Takes the word at the program counter and moves the counter on. -/
def fetch : MachineM MachineWord := do
  let m ← get
  set { m with previousPc := some m.pc, pc := m.pc.incremented }
  return m.memory.read m.pc

def crashOf (c : Crash) : MachineM Unit :=
  modify fun m => { m with state := .crashed, crash := some c }

/-- Executes the command in a word. The machine crashes if there is none, or if it cannot be carried
out; other faults go on. -/
def executeWord (w : MachineWord) : MachineM Unit :=
  match InstructionSet.standard.decode w with
  | .error error => crashOf (.decoding error)
  | .ok command =>
    try execute .standard command
    catch
      | .execution error => crashOf (.execution error)
      | fault => throw fault

def countStep : MachineM Unit := modify fun m => { m with steps := m.steps + 1 }

/-- One step of a machine that is ready. -/
def executeNext : MachineM Unit := do
  let state := (← get).state
  if state ≠ .ready then throw (.notReady state)
  executeWord (← fetch)
  countStep

/-- Gives a machine that is waiting for it a word, which goes into register 0. -/
def provideInput (w : MachineWord) : MachineM Unit := do
  let state := (← get).state
  if state ≠ .waitingForInput then throw (.notWaiting state)
  writeRegister 0 w
  record (.input w)
  setState .ready

end Machine

end Drama
