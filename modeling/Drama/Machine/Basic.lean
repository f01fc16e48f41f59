-- SUMMARY: The machine: its registers and memory, its states, and how it is loaded.
import Drama.Command.Draft
import Drama.Machine.Memory
import Drama.Place
import Drama.Program.Basic

/-!
# The machine

A `Machine` is everything there is to a DRAMA machine at one moment. What is done to it is an action in
`MachineM`: it changes the machine and may end in a `Fault`, in which case the changes made before the
fault remain. A word that holds no command is no fault but crashes the machine, which is one of its
states.
-/

namespace Drama

/-- The address that the stack register holds in a machine just loaded. -/
def stackBase : Nat := 9000

def registerCount : Nat := 10

inductive MachineState
  | ready
  | waitingForInput
  | crashed
  | halted
deriving DecidableEq

def MachineState.text : MachineState → String
  | .ready => "ready"
  | .waitingForInput => "waiting for input"
  | .crashed => "crashed"
  | .halted => "halted"

/-- A word that the machine was given or has given out. -/
inductive Transfer
  | input (word : MachineWord)
  | output (word : MachineWord)
deriving DecidableEq

def Transfer.text : Transfer → String
  | .input word => s!"input  {word.signed}"
  | .output word => s!"output {word.signed}"

/-- Why a command cannot be carried out by the machine. -/
inductive ExecutionError
  | unknownMode
  | shapeNotAccepted (mnemonic : String) (shape : Shape)
deriving DecidableEq

def ExecutionError.message : ExecutionError → String
  | .unknownMode => "Unknown addressing mode None"
  | .shapeNotAccepted mnemonic shape => s!"{mnemonic} cannot execute {shape.name} arguments"

/-- What a machine crashed of. -/
inductive Crash
  | decoding (error : DecodeError)
  | execution (error : ExecutionError)
deriving DecidableEq

def Crash.message : Crash → String
  | .decoding error => error.message
  | .execution error => error.message

/-- Why the machine refuses what it is asked to do. -/
inductive Fault
  | notReady (state : MachineState)
  | notWaiting (state : MachineState)
  | noSuchRegister (number : Int)
  | noSuchAddress (number : Int)
  /-- A number that is to be named in a fault is too long to be written. -/
  | numeral (error : Numeral.Error)
  /-- A machine word has to be cut down to an address before it can be one. -/
  | wordAsAddress
  | noInput
  | execution (error : ExecutionError)
  | expansion (error : ExpansionError)
  /-- The expansions of instructions lead from one to the next without an end. -/
  | endlessExpansion
  /-- The operation needs a part that the command does not have. -/
  | vacant (part : Part)
  | unknownShape (bits : Int)
deriving DecidableEq

def Fault.message : Fault → String
  | .notReady state => s!"Machine is {state.text}, cannot execute"
  | .notWaiting state => s!"Machine is {state.text}, not waiting for input"
  | .noSuchRegister number =>
    s!"index {number} is out of bounds for axis 0 with size {registerCount}"
  | .noSuchAddress number => s!"Address {number} out of range"
  | .numeral error => error.message
  | .wordAsAddress => "Machine words must be truncated to an address before accessing memory"
  | .noInput => "pop from empty list"
  | .execution error => error.message
  | .expansion error => error.message
  | .endlessExpansion => "maximum recursion depth exceeded"
  | .vacant part => s!"The {part.name} of the command is vacant"
  | .unknownShape bits => s!"{bits}"

/-- The fault of a number that is no address, which names the number. -/
def Fault.ofAddress (number : Int) : Fault :=
  match Numeral.write number with
  | .ok _ => .noSuchAddress number
  | .error error => .numeral error

structure Machine where
  program : Option Program
  memory : Memory
  registers : Vector MachineWord registerCount
  pc : AddressWord
  previousPc : Option AddressWord
  condition : Sign
  state : MachineState
  crash : Option Crash
  transfers : Array Transfer
  steps : Nat
deriving DecidableEq

abbrev MachineM := EStateM Fault Machine

namespace Machine

/-- The registers of a machine just loaded: zero but for the stack register. -/
def initialRegisters : Vector MachineWord registerCount :=
  (Vector.replicate registerCount Word.zero).set stackRegister (Word.wrap stackBase) (by decide)

/-- A machine with nothing in its memory. -/
def empty : Machine where
  program := none
  memory := .empty
  registers := initialRegisters
  pc := Word.zero
  previousPc := none
  condition := .zero
  state := .ready
  crash := none
  transfers := #[]
  steps := 0

/-! ## Registers -/

/-- The register of a number, which may also count from the end. -/
def findRegister (number : Int) : MachineM (Fin registerCount) :=
  match place? registerCount number with
  | some r => return r
  | none => throw (.noSuchRegister number)

/-- Makes the condition register the sign of a word. -/
def noteSign (w : MachineWord) : MachineM Unit :=
  modify fun m => { m with condition := .ofWord w }

/-- The word in a register, leaving the condition register alone. -/
def peekRegister (number : Int) : MachineM MachineWord := do
  let r ← findRegister number
  return (← get).registers[r]

/-- Puts a word into a register, leaving the condition register alone. -/
def putRegister (number : Int) (w : MachineWord) : MachineM Unit := do
  let r ← findRegister number
  modify fun m => { m with registers := m.registers.set r w }

/-- The word in a register, of which the condition register takes the sign. -/
def readRegister (number : Int) : MachineM MachineWord := do
  let w ← peekRegister number
  noteSign w
  return w

/-- Puts a word into a register, and its sign into the condition register. -/
def writeRegister (number : Int) (w : MachineWord) : MachineM Unit := do
  putRegister number w
  noteSign w

/-! ## Memory -/

/-- What memory can be accessed by, rightly or not. -/
inductive Key
  | number (value : Int)
  | address (word : AddressWord)
  | word (word : MachineWord)
deriving DecidableEq

def Key.resolve : Key → Except Fault AddressWord
  | .number value =>
    match Word.ofInt 4 value with
    | .ok a => .ok a
    | .error _ => .error (.ofAddress value)
  | .address a => .ok a
  | .word _ => .error .wordAsAddress

def readCell (a : AddressWord) : MachineM MachineWord := return (← get).memory.read a

def writeCell (a : AddressWord) (w : MachineWord) : MachineM Unit :=
  modify fun m => { m with memory := m.memory.write a w }

def findCell (key : Key) : MachineM AddressWord :=
  match key.resolve with
  | .ok a => return a
  | .error fault => throw fault

def readAt (key : Key) : MachineM MachineWord := do readCell (← findCell key)

def writeAt (key : Key) (w : MachineWord) : MachineM Unit := do writeCell (← findCell key) w

/-- Writes words one after the other from an address on, up to the end of memory. -/
def writeAll (start : Int) : List MachineWord → MachineM Unit
  | [] => return
  | w :: rest => do
    writeAt (.number start) w
    writeAll (start + 1) rest

def clearMemory : MachineM Unit := modify fun m => { m with memory := .empty }

/-! ## Loading -/

/-- Puts everything but the program and the memory into its first state. -/
def reset : MachineM Unit :=
  modify fun m => { empty with program := m.program, memory := m.memory }

/-- Forgets the program, clears memory, and fills it with words from address 0 on. The rest of the
machine is reset once all words have found their place. -/
def load (words : List MachineWord) : MachineM Unit := do
  modify fun m => { m with program := none }
  clearMemory
  writeAll 0 words
  reset

/-- What an action makes of a machine, if it does not end in a fault. -/
def after (m : Machine) (action : MachineM Unit) : Except Fault Machine :=
  match action.run m with
  | .ok _ m => .ok m
  | .error fault _ => .error fault

/-- A machine with words from address 0 on. -/
def ofWords (words : List MachineWord) : Except Fault Machine := empty.after (load words)

/-- A machine with the words of a program, which knows the program. -/
def ofProgram (p : Program) : Except Fault Machine :=
  (ofWords p.words.toList).map fun m => { m with program := some p }

/-! ## Views -/

/-- The statement that was executed last, if the machine knows its program. -/
def executedStatement? (m : Machine) : Option Nat := do
  let program ← m.program
  let address ← m.previousPc
  program.statementAt? address.raw

def text (m : Machine) : String :=
  let registers := " ".intercalate
    (m.registers.toList.mapIdx fun i w => s!"R{i}={w.signed}")
  s!"<Machine {m.state.text} PC={m.pc.text} CC={m.condition.name} {registers}>"

end Machine

end Drama
