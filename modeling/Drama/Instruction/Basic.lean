-- SUMMARY: Instructions: their shapes, their opcode, and what they do or stand for.
import Drama.Command.Operand
import Drama.Command.Shape

/-!
# Instructions

An instruction with an opcode is carried out by the machine itself. One without stands for a command of
another instruction, its expansion, in the same way as a macro would.
-/

namespace Drama

inductive Arithmetic
  | add
  | subtract
  | multiply
  | divide
  | remainder
deriving DecidableEq

/-- What the machine does for an instruction. -/
inductive Operation
  | load
  | store
  | arithmetic (f : Arithmetic)
  | compare
  | jump
  | branch
  | call
  | ret
  | read
  | print
  | halt
deriving DecidableEq

/-- The command that an instruction without an opcode stands for. -/
inductive Expansion
  /-- The target on the same register and on the top of the stack, which moves as the modification says. -/
  | stack (target : String) (modification : Modification)
  /-- The target without operands. -/
  | alias (target : String)
deriving DecidableEq

/-- How an instruction comes to its effect. Either form may bring the part that it does not need. -/
inductive Form
  | coded (opcode : Fin 100) (operation : Operation) (expansion : Option Expansion)
  | derived (expansion : Expansion) (operation : Option Operation)
deriving DecidableEq

namespace Form

def opcode? : Form → Option (Fin 100)
  | .coded opcode _ _ => some opcode
  | .derived _ _ => none

def operation? : Form → Option Operation
  | .coded _ operation _ => some operation
  | .derived _ operation => operation

def expansion? : Form → Option Expansion
  | .coded _ _ expansion => expansion
  | .derived expansion _ => some expansion

end Form

/-- An instruction that is `memoryOnly` has no use for a value or an address as operand. -/
structure Instruction where
  mnemonic : String
  shapes : ShapeSet
  memoryOnly : Bool
  form : Form
deriving DecidableEq

namespace Instruction

def opcode? (i : Instruction) : Option (Fin 100) := i.form.opcode?

/-- The mnemonic and the opcode, as in `<Instruction 'HIA' opcode 11>`. -/
def text (i : Instruction) : String :=
  match i.opcode? with
  | some opcode => s!"<Instruction '{i.mnemonic}' opcode {opcode.val}>"
  | none => s!"<Instruction '{i.mnemonic}' opcode None>"

end Instruction

/-- Instructions under their mnemonics, in the order of their definition. -/
structure InstructionSet where
  rows : List (String × Instruction)
deriving DecidableEq

namespace InstructionSet

def empty : InstructionSet := ⟨[]⟩

/-- Each instruction under its own mnemonic. -/
def ofEntries (entries : List Instruction) : InstructionSet := ⟨entries.map fun i => (i.mnemonic, i)⟩

/-- The mnemonics that are taken. -/
def mnemonics (set : InstructionSet) : List String := set.rows.map (·.1)

def entries (set : InstructionSet) : List Instruction := set.rows.map (·.2)

def find? (set : InstructionSet) (mnemonic : String) : Option Instruction := set.rows.lookup mnemonic

/-- Puts an instruction under a mnemonic: in place of the one that is there, or behind all others. -/
def insert (set : InstructionSet) (mnemonic : String) (i : Instruction) : InstructionSet :=
  if set.mnemonics.contains mnemonic then
    ⟨set.rows.map fun row => if row.1 = mnemonic then (mnemonic, i) else row⟩
  else ⟨set.rows ++ [(mnemonic, i)]⟩

/-- The instruction of an opcode; of several the one defined last. -/
def withOpcode? (set : InstructionSet) (code : Nat) : Option Instruction :=
  set.entries.foldl
    (fun found i => if i.opcode?.map Fin.val = some code then some i else found) none

/-- The opcodes in the order of their first definition, each with its instruction. -/
def opcodeTable (set : InstructionSet) : List (Nat × Instruction) :=
  (set.entries.filterMap (·.opcode?.map Fin.val)).eraseDups.filterMap fun code =>
    (set.withOpcode? code).map (code, ·)

end InstructionSet

end Drama
