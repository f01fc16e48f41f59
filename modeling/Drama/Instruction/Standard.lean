-- SUMMARY: The instruction set of the DRAMA machine.
import Drama.Instruction.Basic

/-!
# The standard instruction set

Fifteen instructions have opcodes. Pushing (`BST`) and popping (`HST`) have none: they are a store and
a load on the top of the stack, which register 9 points to and which grows downwards.
-/

namespace Drama

namespace InstructionSet

private def coded (mnemonic : String) (opcode : Fin 100) (operation : Operation)
    (shapes : List Shape) (memoryOnly : Bool) : Instruction :=
  ⟨mnemonic, .ofList shapes, memoryOnly, .coded opcode operation none⟩

private def derived (mnemonic : String) (shapes : List Shape) (expansion : Expansion) :
    Instruction :=
  ⟨mnemonic, .ofList shapes, false, .derived expansion none⟩

/-- Shapes of an instruction that combines a register with any operand. -/
private def registerAndOperand : List Shape := [.registers, .registerAddress]

def standard : InstructionSet := .ofEntries [
  coded "HIA" 11 .load registerAndOperand false,
  coded "BIG" 12 .store [.registerAddress] true,
  coded "OPT" 21 (.arithmetic .add) registerAndOperand false,
  coded "AFT" 22 (.arithmetic .subtract) registerAndOperand false,
  coded "VER" 23 (.arithmetic .multiply) registerAndOperand false,
  coded "DEL" 24 (.arithmetic .divide) registerAndOperand false,
  coded "MOD" 25 (.arithmetic .remainder) registerAndOperand false,
  coded "VGL" 31 .compare registerAndOperand false,
  coded "SPR" 32 .jump [.address] true,
  coded "VSP" 33 .branch [.conditionAddress] true,
  coded "SBR" 41 .call [.address] true,
  coded "KTG" 42 .ret [.nullary] false,
  coded "LEZ" 71 .read [.nullary] false,
  coded "DRU" 73 .print [.nullary] false,
  derived "BST" [.register] (.stack "BIG" .preDecrement),
  derived "HST" [.register] (.stack "HIA" .postIncrement),
  coded "STP" 99 .halt [.nullary] false]

end InstructionSet

end Drama
