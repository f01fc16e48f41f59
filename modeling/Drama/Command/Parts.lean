-- SUMMARY: The operands of a command by their roles.
import Drama.Command.Basic

namespace Drama

/-- The operands of a command by their roles, each of which may be vacant. -/
structure Parts where
  register : Option Int
  second : Option Int
  condition : Option Condition
  mode : Option AddressingMode
  operand : Option Operand
deriving DecidableEq

/-- The parts that a command may turn out to need. -/
inductive Part
  | register
  | condition
  | mode
  | operand
deriving DecidableEq

def Part.name : Part → String
  | .register => "register"
  | .condition => "condition"
  | .mode => "addressing mode"
  | .operand => "operand"

def Operands.parts (operands : Operands) : Parts where
  register := operands.register?
  second := operands.secondRegister?
  condition := operands.condition?
  mode := operands.mode?
  operand := operands.operand?

end Drama
