-- SUMMARY: Operands: a base value, and an index register that may be modified before or after use.
import Drama.Text.Numeral

/-!
# Operands

An operand is a number, to which the value of an index register may be added, as in `100(R1)`. The
index register may be stepped by one on the way: before use in `100(+R1)` and `100(-R1)`, after use
in `100(R1+)` and `100(R1-)`.
-/

namespace Drama

inductive Modification
  | preIncrement
  | postIncrement
  | preDecrement
  | postDecrement
deriving DecidableEq

namespace Modification

/-- The digit of the modification in a command word. -/
def code : Modification → Nat
  | .preIncrement => 3
  | .postIncrement => 4
  | .preDecrement => 5
  | .postDecrement => 6

def ofCode? : Int → Option Modification
  | 3 => some .preIncrement
  | 4 => some .postIncrement
  | 5 => some .preDecrement
  | 6 => some .postDecrement
  | _ => none

/-- Whether the register is stepped before it is used. -/
def isPre : Modification → Bool
  | .preIncrement | .preDecrement => true
  | .postIncrement | .postDecrement => false

/-- What is added to the register. -/
def step : Modification → Int
  | .preIncrement | .postIncrement => 1
  | .preDecrement | .postDecrement => -1

def sign (modification : Modification) : String := if modification.step > 0 then "+" else "-"

end Modification

/-- The digit of an operand without an index register. -/
def noIndexCode : Nat := 1

/-- The digit of an operand whose index register is not modified. -/
def plainIndexCode : Nat := 2

structure Index where
  register : Int
  modification : Option Modification
deriving DecidableEq

namespace Index

/-- The digit in a command word that says how the index register is used. -/
def code (i : Index) : Nat :=
  match i.modification with
  | none => plainIndexCode
  | some modification => modification.code

/-- The register with the sign of its modification on the side where it is stepped. -/
def text (i : Index) : String :=
  match i.modification with
  | none => s!"R{i.register}"
  | some modification =>
    if modification.isPre then s!"{modification.sign}R{i.register}"
    else s!"R{i.register}{modification.sign}"

end Index

structure Operand where
  base : Int
  index : Option Index
deriving DecidableEq

namespace Operand

/-- The digit of the operand in a command word. -/
def indexingCode (o : Operand) : Nat :=
  match o.index with
  | none => noIndexCode
  | some index => index.code

/-- The register number in a command word, zero where there is none. -/
def indexRegister (o : Operand) : Int :=
  match o.index with
  | none => 0
  | some index => index.register

/-- The operand with the given digits, unless the last is not the digit of any way of indexing. -/
def ofCode? (base register indexingCode : Int) : Option Operand :=
  if indexingCode = noIndexCode then some ⟨base, none⟩
  else if indexingCode = plainIndexCode then some ⟨base, some ⟨register, none⟩⟩
  else (Modification.ofCode? indexingCode).map fun m => ⟨base, some ⟨register, some m⟩⟩

/-- The operand as it stands in source text. -/
def text (o : Operand) : Except Numeral.Error String := do
  let base ← Numeral.write o.base
  match o.index with
  | none => pure base
  | some index => pure s!"{base}({index.text})"

end Operand

end Drama
