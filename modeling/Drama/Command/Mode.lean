-- SUMMARY: The four ways in which an operand is accessed.

/-!
# Addressing modes

A mode says what an operand stands for: the value itself (`.w`), the address it makes (`.a`), the cell
at that address (`.d`), or the cell at the address found there (`.i`).
-/

namespace Drama

inductive AddressingMode
  | value
  | address
  | direct
  | indirect
deriving DecidableEq

namespace AddressingMode

/-- The letter of the mode in source text. -/
def letter : AddressingMode → Char
  | .value => 'w'
  | .address => 'a'
  | .direct => 'd'
  | .indirect => 'i'

/-- The mode of a letter, in either case. -/
def ofLetter? (c : Char) : Option AddressingMode :=
  if c == 'w' || c == 'W' then some .value
  else if c == 'a' || c == 'A' then some .address
  else if c == 'd' || c == 'D' then some .direct
  else if c == 'i' || c == 'I' then some .indirect
  else none

/-- The mode of a suffix, which has to be a single letter. -/
def ofSuffix? : List Char → Option AddressingMode
  | [c] => ofLetter? c
  | _ => none

/-- Whether the mode reads memory. -/
def accessesMemory : AddressingMode → Bool
  | .value | .address => false
  | .direct | .indirect => true

/-- The digit of the mode in a command word. Instructions that only access memory number their two
modes apart from the others; every other command of theirs uses the digit of the value mode. -/
def code (mode : AddressingMode) (memoryOnly : Bool) : Nat :=
  match memoryOnly, mode with
  | false, .value => 1
  | false, .address => 2
  | false, .direct => 3
  | false, .indirect => 4
  | true, .direct => 2
  | true, .indirect => 3
  | true, _ => 1

def ofCode? (code : Int) (memoryOnly : Bool) : Option AddressingMode :=
  match memoryOnly, code with
  | false, 1 => some .value
  | false, 2 => some .address
  | false, 3 => some .direct
  | false, 4 => some .indirect
  | true, 2 => some .direct
  | true, 3 => some .indirect
  | _, _ => none

end AddressingMode

end Drama
