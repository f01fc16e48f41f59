-- SUMMARY: The fields of a machine word that is read as a command.
import Drama.Word.Digits

/-!
# Fields of command words

A command word divides the ten digits of a machine word into six fields:

    digits  9 8    | 7    | 6        | 5        | 4     | 3 2 1 0
            opcode | mode | indexing | register | index | address

The register field holds a register or a condition, the index field an index or a second register.
-/

namespace Drama

inductive Field
  | opcode
  | addressingMode
  | indexingMode
  | register
  | indexRegister
  | address
deriving DecidableEq

namespace Field

def all : List Field :=
  [.opcode, .addressingMode, .indexingMode, .register, .indexRegister, .address]

def range : Field → DigitRange 10
  | .opcode => ⟨8, 9, by decide, by decide⟩
  | .addressingMode => ⟨7, 7, by decide, by decide⟩
  | .indexingMode => ⟨6, 6, by decide, by decide⟩
  | .register => ⟨5, 5, by decide, by decide⟩
  | .indexRegister => ⟨4, 4, by decide, by decide⟩
  | .address => ⟨0, 3, by decide, by decide⟩

def name : Field → String
  | .opcode => "opcode"
  | .addressingMode => "addressing_mode"
  | .indexingMode => "indexing_mode"
  | .register => "register"
  | .indexRegister => "index_register"
  | .address => "address"

def named? (name : String) : Option Field := all.find? (·.name == name)

def get (f : Field) (w : MachineWord) : Nat := w.digits f.range

/-- The word with the field replaced, if the value has no more digits than the field. -/
def set (f : Field) (value : Int) (w : MachineWord) : Except Word.Error MachineWord :=
  w.replaceDigits f.range value

end Field

/-- The fields of a word one by one, as in `CommandWord(11 1 2 3 4 0005)`. -/
def Word.fieldsText (w : MachineWord) : String :=
  let digits (f : Field) := String.ofList (Word.paddedDigits f.range.width (f.get w))
  let texts := " ".intercalate (Field.all.map digits)
  s!"CommandWord({texts})"

/-- A command word under construction. Values may also be filed under names that are no fields; they
are kept beside the word and do not change it. -/
structure CommandWord where
  base : MachineWord
  notes : List (String × Int)
deriving DecidableEq

namespace CommandWord

def ofBase (base : MachineWord) : CommandWord := ⟨base, []⟩

/-- The value of a field, or the value filed under a name that is no field. -/
def get? (w : CommandWord) (name : String) : Option Int :=
  match Field.named? name with
  | some f => some (f.get w.base)
  | none => w.notes.lookup name

def set (w : CommandWord) (name : String) (value : Int) : Except Word.Error CommandWord :=
  match Field.named? name with
  | some f => (f.set value w.base).map fun base => { w with base := base }
  | none => .ok { w with notes := (name, value) :: w.notes }

end CommandWord

end Drama
