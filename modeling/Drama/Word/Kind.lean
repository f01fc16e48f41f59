-- SUMMARY: The kinds of words by name, and words tagged with their kind.
import Drama.Word.Basic

/-!
# Kinds of words

Words of different kinds are different values even where their raw values agree: address word 1 is
not machine word 1. A `TaggedWord` carries its kind, so such words can be compared and shown.
-/

namespace Drama

/-- The plain kind has no digits at all, and zero as its only word. -/
inductive WordKind
  | plain
  | address
  | machine
deriving DecidableEq

namespace WordKind

def width : WordKind → Nat
  | .plain => 0
  | .address => 4
  | .machine => 10

def name : WordKind → String
  | .plain => "Word"
  | .address => "AddressWord"
  | .machine => "MachineWord"

theorem width_le (k : WordKind) : k.width ≤ 10 := by cases k <;> decide

end WordKind

/-- A word together with its kind. -/
structure TaggedWord where
  kind : WordKind
  word : Word kind.width
deriving DecidableEq

namespace TaggedWord

def ofInt (kind : WordKind) (value : Int) : Except Word.Error TaggedWord :=
  (Word.ofInt kind.width value).map (⟨kind, ·⟩)

/-- The address a word of any kind is cut down to. -/
def toAddress (t : TaggedWord) : TaggedWord := ⟨.address, t.word.toAddress⟩

/-- The machine word of the same raw value. -/
def toMachine (t : TaggedWord) : TaggedWord := ⟨.machine, t.word.widen t.kind.width_le⟩

/-- The kind and the digits, as in `AddressWord(0001)`. -/
def text (t : TaggedWord) : String := s!"{t.kind.name}({t.word.text})"

/-- How many different words a list holds. -/
def countDistinct (words : List TaggedWord) : Nat := words.eraseDups.length

end TaggedWord

end Drama
