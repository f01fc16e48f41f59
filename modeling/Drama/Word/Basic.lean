-- SUMMARY: Decimal words of a fixed width: the wrapped value, its signed reading and its arithmetic.
import Drama.TenPow

/-!
# Words

Every value the DRAMA machine handles is a decimal word of `n` digits. The raw value of a word stays
below `10 ^ n`; the lower half of that range reads as a nonnegative number and the upper half as a
negative one, so `9999` is `-1` as a word of four digits. Arithmetic works on the signed readings and
wraps, so it is arithmetic modulo `10 ^ n`.
-/

namespace Drama

/-- A decimal word of `n` digits. -/
@[ext] structure Word (n : Nat) where
  raw : Nat
  raw_lt : raw < tenPow n
deriving DecidableEq

/-- The word of a machine address. -/
abbrev AddressWord := Word 4

/-- The word of a register or of a memory cell. -/
abbrev MachineWord := Word 10

/-- The number of addresses, one for each address word. -/
def addressSpace : Nat := tenPow 4

namespace Word

/-! ## Errors -/

/-- What can be wrong with a request for a word or for some of its digits. -/
inductive Error
  | notRepresentable (value : Int) (width : Nat)
  | negativeTruncation (value : Int)
  | digitsOutOfRange (low high : Int) (width : Nat)
  | doesNotFit (value : Int) (low high : Nat)
deriving DecidableEq

def Error.message : Error → String
  | .notRepresentable value width => s!"{value} is not representable in {width} digits"
  | .negativeTruncation value => s!"Truncating negative value {value}"
  | .digitsOutOfRange low high width =>
    s!"Digits {low}..{high} out of range for a {width} digit word"
  | .doesNotFit value low high => s!"{value} does not fit in digits {low}..{high}"

/-! ## Construction -/

variable {n m : Nat}

/-- The word whose raw value is `value`, if there is one. -/
def ofInt (n : Nat) (value : Int) : Except Error (Word n) :=
  if h : 0 ≤ value ∧ value.toNat < tenPow n then .ok ⟨value.toNat, h.2⟩
  else .error (.notRepresentable value n)

def zero : Word n := ⟨0, tenPow_pos n⟩

instance : Inhabited (Word n) := ⟨zero⟩

/-- The word congruent to `value` modulo `10 ^ n`. -/
def wrap (value : Int) : Word n :=
  ⟨(value % (tenPow n : Int)).toNat, by
    have := Int.emod_lt_of_pos value (Int.natCast_pos.2 (tenPow_pos n))
    have := Int.emod_nonneg value (Int.natCast_ne_zero.2 (Nat.pos_iff_ne_zero.1 (tenPow_pos n)))
    omega⟩

/-- The lowest `n` digits of a nonnegative number. -/
def truncate (n : Nat) (value : Int) : Except Error (Word n) :=
  if value < 0 then .error (.negativeTruncation value) else .ok (wrap value)

/-- The lowest four digits of a word, which is how every value becomes an address. -/
def toAddress (w : Word n) : AddressWord := ⟨w.raw % tenPow 4, Nat.mod_lt _ (tenPow_pos 4)⟩

/-- The same raw value in a word of at least as many digits. -/
def widen (h : n ≤ m) (w : Word n) : Word m :=
  ⟨w.raw, Nat.lt_of_lt_of_le w.raw_lt (tenPow_le h)⟩

/-- An address as a machine word. -/
def toMachine (a : AddressWord) : MachineWord := a.widen (by decide)

/-! ## Reading and arithmetic -/

/-- The number a word stands for: its upper half is negative. -/
def signed (w : Word n) : Int :=
  if w.raw < tenPow n / 2 then w.raw else w.raw - (tenPow n : Int)

def incremented (w : Word n) : Word n :=
  ⟨(w.raw + 1) % tenPow n, Nat.mod_lt _ (tenPow_pos n)⟩

def decremented (w : Word n) : Word n := wrap ((w.raw : Int) - 1)

def add (w : Word n) (value : Int) : Word n := wrap (w.signed + value)

def subtract (w : Word n) (value : Int) : Word n := wrap (w.signed - value)

def multiply (w : Word n) (value : Int) : Word n := wrap (w.signed * value)

/-- The quotient truncated toward zero; a quotient by zero is zero. -/
def divide (w : Word n) (value : Int) : Word n := wrap (w.signed.tdiv value)

/-- The remainder that goes with `divide`, of the sign of the dividend; by zero it is zero. -/
def remainder (w : Word n) (value : Int) : Word n :=
  if value = 0 then zero else wrap (w.signed.tmod value)

/-! ## Text -/

/-- The decimal digits of `value`, with zeros before them up to `width` digits. -/
def paddedDigits (width value : Nat) : List Char :=
  (Nat.toDigits 10 value).leftpad width '0'

/-- The raw value in as many digits as the word has. -/
def text (w : Word n) : String := String.ofList (paddedDigits n w.raw)

end Word

end Drama
