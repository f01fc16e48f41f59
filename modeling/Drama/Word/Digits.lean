-- SUMMARY: Runs of digits inside a word, read and written as one number.
import Drama.Word.Basic

/-!
# Digit ranges

A word can be read and written one run of digits at a time; digit 0 is the least significant one.
`Word.digits` and `Word.withDigits` work on a range that is known to lie inside the word,
`Word.digits?` and `Word.withDigits?` check the range and the value first.
-/

namespace Drama

/-- The digits `low` to `high`, both included, of a word of `n` digits. -/
structure DigitRange (n : Nat) where
  low : Nat
  high : Nat
  low_le_high : low ≤ high
  high_lt : high < n
deriving DecidableEq

namespace DigitRange

/-- How many digits the range has. -/
def width {n : Nat} (r : DigitRange n) : Nat := r.high - r.low + 1

/-- The range from `low` to `high`, if it lies inside a word of `n` digits. -/
def ofInts? (n : Nat) (low high : Int) : Option (DigitRange n) :=
  if h : 0 ≤ low ∧ low ≤ high ∧ high < n then
    some ⟨low.toNat, high.toNat, by omega, by omega⟩
  else none

end DigitRange

namespace Word

variable {n : Nat}

/-- The number that the digits in the range spell. -/
def digits (w : Word n) (r : DigitRange n) : Nat := w.raw / tenPow r.low % tenPow r.width

private theorem withDigits_lt (w : Word n) (r : DigitRange n) {value : Nat}
    (h : value < tenPow r.width) :
    w.raw % tenPow r.low + value * tenPow r.low +
      w.raw / tenPow (r.high + 1) * tenPow (r.high + 1) < tenPow n := by
  have hlow := r.low_le_high
  have hhigh := r.high_lt
  have hn : tenPow n = tenPow (n - (r.high + 1)) * tenPow (r.high + 1) := by
    rw [← tenPow_add]; congr 1; omega
  have hw : tenPow (r.high + 1) = tenPow r.width * tenPow r.low := by
    rw [← tenPow_add, DigitRange.width]; congr 1; omega
  have hq : w.raw / tenPow (r.high + 1) < tenPow (n - (r.high + 1)) :=
    (Nat.div_lt_iff_lt_mul (tenPow_pos _)).2 (hn ▸ w.raw_lt)
  have h₁ := Nat.mod_lt w.raw (tenPow_pos r.low)
  have h₂ : (value + 1) * tenPow r.low ≤ tenPow (r.high + 1) :=
    hw ▸ Nat.mul_le_mul_right _ h
  have h₃ : (w.raw / tenPow (r.high + 1) + 1) * tenPow (r.high + 1) ≤ tenPow n :=
    hn ▸ Nat.mul_le_mul_right _ hq
  rw [Nat.add_mul] at h₂ h₃
  omega

/-- The word with the digits in the range replaced by those of `value`. -/
def withDigits (w : Word n) (r : DigitRange n) (value : Nat) (h : value < tenPow r.width) : Word n :=
  ⟨_, withDigits_lt w r h⟩

/-- `digits` from `low` to `high`, whatever these are. -/
def digits? (w : Word n) (low high : Int) : Except Error Nat :=
  match DigitRange.ofInts? n low high with
  | some r => .ok (w.digits r)
  | none => .error (.digitsOutOfRange low high n)

/-- `withDigits` on a given range, whatever the value is. -/
def replaceDigits (w : Word n) (r : DigitRange n) (value : Int) : Except Error (Word n) :=
  if h : 0 ≤ value ∧ value.toNat < tenPow r.width then .ok (w.withDigits r value.toNat h.2)
  else .error (.doesNotFit value r.low r.high)

/-- `withDigits` from `low` to `high`, whatever these and the value are; the range is checked
before the value. -/
def withDigits? (w : Word n) (low high value : Int) : Except Error (Word n) :=
  match DigitRange.ofInts? n low high with
  | some r => w.replaceDigits r value
  | none => .error (.digitsOutOfRange low high n)

end Word

end Drama
