-- SUMMARY: Laws of reading and writing digit ranges in every word, which is known by its digits.
import Drama.Word.Digits
import Mathlib.Tactic.Ring

/-!
# Laws of digit ranges

A digit range is a lens on a word: what is written there is read there, and every range that does not
meet it reads as before. Both follow from two facts about `withDigits`, that it keeps what lies below
the range as a remainder and what lies above as a quotient. A word is known by its digits
(`Word.ext_digits`), and which digits it has after a range is written does not depend on those that were there
(`Word.digits_single_withDigits`), so the last write to a range decides and the order of writes to different
ranges does not matter.
-/

namespace Drama

namespace DigitRange

variable {n : Nat}

/-- Two ranges without a common digit. -/
def Disjoint (r s : DigitRange n) : Prop := r.high < s.low ∨ s.high < r.low

/-- The range of one digit. -/
def single (position : Nat) (h : position < n) : DigitRange n := ⟨position, position, Nat.le_refl _, h⟩

theorem width_single {position : Nat} (h : position < n) : (single position h).width = 1 := by
  rw [width, single, Nat.sub_self]

theorem ofInts?_self (r : DigitRange n) : ofInts? n r.low r.high = some r := by
  have hle := r.low_le_high
  have hlt := r.high_lt
  rw [ofInts?, dif_pos ⟨by omega, by omega, by omega⟩]
  rfl

theorem tenPow_high (r : DigitRange n) :
    tenPow (r.high + 1) = tenPow r.low * tenPow r.width := by
  have hle := r.low_le_high
  rw [← tenPow_add, DigitRange.width]
  congr 1
  omega

end DigitRange

namespace Word

variable {n : Nat} (w : Word n) (r s : DigitRange n) {value : Nat}

theorem digits_lt : w.digits r < tenPow r.width := Nat.mod_lt _ (tenPow_pos _)

/-- Digits depend only on what lies in the range and below it. -/
theorem digits_eq_mod_div : w.digits r = w.raw % tenPow (r.high + 1) / tenPow r.low := by
  rw [r.tenPow_high, Nat.mod_mul_right_div_self, digits]

/-- What lies at and above a range is a multiple of the power of ten at its lower end. -/
theorem withDigits_raw (h : value < tenPow r.width) :
    (w.withDigits r value h).raw = w.raw % tenPow r.low
      + tenPow r.low * (value + tenPow r.width * (w.raw / tenPow (r.high + 1))) := by
  simp only [withDigits, r.tenPow_high]
  ring

/-- What lies below a range is not touched by writing it. -/
theorem withDigits_mod (h : value < tenPow r.width) :
    (w.withDigits r value h).raw % tenPow r.low = w.raw % tenPow r.low := by
  rw [withDigits_raw, Nat.add_mul_mod_self_left, Nat.mod_mod]

/-- What lies above a range is not touched by writing it. -/
theorem withDigits_div (h : value < tenPow r.width) :
    (w.withDigits r value h).raw / tenPow (r.high + 1) = w.raw / tenPow (r.high + 1) := by
  have hlow : w.raw % tenPow r.low + value * tenPow r.low < tenPow (r.high + 1) := by
    have h₁ := Nat.mod_lt w.raw (tenPow_pos r.low)
    have h₂ : (value + 1) * tenPow r.low ≤ tenPow (r.high + 1) := by
      rw [r.tenPow_high, Nat.mul_comm (tenPow r.low)]
      exact Nat.mul_le_mul_right _ h
    rw [Nat.add_mul] at h₂
    omega
  simp only [withDigits]
  rw [Nat.add_mul_div_right _ _ (tenPow_pos _), Nat.div_eq_of_lt hlow, Nat.zero_add]

theorem digits_withDigits (h : value < tenPow r.width) :
    (w.withDigits r value h).digits r = value := by
  have hlow : w.raw % tenPow r.low < tenPow r.low := Nat.mod_lt _ (tenPow_pos _)
  rw [digits, withDigits_raw, Nat.add_mul_div_left _ _ (tenPow_pos _), Nat.div_eq_of_lt hlow,
    Nat.zero_add, Nat.add_mul_mod_self_left, Nat.mod_eq_of_lt h]

theorem digits_withDigits_of_disjoint {r s : DigitRange n} (hd : r.Disjoint s)
    (h : value < tenPow r.width) : (w.withDigits r value h).digits s = w.digits s := by
  cases hd with
  | inl above =>
    obtain ⟨k, hk⟩ := Nat.exists_eq_add_of_lt above
    have hlow : s.low = r.high + 1 + k := by omega
    simp only [digits, hlow, tenPow_add _ k, ← Nat.div_div_eq_div_mul, withDigits_div]
  | inr below =>
    obtain ⟨k, hk⟩ := Nat.exists_eq_add_of_lt below
    have hdvd : tenPow (s.high + 1) ∣ tenPow r.low := by
      rw [show r.low = s.high + 1 + k by omega, tenPow_add (s.high + 1)]
      exact Nat.dvd_mul_right _ _
    rw [digits_eq_mod_div, digits_eq_mod_div, ← Nat.mod_mod_of_dvd _ hdvd, withDigits_mod,
      Nat.mod_mod_of_dvd _ hdvd]

/-! ## Single digits -/

theorem digits_single {position : Nat} (h : position < n) :
    w.digits (.single position h) = w.raw / tenPow position % tenPow 1 := by
  rw [digits, DigitRange.width_single]
  rfl

/-- A digit in a range is one of those of the number that the range spells. -/
theorem digits_single_of_mem {position : Nat} (h : position < n) (hlow : r.low ≤ position)
    (hhigh : position ≤ r.high) :
    w.digits (.single position h) = w.digits r / tenPow (position - r.low) % tenPow 1 := by
  obtain ⟨k, rfl⟩ := Nat.exists_eq_add_of_le hlow
  obtain ⟨m, hm⟩ := Nat.exists_eq_add_of_le hhigh
  have hwidth : r.width = k + (1 + m) := by
    rw [DigitRange.width]
    omega
  have hdvd : tenPow 1 ∣ tenPow (1 + m) := by
    rw [tenPow_add]
    exact Nat.dvd_mul_right _ _
  rw [digits_single, Nat.add_sub_cancel_left, digits, hwidth, tenPow_add k, Nat.mod_mul_right_div_self,
    Nat.mod_mod_of_dvd _ hdvd, Nat.div_div_eq_div_mul, ← tenPow_add]

/-- The digits of a word in which a range is written: those of the value in the range, and the old ones elsewhere. -/
theorem digits_single_withDigits (h : value < tenPow r.width) {position : Nat} (hposition : position < n) :
    (w.withDigits r value h).digits (.single position hposition) =
      if r.low ≤ position ∧ position ≤ r.high then value / tenPow (position - r.low) % tenPow 1
      else w.digits (.single position hposition) := by
  split
  · rename_i hin
    rw [digits_single_of_mem _ r hposition hin.1 hin.2, digits_withDigits]
  · rename_i hout
    have hd : r.Disjoint (.single position hposition) := by
      show r.high < position ∨ position < r.low
      omega
    exact w.digits_withDigits_of_disjoint hd h

/-- A word is known by its digits. -/
theorem ext_digits {w v : Word n}
    (h : ∀ position (hposition : position < n),
      w.digits (.single position hposition) = v.digits (.single position hposition)) : w = v := by
  have hmod (k : Nat) (hk : k ≤ n) : w.raw % tenPow k = v.raw % tenPow k := by
    induction k with
    | zero => rw [tenPow_zero, Nat.mod_one, Nat.mod_one]
    | succ k ih =>
      have hdigit := h k hk
      rw [digits_single, digits_single] at hdigit
      rw [tenPow_add, Nat.mod_mul, Nat.mod_mul, ih (Nat.le_of_succ_le hk), hdigit]
  have hall := hmod n (Nat.le_refl n)
  rw [Nat.mod_eq_of_lt w.raw_lt, Nat.mod_eq_of_lt v.raw_lt] at hall
  exact Word.ext hall

theorem withDigits_digits : w.withDigits r (w.digits r) (w.digits_lt r) = w := by
  refine ext_digits fun position hposition => ?_
  rw [digits_single_withDigits]
  split
  · rename_i hin
    exact (w.digits_single_of_mem r hposition hin.1 hin.2).symm
  · rfl

theorem withDigits_withDigits {first second : Nat} (h : first < tenPow r.width)
    (h' : second < tenPow r.width) :
    (w.withDigits r first h).withDigits r second h' = w.withDigits r second h' := by
  refine ext_digits fun position hposition => ?_
  simp only [digits_single_withDigits]
  split <;> rfl

theorem withDigits_comm {r s : DigitRange n} (hd : r.Disjoint s) {a b : Nat} (ha : a < tenPow r.width)
    (hb : b < tenPow s.width) :
    (w.withDigits r a ha).withDigits s b hb = (w.withDigits s b hb).withDigits r a ha := by
  refine ext_digits fun position hposition => ?_
  simp only [digits_single_withDigits]
  by_cases hs : s.low ≤ position ∧ position ≤ s.high
  · have hr : ¬(r.low ≤ position ∧ position ≤ r.high) := by
      unfold DigitRange.Disjoint at hd
      omega
    simp only [if_pos hs, if_neg hr]
  · simp only [if_neg hs]

/-! ## Ranges and values that are checked -/

theorem digits?_eq_ok : w.digits? r.low r.high = .ok (w.digits r) := by
  rw [digits?, r.ofInts?_self]

theorem withDigits?_eq (value : Int) : w.withDigits? r.low r.high value = w.replaceDigits r value := by
  rw [withDigits?, r.ofInts?_self]

theorem replaceDigits_eq_ok (h : value < tenPow r.width) :
    w.replaceDigits r value = .ok (w.withDigits r value h) := by
  rw [replaceDigits, dif_pos ⟨Int.natCast_nonneg _, h⟩]
  rfl

theorem replaceDigits_eq_error {value : Int} (h : ¬(0 ≤ value ∧ value < tenPow r.width)) :
    w.replaceDigits r value = .error (.doesNotFit value r.low r.high) := by
  rw [replaceDigits, dif_neg (by omega)]

/-- What was written before to a range does not matter, nor whether the value fits. -/
theorem replaceDigits_withDigits (h : value < tenPow r.width) (later : Int) :
    (w.withDigits r value h).replaceDigits r later = w.replaceDigits r later := by
  unfold replaceDigits
  split
  · rw [withDigits_withDigits]
  · rfl

theorem ofInts?_eq_none {low high : Int} (h : ¬(0 ≤ low ∧ low ≤ high ∧ high < n)) :
    DigitRange.ofInts? n low high = none := dif_neg h

end Word

end Drama
