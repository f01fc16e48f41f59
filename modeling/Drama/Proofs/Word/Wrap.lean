-- SUMMARY: Wrapping as congruence: which numbers make the same word, and what cutting down to an address keeps.
import Drama.Word.Basic
import Mathlib.Data.Int.ModEq

/-!
# Wrapping and congruence

Two numbers wrap to the same word of `n` digits exactly when they are congruent modulo `10 ^ n`. The
signed reading of a word is one of the numbers that wrap to it. Since `10 ^ 4` divides `10 ^ 10`, the
address that a machine word is cut down to depends on its number modulo `10 ^ 4` only.
-/

namespace Drama

namespace Word

variable {n : Nat}

theorem tenPow_cast_ne_zero (n : Nat) : (tenPow n : Int) ≠ 0 :=
  Int.natCast_ne_zero.2 (Nat.pos_iff_ne_zero.1 (tenPow_pos n))

theorem raw_wrap (value : Int) : ((wrap value : Word n).raw : Int) = value % (tenPow n : Int) :=
  Int.toNat_of_nonneg (Int.emod_nonneg _ (tenPow_cast_ne_zero n))

/-- The raw value of a word, as a number below the modulus. -/
theorem raw_emod (w : Word n) : (w.raw : Int) % (tenPow n : Int) = w.raw :=
  Int.emod_eq_of_lt (Int.natCast_nonneg _) (Int.ofNat_lt.2 w.raw_lt)

theorem wrap_eq_iff {a b : Int} :
    (wrap a : Word n) = wrap b ↔ a ≡ b [ZMOD (tenPow n : Int)] := by
  constructor
  · intro h
    have hraw : ((wrap a : Word n).raw : Int) = (wrap b : Word n).raw := by rw [h]
    rwa [raw_wrap, raw_wrap] at hraw
  · intro h
    have hraw : ((wrap a : Word n).raw : Int) = (wrap b : Word n).raw := by
      rw [raw_wrap, raw_wrap]
      exact h
    exact Word.ext (Int.ofNat.inj hraw)

theorem wrap_raw (w : Word n) : (wrap (w.raw : Int) : Word n) = w := by
  apply Word.ext
  have h := raw_wrap (n := n) w.raw
  rw [raw_emod] at h
  exact Int.ofNat.inj h

/-- What is added to a wrapped number may as well be added before. -/
theorem wrap_raw_add (a b : Int) : (wrap ((wrap a : Word n).raw + b) : Word n) = wrap (a + b) := by
  rw [wrap_eq_iff, raw_wrap]
  exact (Int.mod_modEq a _).add_right b

theorem signed_modEq_raw (w : Word n) : w.signed ≡ w.raw [ZMOD (tenPow n : Int)] := by
  rw [signed]
  split
  · exact Int.ModEq.refl _
  · exact (Int.modEq_iff_dvd).2 ⟨1, by omega⟩

theorem wrap_signed (w : Word n) : (wrap w.signed : Word n) = w := by
  rw [wrap_eq_iff.2 w.signed_modEq_raw, wrap_raw]

theorem signed_wrap_modEq (value : Int) :
    (wrap value : Word n).signed ≡ value [ZMOD (tenPow n : Int)] :=
  wrap_eq_iff.1 (wrap_signed (wrap value))

/-- Cutting a machine word down to an address forgets all but the last four digits of its number. -/
theorem toAddress_wrap (value : Int) : (wrap value : MachineWord).toAddress = wrap value := by
  apply Word.ext
  have h : ((wrap value : MachineWord).toAddress.raw : Int) = (wrap value : AddressWord).raw := by
    rw [raw_wrap]
    simp only [toAddress, Int.natCast_emod, raw_wrap]
    exact Int.emod_emod_of_dvd _ (by decide)
  exact Int.ofNat.inj h

theorem toAddress_wrap_eq {a b : Int} (h : a ≡ b [ZMOD (tenPow 4 : Int)]) :
    (wrap a : MachineWord).toAddress = (wrap b : MachineWord).toAddress := by
  rw [toAddress_wrap, toAddress_wrap, wrap_eq_iff.2 h]

end Word

end Drama
