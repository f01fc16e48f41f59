-- SUMMARY: Arithmetic on words is arithmetic modulo a power of ten, read in the symmetric range around zero.
import Drama.Proofs.Word.Wrap

/-!
# Arithmetic on words

A word of `n` digits reads as one of the `10 ^ n` numbers around zero, the negative ones being one more than the
positive ones. Wrapping picks the one of them that is congruent to a given number, so sums, differences and
products wrap as late as one likes. Division truncates toward zero, and of all quotients by a number other than
zero just one is out of range: that of the least number by `-1`, which wraps to the least number again.
-/

namespace Drama

namespace Word

/-! ## Signed readings -/

/-- The size of the least number that a word of `n` digits reads as. -/
def half (n : Nat) : Int := (tenPow n / 2 : Nat)

/-- The numbers that words of `n` digits read as. -/
def Readable (n : Nat) (value : Int) : Prop := -half n ≤ value ∧ value < half n

instance (n : Nat) (value : Int) : Decidable (Readable n value) :=
  inferInstanceAs (Decidable (_ ∧ _))

section

variable {n : Nat} (hn : 0 < n)

include hn

theorem two_mul_half : 2 * half n = (tenPow n : Int) := by
  obtain ⟨k, rfl⟩ := Nat.exists_eq_succ_of_ne_zero hn.ne'
  have hsucc : tenPow (k + 1) = 10 * tenPow k := tenPow_succ k
  rw [half, hsucc]
  omega

theorem half_pos : 0 < half n := by
  have hhalf := two_mul_half hn
  have hpos := tenPow_pos n
  omega

theorem readable_signed (w : Word n) : Readable n w.signed := by
  have hhalf := two_mul_half hn
  have hlt := w.raw_lt
  rw [Readable, signed]
  split
  · rename_i hlow
    have : (w.raw : Int) < half n := Int.ofNat_lt.2 hlow
    omega
  · rename_i hhigh
    have : half n ≤ (w.raw : Int) := Int.ofNat_le.2 (Nat.le_of_not_lt hhigh)
    omega

/-- Of all readable numbers, only one is congruent to a given number. -/
theorem Readable.eq_of_modEq {a b : Int} (ha : Readable n a) (hb : Readable n b)
    (h : a ≡ b [ZMOD (tenPow n : Int)]) : a = b := by
  have hhalf := two_mul_half hn
  have hlt : (b - a).natAbs < (tenPow n : Int).natAbs := by
    unfold Readable at ha hb
    omega
  have hzero := Int.eq_zero_of_dvd_of_natAbs_lt_natAbs h.dvd hlt
  omega

theorem signed_wrap_eq_iff {value x : Int} :
    (wrap value : Word n).signed = x ↔ Readable n x ∧ x ≡ value [ZMOD (tenPow n : Int)] := by
  constructor
  · rintro rfl
    exact ⟨readable_signed hn _, signed_wrap_modEq value⟩
  · rintro ⟨hx, hmod⟩
    exact (readable_signed hn _).eq_of_modEq hn hx ((signed_wrap_modEq value).trans hmod.symm)

theorem signed_wrap {value : Int} (h : Readable n value) : (wrap value : Word n).signed = value :=
  (signed_wrap_eq_iff hn).2 ⟨h, .refl _⟩

end

/-! ## Sums, differences and products -/

section

variable {n : Nat} (w : Word n) (z y : Int)

theorem add_wrap : (wrap z : Word n).add y = wrap (z + y) :=
  wrap_eq_iff.2 ((signed_wrap_modEq z).add_right y)

theorem subtract_wrap : (wrap z : Word n).subtract y = wrap (z - y) :=
  wrap_eq_iff.2 ((signed_wrap_modEq z).sub_right y)

theorem multiply_wrap : (wrap z : Word n).multiply y = wrap (z * y) :=
  wrap_eq_iff.2 ((signed_wrap_modEq z).mul_right y)

theorem subtract_add : (w.add z).subtract z = w := by
  rw [add, subtract_wrap, Int.add_sub_cancel, wrap_signed]

theorem incremented_eq_add : w.incremented = w.add 1 := by
  apply Word.ext
  have h : (w.incremented.raw : Int) = (w.add 1).raw := by
    rw [add, raw_wrap, incremented, Int.natCast_emod]
    exact (w.signed_modEq_raw.symm.add_right 1 :)
  exact Int.ofNat.inj h

theorem decremented_eq_subtract : w.decremented = w.subtract 1 :=
  wrap_eq_iff.2 (w.signed_modEq_raw.symm.sub_right 1)

end

/-! ## Quotients and remainders -/

section

variable {n : Nat} (hn : 0 < n)

include hn

/-- Every divisor other than one and minus one at least halves the size of a number. -/
theorem readable_tdiv_iff {x : Int} (hx : Readable n x) (y : Int) :
    Readable n (x.tdiv y) ↔ ¬(x = -half n ∧ y = -1) := by
  have hpos := half_pos hn
  have hsize : (x.tdiv y).natAbs = x.natAbs / y.natAbs := Int.natAbs_tdiv x y
  unfold Readable at hx ⊢
  constructor
  · rintro ⟨-, hlt⟩ ⟨rfl, rfl⟩
    rw [Int.tdiv_neg, Int.tdiv_one] at hlt
    omega
  · intro hnot
    by_cases hunit : y.natAbs = 1
    · obtain rfl | rfl : y = 1 ∨ y = -1 := by omega
      · rwa [Int.tdiv_one]
      · rw [Int.tdiv_neg, Int.tdiv_one]
        omega
    · have hhalved : x.natAbs / y.natAbs ≤ x.natAbs / 2 := by
        obtain hzero | hlarge : y.natAbs = 0 ∨ 2 ≤ y.natAbs := by omega
        · simp [hzero]
        · exact Nat.div_le_div_left hlarge (by decide)
      omega

theorem signed_divide {w : Word n} {y : Int} (h : ¬(w.signed = -half n ∧ y = -1)) :
    (w.divide y).signed = w.signed.tdiv y :=
  signed_wrap hn ((readable_tdiv_iff hn (readable_signed hn w) y).2 h)

/-- The quotient that is out of range wraps to the dividend. -/
theorem signed_divide_of_overflow {w : Word n} (h : w.signed = -half n) :
    (w.divide (-1)).signed = -half n := by
  have hhalf := two_mul_half hn
  have hpos := half_pos hn
  rw [divide, h, Int.tdiv_neg, Int.tdiv_one, Int.neg_neg, signed_wrap_eq_iff hn, Readable]
  exact ⟨by omega, Int.modEq_iff_dvd.2 ⟨1, by omega⟩⟩

/-- A remainder is of the sign of the dividend and no larger, so it can be read. -/
theorem signed_remainder (w : Word n) {y : Int} (hy : y ≠ 0) :
    (w.remainder y).signed = w.signed.tmod y := by
  rw [remainder, if_neg hy]
  apply signed_wrap hn
  have hw := readable_signed hn w
  have hsize : (w.signed.tmod y).natAbs ≤ w.signed.natAbs := by
    rw [Int.natAbs_tmod]
    exact Nat.mod_le _ _
  unfold Readable at hw ⊢
  obtain hnonneg | hneg := Int.le_total 0 w.signed
  · have := Int.tmod_nonneg y hnonneg
    omega
  · have := Int.tmod_nonneg y (Int.neg_nonneg_of_nonpos hneg)
    rw [Int.neg_tmod] at this
    omega

end

theorem multiply_divide_add_remainder {n : Nat} (hn : 0 < n) (w : Word n) {y : Int} (hy : y ≠ 0) :
    ((w.divide y).multiply y).add (w.remainder y).signed = w := by
  rw [divide, multiply_wrap, add_wrap, signed_remainder hn w hy, Int.tdiv_mul_add_tmod, wrap_signed]

/-! ## The laws of arithmetic -/

/-- What holds of a word, a number that wraps to another word, and a number that is combined with each of the
two. -/
structure Modular {n : Nat} (w : Word n) (z y : Int) : Prop where
  /-- A number wraps to the word that reads as the one number in range that it is congruent to. -/
  signed_wrap : ∀ x, (wrap z : Word n).signed = x ↔ Readable n x ∧ x ≡ z [ZMOD (tenPow n : Int)]
  wrap_signed : wrap w.signed = w
  subtract_add : (w.add z).subtract z = w
  add : (wrap z : Word n).add y = wrap (z + y)
  subtract : (wrap z : Word n).subtract y = wrap (z - y)
  multiply : (wrap z : Word n).multiply y = wrap (z * y)
  remainder : y ≠ 0 → ((w.divide y).multiply y).add (w.remainder y).signed = w
  remainder_lt : y ≠ 0 → (w.remainder y).signed.natAbs < y.natAbs
  remainder_sign : y ≠ 0 → (w.remainder y).signed ≠ 0 →
    (w.remainder y).signed.sign = w.signed.sign
  /-- The quotient is truncated toward zero, but for the one that is out of range. -/
  divide : y ≠ 0 → ((w.divide y).signed = w.signed.tdiv y ↔ ¬(w.signed = -half n ∧ y = -1))
  overflow : w.signed = -half n → y = -1 → (w.divide y).signed = -half n

end Word

/-- Arithmetic on words of any width is arithmetic modulo ten to the number of digits. -/
theorem modular_of_pos {n : Nat} (hn : 0 < n) (w : Word n) (z y : Int) : w.Modular z y where
  signed_wrap _ := Word.signed_wrap_eq_iff hn
  wrap_signed := w.wrap_signed
  subtract_add := w.subtract_add z
  add := Word.add_wrap z y
  subtract := Word.subtract_wrap z y
  multiply := Word.multiply_wrap z y
  remainder := Word.multiply_divide_add_remainder hn w
  remainder_lt hy := by
    rw [Word.signed_remainder hn w hy, Int.natAbs_tmod]
    exact Nat.mod_lt _ (Int.natAbs_pos.2 hy)
  remainder_sign hy hne := by
    rw [Word.signed_remainder hn w hy] at hne ⊢
    rw [Int.sign_tmod, if_neg fun hdvd => hne (Int.tmod_eq_zero_of_dvd hdvd)]
  divide _ := by
    constructor
    · rintro hexact ⟨hleast, rfl⟩
      have hpos := Word.half_pos hn
      rw [Word.signed_divide_of_overflow hn hleast, hleast, Int.tdiv_neg, Int.tdiv_one] at hexact
      omega
    · exact Word.signed_divide hn
  overflow hleast hy := by
    subst hy
    exact Word.signed_divide_of_overflow hn hleast

/-- The least machine word divided by `-1` is itself, with nothing left over; by `-3` it leaves a negative
remainder. -/
theorem modular_of_pos_least :
    let w : MachineWord := Word.wrap 5000000000
    w.signed = -5000000000 ∧ (w.divide (-1)).signed = -5000000000 ∧ w.Modular 5000000000 (-1) ∧
      (w.remainder (-3)).signed = -2 ∧ (w.divide (-3)).signed = 1666666666 ∧
      ((w.divide (-3)).multiply (-3)).add (-2) = w := by
  intro w
  have hoverflow := modular_of_pos (n := 10) (by decide) w 5000000000 (-1)
  have htruncated := modular_of_pos (n := 10) (by decide) w 0 (-3)
  have hleast : w.signed = -5000000000 := (hoverflow.signed_wrap _).2 (by decide)
  have hremainder : (w.remainder (-3)).signed = -2 := by decide
  refine ⟨hleast, hoverflow.overflow hleast rfl, hoverflow, hremainder, ?_, ?_⟩
  · rw [(htruncated.divide (by decide)).2 (by decide), hleast]
    decide
  · rw [← hremainder]
    exact htruncated.remainder (by decide)

end Drama
