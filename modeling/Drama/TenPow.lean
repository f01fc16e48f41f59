-- SUMMARY: Powers of ten.

namespace Drama

/-- The power of ten with a given exponent, which is how many numbers have at most that many digits. -/
def tenPow (n : Nat) : Nat := Nat.pow 10 n

theorem tenPow_zero : tenPow 0 = 1 := rfl

theorem tenPow_succ (n : Nat) : tenPow (n + 1) = 10 * tenPow n := Nat.mul_comm _ _

theorem tenPow_pos (n : Nat) : 0 < tenPow n := by
  induction n with
  | zero => decide
  | succ n ih => rw [tenPow_succ]; omega

theorem tenPow_add (n m : Nat) : tenPow (n + m) = tenPow n * tenPow m := by
  induction m with
  | zero => rw [Nat.add_zero, tenPow_zero, Nat.mul_one]
  | succ m ih => rw [← Nat.add_assoc, tenPow_succ, tenPow_succ, ih, Nat.mul_left_comm]

theorem tenPow_le {n m : Nat} (h : n ≤ m) : tenPow n ≤ tenPow m := by
  obtain ⟨k, rfl⟩ := Nat.exists_eq_add_of_le h
  rw [tenPow_add]
  exact Nat.le_mul_of_pos_right _ (tenPow_pos k)

end Drama
