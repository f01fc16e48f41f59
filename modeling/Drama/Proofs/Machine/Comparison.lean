-- SUMMARY: Jumping on a comparison and on a difference: the one is always right, the other until the difference wraps.
import Drama.Proofs.Machine.Stack
import Drama.Proofs.Word.Arithmetic

/-!
# Comparisons

There are two ways to jump on how two registers compare. A comparison tells their order whatever they hold
(`Sign.satisfies_ofComparison`). A difference tells it by its sign, which is the wrong one as soon as the
difference is out of the range of words (`Word.ofWord_subtract`).
-/

namespace Drama

/-! ## Conditions as relations -/

/-- Whether two numbers are in the relation that the condition goes by as a comparison. -/
def Condition.Relates (c : Condition) (a b : Int) : Prop :=
  match c.comparison with
  | "GEL" => a = b
  | "GR" => a > b
  | "KL" => a < b
  | "NGEL" => a ≠ b
  | "KLG" => a ≤ b
  | "GRG" => a ≥ b
  | _ => False

namespace Sign

theorem ofComparison_eq_zero_iff (a b : Int) : ofComparison a b = .zero ↔ a = b := by
  unfold ofComparison
  split_ifs <;> simp <;> omega

theorem ofComparison_eq_positive_iff (a b : Int) : ofComparison a b = .positive ↔ a > b := by
  unfold ofComparison
  split_ifs <;> simp <;> omega

theorem ofComparison_eq_negative_iff (a b : Int) : ofComparison a b = .negative ↔ a < b := by
  unfold ofComparison
  split_ifs <;> simp <;> omega

/-- The sign of a comparison satisfies the conditions whose relations hold. -/
theorem satisfies_ofComparison (c : Condition) (a b : Int) :
    (ofComparison a b).satisfies c = true ↔ c.Relates a b := by
  cases c <;> simp [satisfies, Condition.Relates, Condition.comparison, ofComparison_eq_zero_iff,
    ofComparison_eq_positive_iff, ofComparison_eq_negative_iff]

end Sign

/-! ## Differences that wrap -/

/-- A difference of two words that is out of range is read with the opposite sign. -/
theorem Word.ofWord_subtract {n : Nat} (hn : 0 < n) (w v : Word n) :
    Sign.ofWord (w.subtract v.signed) =
      .ofComparison (if Readable n (w.signed - v.signed) then w.signed - v.signed
        else -(w.signed - v.signed)) 0 := by
  have hw := readable_signed hn w
  have hv := readable_signed hn v
  have hhalf := two_mul_half hn
  rw [Sign.ofWord, subtract]
  split
  · rename_i hreadable
    rw [signed_wrap hn hreadable]
  · rename_i hwraps
    unfold Readable at hw hv hwraps
    -- the difference is less than twice out of range, so one modulus brings it back
    obtain hlarge | hsmall : half n ≤ w.signed - v.signed ∨ w.signed - v.signed < -half n := by omega
    · have hread : (wrap (w.signed - v.signed) : Word n).signed = w.signed - v.signed - tenPow n :=
        (signed_wrap_eq_iff hn).2 ⟨by unfold Readable; omega, Int.modEq_iff_dvd.2 ⟨1, by omega⟩⟩
      rw [hread, (Sign.ofComparison_eq_negative_iff _ _).2 (by omega),
        (Sign.ofComparison_eq_negative_iff _ _).2 (by omega)]
    · have hread : (wrap (w.signed - v.signed) : Word n).signed = w.signed - v.signed + tenPow n :=
        (signed_wrap_eq_iff hn).2 ⟨by unfold Readable; omega, Int.modEq_iff_dvd.2 ⟨-1, by omega⟩⟩
      rw [hread, (Sign.ofComparison_eq_positive_iff _ _).2 (by omega),
        (Sign.ofComparison_eq_positive_iff _ _).2 (by omega)]

/-! ## Branches -/

namespace Machine

/-- A branch jumps from the machine exactly if something is the case: it goes on at the address that its operand
leads to, and does nothing otherwise. -/
structure JumpsIff (m : Machine) (branch : Command) (taken : Prop) : Prop where
  jumps : taken → ∃ a m', (target (.ofCommand branch)).run m = .ok a m' ∧
    (execute .standard branch).run m = .ok () { m' with pc := a }
  stays : ¬taken → (execute .standard branch).run m = .ok () m

variable {m : Machine} {branch : Command} {c : Condition} {mode : AddressingMode} {o : Operand}

theorem JumpsIff.congr {p q : Prop} (h : m.JumpsIff branch p) (hiff : p ↔ q) : m.JumpsIff branch q :=
  ⟨fun hq => h.jumps (hiff.2 hq), fun hq => h.stays (mt hiff.1 hq)⟩

/-- A branch jumps if the condition register satisfies its condition. -/
theorem jumpsIff_of_is (h : branch.Is "VSP" (.conditionAddress c mode o)) (m : Machine) :
    m.JumpsIff branch (m.condition.satisfies c = true) := by
  have hrun := execute_of_is h .branch (by decide) m
  constructor
  · intro htaken
    obtain ⟨i, operands⟩ := branch
    obtain rfl : operands = .conditionAddress c mode o := h.operands_eq
    refine ⟨_, _, target_run h.inRange rfl m, ?_⟩
    rw [hrun, effect]
    simp only [Operands.condition?, Option.any_some, htaken, if_true]
  · intro hpassed
    rw [hrun, effect]
    simp only [Operands.condition?, Option.any_some, hpassed, if_false]

end Machine

/-- After a comparison of two registers, a branch jumps exactly if the relation of its condition holds between
the numbers in them. After a subtraction it does so if that relation holds between the difference and zero, the
difference being taken with the opposite sign where it is out of range. -/
theorem branch_on_comparison {x y : Int} {c : Condition} {mode : AddressingMode} {o : Operand}
    {compare subtract branch : Command} (hcompare : compare.Is "VGL" (.registers x y))
    (hsubtract : subtract.Is "AFT" (.registers x y))
    (hbranch : branch.Is "VSP" (.conditionAddress c mode o)) (m : Machine) :
    let a := (m.register x).signed
    let b := (m.register y).signed
    (∃ m', (Machine.execute .standard compare).run m = .ok () m' ∧
      m'.JumpsIff branch (c.Relates a b)) ∧
    ∃ m', (Machine.execute .standard subtract).run m = .ok () m' ∧
      m'.JumpsIff branch
        (c.Relates (if -5000000000 ≤ a - b ∧ a - b < 5000000000 then a - b else -(a - b)) 0) := by
  intro a b
  constructor
  · refine ⟨_, Machine.execute_of_is hcompare .compare (by decide) m, ?_⟩
    exact (Machine.jumpsIff_of_is hbranch _).congr (Sign.satisfies_ofComparison c a b)
  · refine ⟨_, Machine.execute_of_is hsubtract (.arithmetic .subtract) (by decide) m, ?_⟩
    refine (Machine.jumpsIff_of_is hbranch _).congr ?_
    rw [← Sign.satisfies_ofComparison]
    have hsign := Word.ofWord_subtract (by decide) (m.register x) (m.register y)
    exact Eq.congr_left (congrArg (Sign.satisfies · c) hsign)

/-- The greatest machine word is greater than the least one, and the comparison says so. Their difference reads
as `-1`, and the same branch passes. -/
theorem branch_on_comparison_of_extremes :
    ∃ compare subtract branch : Command, compare.Is "VGL" (.registers 1 2) ∧
      subtract.Is "AFT" (.registers 1 2) ∧
      branch.Is "VSP" (.conditionAddress .positive .direct ⟨100, none⟩) ∧
      ∃ m m₁ m₂ m₃ : Machine, (m.register 1).signed = 4999999999 ∧ (m.register 2).signed = -5000000000 ∧
        (Machine.execute .standard compare).run m = .ok () m₁ ∧
        (Machine.execute .standard branch).run m₁ = .ok () m₂ ∧ m₂.pc = Word.wrap 100 ∧
        (Machine.execute .standard subtract).run m = .ok () m₃ ∧
        (Machine.execute .standard branch).run m₃ = .ok () m₃ ∧ m₃.pc = Word.zero := by
  let compare : Command :=
    ⟨⟨"VGL", .ofList [.registers, .registerAddress], false, .coded 31 .compare none⟩, .registers 1 2⟩
  let subtract : Command :=
    ⟨⟨"AFT", .ofList [.registers, .registerAddress], false, .coded 22 (.arithmetic .subtract) none⟩,
      .registers 1 2⟩
  let branch : Command :=
    ⟨⟨"VSP", .ofList [.conditionAddress], true, .coded 33 .branch none⟩,
      .conditionAddress .positive .direct ⟨100, none⟩⟩
  let m : Machine :=
    (Machine.empty.setRegister 1 (Word.wrap 4999999999)).setRegister 2 (Word.wrap (-5000000000))
  have hcompare : compare.Is "VGL" (.registers 1 2) := ⟨by decide, rfl, rfl⟩
  have hsubtract : subtract.Is "AFT" (.registers 1 2) := ⟨by decide, rfl, rfl⟩
  have hbranch : branch.Is "VSP" (.conditionAddress .positive .direct ⟨100, none⟩) :=
    ⟨by decide, rfl, rfl⟩
  have hfirst : (m.register 1).signed = 4999999999 := by decide
  have hsecond : (m.register 2).signed = -5000000000 := by decide
  obtain ⟨⟨m₁, hrun₁, hcompared⟩, m₃, hrun₃, hsubtracted⟩ :=
    branch_on_comparison hcompare hsubtract hbranch m
  rw [hfirst, hsecond] at hcompared hsubtracted
  have hgreater : (4999999999 : Int) > -5000000000 := by decide
  obtain ⟨a, m', htarget, hrun₂⟩ := hcompared.jumps hgreater
  have haddress : a = Word.wrap 100 := by
    cases hrun₁.symm.trans (Machine.execute_of_is hcompare .compare (by decide) m)
    cases htarget.symm.trans (Machine.target_run hbranch.inRange rfl _)
    decide
  have hpc : m₃.pc = Word.zero := by
    cases hrun₃.symm.trans (Machine.execute_of_is hsubtract (.arithmetic .subtract) (by decide) m)
    rfl
  have hpassed : ¬(-(4999999999 - -5000000000) : Int) > 0 := by decide
  exact ⟨compare, subtract, branch, hcompare, hsubtract, hbranch, m, m₁, _, m₃, hfirst, hsecond, hrun₁,
    hrun₂, haddress, hrun₃, hsubtracted.stays hpassed, hpc⟩

end Drama
