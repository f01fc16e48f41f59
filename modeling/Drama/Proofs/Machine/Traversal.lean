-- SUMMARY: Operands that step their index register: the addresses they lead to in turn, and steps that take each other back.
import Drama.Proofs.Machine.Stack
import Drama.Proofs.Word.Arithmetic

/-!
# Traversal

An operand that steps its index register leads to the next address each time that it is evaluated. The register is
a word of ten digits and reads as negative in its upper half, the address has four digits; the addresses go up or
down by one all the same, since both wrap at multiples of `10 ^ 4`. A step after the use is taken back by the
opposite step before the next use, and the other way round.
-/

namespace Drama

/-- The opposite step on the other side of the use. -/
def Modification.mirrored : Modification → Modification
  | .preIncrement => .postDecrement
  | .postIncrement => .preDecrement
  | .preDecrement => .postIncrement
  | .postDecrement => .preIncrement

/-- The operand of a base and an index register that is stepped. -/
def Operand.stepping (base r : Int) (modification : Modification) : Operand :=
  ⟨base, some ⟨r, some modification⟩⟩

theorem Operand.inRange_stepping {r : Int} (hr : IsRegister r) (base : Int)
    (modification : Modification) : (stepping base r modification).InRange := by
  rintro index ⟨⟩
  exact hr

namespace Machine

/-- The addresses that an operand leads to when it is evaluated a number of times. -/
def destinations (mode : AddressingMode) (o : Operand) : (count : Nat) → MachineM (List AddressWord)
  | 0 => return []
  | count + 1 => do
    let a ← destination (some mode) o
    return a :: (← destinations mode o count)

/-! ## Registers -/

theorem setRegister_register (m : Machine) (r : Int) : m.setRegister r (m.register r) = m := by
  simp [setRegister, register]

theorem setRegister_setRegister (m : Machine) (r : Int) (w w' : MachineWord) :
    (m.setRegister r w).setRegister r w' = m.setRegister r w' := by
  simp [setRegister]

theorem stepWord_wrap (modification : Modification) (v : Int) :
    stepWord modification (Word.wrap v) = Word.wrap (v + modification.step) := by
  cases modification with
  | preIncrement | postIncrement =>
    exact (Word.incremented_eq_add _).trans (Word.add_wrap v 1)
  | preDecrement | postDecrement =>
    exact (Word.decremented_eq_subtract _).trans (Word.subtract_wrap v 1)

/-! ## Single evaluations -/

variable {m : Machine} {r : Int}

/-- The signed reading of an index register may differ from the number that was put into it, but only by a
multiple of the number of addresses. -/
theorem toAddress_sum_wrap (base v : Int) :
    (Word.wrap (base + (Word.wrap v : MachineWord).signed) : MachineWord).toAddress =
      Word.wrap (base + v) := by
  rw [Word.toAddress_wrap, Word.wrap_eq_iff]
  exact ((Word.signed_wrap_modEq v).of_dvd (by decide)).add_left base

/-- The address that the operand leads to after a number of evaluations, the register being at `v` before all of
them. -/
def nthAddress (base v : Int) (modification : Modification) (j : Nat) : AddressWord :=
  Word.wrap (base + v + modification.step * (if modification.isPre then j + 1 else j : Nat))

theorem nthAddress_succ (base v : Int) (modification : Modification) (j : Nat) :
    nthAddress base v modification (j + 1) = nthAddress base (v + modification.step) modification j := by
  unfold nthAddress
  apply congrArg
  split <;> push_cast <;> ring

theorem nthAddress_mirrored (base v : Int) (modification : Modification) :
    nthAddress base (v + modification.step) modification.mirrored 0 = nthAddress base v modification 0 := by
  unfold nthAddress
  apply congrArg
  cases modification <;>
    simp only [Modification.mirrored, Modification.step, Modification.isPre, if_true, if_false,
      Bool.false_eq_true] <;> omega

/-- One evaluation leads to the first address and leaves the register stepped. -/
theorem destination_stepping (hr : IsRegister r) (base : Int) (modification : Modification) {v : Int}
    (h : m.register r = Word.wrap v) :
    (destination (some .direct) (.stepping base r modification)).run m =
      .ok (nthAddress base v modification 0) (m.setRegister r (Word.wrap (v + modification.step))) := by
  have hindex : m.stepIndex (some ⟨r, some modification⟩) =
      m.setRegister r (Word.wrap (v + modification.step)) := by
    rw [stepIndex, h, stepWord_wrap]
  have haddress : m.addressOf .direct (.stepping base r modification) =
      nthAddress base v modification 0 := by
    rw [addressOf, if_neg (by decide), sum, nthAddress]
    simp only [Operand.stepping, indexValue, h, stepWord_wrap]
    split
    · rw [toAddress_sum_wrap, Int.add_assoc, Nat.zero_add, Int.natCast_one, Int.mul_one]
    · rw [toAddress_sum_wrap, Int.natCast_zero, Int.mul_zero, Int.add_zero]
  rw [destination_run (Operand.inRange_stepping hr base modification), haddress]
  exact congrArg _ hindex

/-! ## Evaluations in turn -/

/-- Evaluated a number of times, the operand leads to as many addresses in a row. -/
theorem destinations_stepping (hr : IsRegister r) (base : Int) (modification : Modification) (count : Nat)
    {v : Int} (h : m.register r = Word.wrap v) :
    (destinations .direct (.stepping base r modification) count).run m =
      .ok ((List.range count).map (nthAddress base v modification))
        (m.setRegister r (Word.wrap (v + modification.step * count))) := by
  induction count generalizing m v with
  | zero =>
    have hregister : m.setRegister r (Word.wrap (v + modification.step * (0 : Nat))) = m := by
      rw [Int.natCast_zero, Int.mul_zero, Int.add_zero, ← h, setRegister_register]
    rw [hregister]
    rfl
  | succ count ih =>
    have hrest := ih (m.register_setRegister r (Word.wrap (v + modification.step)))
    have hregister : v + modification.step + modification.step * count =
        v + modification.step * (count + 1 : Nat) := by
      push_cast
      ring
    have haddresses : (List.range (count + 1)).map (nthAddress base v modification) =
        nthAddress base v modification 0 ::
          (List.range count).map (nthAddress base (v + modification.step) modification) := by
      rw [List.range_succ_eq_map, List.map_cons, List.map_map]
      exact congrArg _ (List.map_congr_left fun j _ => nthAddress_succ base v modification j)
    rw [setRegister_setRegister, hregister] at hrest
    rw [destinations, run_bind (destination_stepping hr base modification h), run_bind hrest, haddresses]
    rfl

/-- A modification and then the mirrored one lead to one address and leave the machine as it was. -/
theorem destination_mirrored (hr : IsRegister r) (base : Int) (modification : Modification) (m : Machine) :
    ∃ a m', (destination (some .direct) (.stepping base r modification)).run m = .ok a m' ∧
      (destination (some .direct) (.stepping base r modification.mirrored)).run m' = .ok a m := by
  have h : m.register r = Word.wrap (m.register r).signed := (Word.wrap_signed _).symm
  have hback := destination_stepping hr base modification.mirrored
    (m.register_setRegister r (Word.wrap ((m.register r).signed + modification.step)))
  have hstep : (m.register r).signed + modification.step + modification.mirrored.step =
      (m.register r).signed := by
    cases modification <;> simp [Modification.mirrored, Modification.step]
  rw [hstep, ← h, setRegister_setRegister, setRegister_register, nthAddress_mirrored] at hback
  exact ⟨_, _, destination_stepping hr base modification h, hback⟩

end Machine

/-- An operand that steps its index register leads to as many addresses in a row as it is evaluated, up or down
from the base and the number in the register; the first one is that before the step or that after it. Nothing
but the register changes, which has moved by that many. An evaluation with the mirrored modification leads to the
same address once more and puts the register back. -/
theorem traversal_of_stepping {r : Int} (hr : IsRegister r) (base : Int) (modification : Modification)
    (m : Machine) :
    let o := Operand.stepping base r modification
    let v := (m.register r).signed
    (∀ count : Nat, ∃ m', (Machine.destinations .direct o count).run m =
        .ok ((List.range count).map fun j => Word.wrap
          (base + v + modification.step * (if modification.isPre then j + 1 else j : Nat))) m' ∧
      m'.register r = Word.wrap (v + modification.step * count) ∧
      (∀ s, IsRegister s → s ≠ r → m'.register s = m.register s) ∧
      m' = { m with registers := m'.registers }) ∧
    ∃ a m', (Machine.destination (some .direct) o).run m = .ok a m' ∧
      (Machine.destination (some .direct) (.stepping base r modification.mirrored)).run m' = .ok a m := by
  intro o v
  refine ⟨fun count => ?_, Machine.destination_mirrored hr base modification m⟩
  have hrun := Machine.destinations_stepping (m := m) hr base modification count (Word.wrap_signed _).symm
  refine ⟨_, hrun, m.register_setRegister r _, fun s hs hne => ?_, rfl⟩
  exact Machine.register_setRegister_of_ne hs hr hne _

/-- From the greatest word the register is stepped to the least one, while the addresses go on from 9999 to 0. The
step back before the next use leads to the last address again. -/
theorem traversal_of_stepping_across_sign :
    ∃ m m' : Machine, IsRegister 1 ∧ (m.register 1).signed = 4999999999 ∧
      (Machine.destinations .direct (.stepping 0 1 .postIncrement) 3).run m =
        .ok [Word.wrap 9999, Word.wrap 0, Word.wrap 1] m' ∧
      (m'.register 1).signed = -4999999998 ∧ m'.memory = m.memory ∧ m'.condition = m.condition ∧
      ∃ a m'', (Machine.destination (some .direct) (.stepping 0 1 .postIncrement)).run m' = .ok a m'' ∧
        (Machine.destination (some .direct) (.stepping 0 1 .preDecrement)).run m'' = .ok a m' := by
  have hr : IsRegister 1 := by decide
  let m : Machine := Machine.empty.setRegister 1 (Word.wrap 4999999999)
  have hsigned : (m.register 1).signed = 4999999999 := by decide
  obtain ⟨hturn, -⟩ := traversal_of_stepping hr 0 .postIncrement m
  obtain ⟨m', hrun, hregister, -, hrest⟩ := hturn 3
  obtain ⟨-, hback⟩ := traversal_of_stepping hr 0 .postIncrement m'
  rw [hsigned] at hrun hregister
  have haddresses : ((List.range 3).map fun j => Word.wrap
      (0 + 4999999999 + Modification.postIncrement.step *
        (if Modification.postIncrement.isPre then j + 1 else j : Nat)) : List AddressWord) =
      [Word.wrap 9999, Word.wrap 0, Word.wrap 1] := by decide
  rw [haddresses] at hrun
  refine ⟨m, m', hr, hsigned, hrun, ?_, ?_, ?_, hback⟩
  · rw [hregister]
    decide
  · rw [hrest]
  · rw [hrest]

end Drama
