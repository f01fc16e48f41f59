-- SUMMARY: The six fields of a command word, seen all at once as a function from fields to numbers.
import Drama.Command.Field
import Drama.Proofs.Word.Digits
import Mathlib.Logic.Function.Basic

/-!
# The fields of a command word together

`Word.fields` is what a machine word says of each field. Setting a field updates that function at one
place, and a word is known once its fields are: the six fields cover its ten digits.
-/

namespace Drama

namespace Field

variable {f g : Field}

theorem disjoint_of_ne (h : f ≠ g) : f.range.Disjoint g.range := by
  revert h
  cases f <;> cases g <;> simp [DigitRange.Disjoint, range]

theorem get_lt (f : Field) (w : MachineWord) : f.get w < tenPow f.range.width := w.digits_lt f.range

theorem get_withDigits (f : Field) (w : MachineWord) {value : Nat}
    (h : value < tenPow f.range.width) : f.get (w.withDigits f.range value h) = value :=
  w.digits_withDigits f.range h

theorem get_withDigits_of_ne (hne : f ≠ g) (w : MachineWord) {value : Nat}
    (h : value < tenPow f.range.width) : g.get (w.withDigits f.range value h) = g.get w :=
  w.digits_withDigits_of_disjoint (disjoint_of_ne hne) h

end Field

namespace Word

/-- What a word says of each field. -/
def fields (w : MachineWord) : Field → Nat := fun f => f.get w

theorem fields_zero : (Word.zero : MachineWord).fields = fun _ => 0 := by
  funext f
  cases f <;> decide

theorem fields_withDigits (f : Field) (w : MachineWord) {value : Nat}
    (h : value < tenPow f.range.width) :
    (w.withDigits f.range value h).fields = Function.update w.fields f value := by
  funext g
  by_cases hg : g = f
  · subst hg
    rw [Function.update_self]
    exact g.get_withDigits w h
  · rw [Function.update_of_ne hg]
    exact Field.get_withDigits_of_ne (Ne.symm hg) w h

/-- The fields leave no digit of a word open. -/
theorem fields_injective {w v : MachineWord} (h : w.fields = v.fields) : w = v := by
  have hw : w.raw < 10 ^ 10 := w.raw_lt
  have hv : v.raw < 10 ^ 10 := v.raw_lt
  have hf (f : Field) : f.get w = f.get v := congrFun h f
  have h₁ : w.raw / 10 ^ 8 % 10 ^ 2 = v.raw / 10 ^ 8 % 10 ^ 2 := hf .opcode
  have h₂ : w.raw / 10 ^ 7 % 10 ^ 1 = v.raw / 10 ^ 7 % 10 ^ 1 := hf .addressingMode
  have h₃ : w.raw / 10 ^ 6 % 10 ^ 1 = v.raw / 10 ^ 6 % 10 ^ 1 := hf .indexingMode
  have h₄ : w.raw / 10 ^ 5 % 10 ^ 1 = v.raw / 10 ^ 5 % 10 ^ 1 := hf .register
  have h₅ : w.raw / 10 ^ 4 % 10 ^ 1 = v.raw / 10 ^ 4 % 10 ^ 1 := hf .indexRegister
  have h₆ : w.raw / 10 ^ 0 % 10 ^ 4 = v.raw / 10 ^ 0 % 10 ^ 4 := hf .address
  exact Word.ext (by omega)

/-- The word with a zero in a field, if it is one of those to be cleared. -/
def clearField (cleared : Field → Bool) (w : MachineWord) (f : Field) : MachineWord :=
  if cleared f then w.withDigits f.range 0 (tenPow_pos _) else w

/-- The word with zeros in some of its fields. -/
def clear (w : MachineWord) (cleared : Field → Bool) : MachineWord :=
  Field.all.foldl (clearField cleared) w

theorem fields_clearField (cleared : Field → Bool) (w : MachineWord) (f g : Field) :
    (clearField cleared w f).fields g = if g = f ∧ cleared g = true then 0 else w.fields g := by
  rw [clearField]
  by_cases hg : g = f
  · subst hg
    by_cases hcleared : cleared g = true
    · simp [hcleared, fields_withDigits]
    · simp [hcleared]
  · split
    · simp [hg, fields_withDigits]
    · simp [hg]

private theorem fields_foldl_clearField (cleared : Field → Bool) (fs : List Field) (w : MachineWord)
    (g : Field) :
    (fs.foldl (clearField cleared) w).fields g =
      if g ∈ fs ∧ cleared g = true then 0 else w.fields g := by
  induction fs generalizing w with
  | nil => simp
  | cons f fs ih =>
    rw [List.foldl_cons, ih, fields_clearField]
    by_cases hcleared : cleared g = true
    · by_cases hg : g = f
      · subst hg
        simp [hcleared]
      · simp [hcleared, hg]
    · simp [hcleared]

theorem fields_clear (w : MachineWord) (cleared : Field → Bool) (f : Field) :
    (w.clear cleared).fields f = if cleared f then 0 else w.fields f := by
  have hmem : f ∈ Field.all := by cases f <;> decide
  rw [clear, fields_foldl_clearField]
  simp only [hmem, true_and]

end Word

/-- Setting a field to a number that fits in it succeeds and changes nothing else. -/
theorem Field.set_ok (f : Field) (w : MachineWord) (value : Nat)
    (h : value < tenPow f.range.width) :
    ∃ w' : MachineWord, f.set value w = .ok w' ∧ w'.fields = Function.update w.fields f value := by
  exact ⟨w.withDigits f.range value h, w.replaceDigits_eq_ok f.range h, w.fields_withDigits f h⟩

end Drama
