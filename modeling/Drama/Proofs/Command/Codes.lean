-- SUMMARY: The digits that stand for modes, indexing and conditions in a command word, and how they read back.
import Drama.Command.Encoding
import Drama.Proofs.Command.Resolution

/-!
# Codes

Modes, ways of indexing and conditions are written as single digits of a command word. Each digit that
is written reads back as what it stands for, and the digits that read back at all are consecutive.
-/

namespace Drama

namespace AddressingMode

theorem code_lt (mode : AddressingMode) (memoryOnly : Bool) : mode.code memoryOnly < 10 := by
  cases mode <;> cases memoryOnly <;> decide

theorem ofCode?_code {mode : AddressingMode} {memoryOnly : Bool}
    (h : memoryOnly = true → mode.accessesMemory = true) :
    ofCode? (mode.code memoryOnly) memoryOnly = some mode := by
  cases memoryOnly with
  | false => cases mode <;> rfl
  | true =>
    cases mode with
    | value | address => cases h rfl
    | direct | indirect => rfl

theorem of_ofCode? {mode : AddressingMode} {memoryOnly : Bool} {code : Nat}
    (h : ofCode? code memoryOnly = some mode) :
    mode.code memoryOnly = code ∧ (memoryOnly = true → mode.accessesMemory = true) := by
  unfold ofCode? at h
  split at h <;> cases h <;> refine ⟨?_, by decide⟩ <;> rename_i hcode <;>
    exact (Int.ofNat.inj hcode).symm

/-- The digits of modes are consecutive, and fewer where an instruction only accesses memory. -/
theorem exists_ofCode?_iff (code : Nat) (memoryOnly : Bool) :
    (∃ mode, ofCode? code memoryOnly = some mode) ↔
      if memoryOnly then 2 ≤ code ∧ code ≤ 3 else 1 ≤ code ∧ code ≤ 4 := by
  constructor
  · rintro ⟨mode, h⟩
    obtain ⟨rfl, haccess⟩ := of_ofCode? h
    cases memoryOnly with
    | false => cases mode <;> decide
    | true =>
      cases mode with
      | value | address => cases haccess rfl
      | direct | indirect => decide
  · intro h
    cases memoryOnly with
    | false =>
      obtain rfl | rfl | rfl | rfl : code = 1 ∨ code = 2 ∨ code = 3 ∨ code = 4 := by
        simp only [Bool.false_eq_true, if_false] at h
        omega
      · exact ⟨.value, rfl⟩
      · exact ⟨.address, rfl⟩
      · exact ⟨.direct, rfl⟩
      · exact ⟨.indirect, rfl⟩
    | true =>
      obtain rfl | rfl : code = 2 ∨ code = 3 := by
        simp only [if_true] at h
        omega
      · exact ⟨.direct, rfl⟩
      · exact ⟨.indirect, rfl⟩

end AddressingMode

namespace Condition

theorem code_lt (c : Condition) : c.code < 10 := by cases c <;> decide

theorem ofCode?_code (c : Condition) : ofCode? c.code = some c := by cases c <;> rfl

theorem code_of_ofCode? {c : Condition} {code : Nat} (h : ofCode? code = some c) :
    c.code = code := by
  have hfound := List.find?_some h
  exact Int.ofNat.inj (beq_iff_eq.1 hfound)

theorem exists_ofCode?_iff (code : Nat) :
    (∃ c, ofCode? code = some c) ↔ 1 ≤ code ∧ code ≤ 6 := by
  constructor
  · rintro ⟨c, h⟩
    rw [← code_of_ofCode? h]
    cases c <;> decide
  · intro h
    obtain rfl | rfl | rfl | rfl | rfl | rfl :
        code = 1 ∨ code = 2 ∨ code = 3 ∨ code = 4 ∨ code = 5 ∨ code = 6 := by omega
    · exact ⟨.zero, rfl⟩
    · exact ⟨.positive, rfl⟩
    · exact ⟨.negative, rfl⟩
    · exact ⟨.nonzero, rfl⟩
    · exact ⟨.nonpositive, rfl⟩
    · exact ⟨.nonnegative, rfl⟩

end Condition

theorem Modification.code_lt (m : Modification) : m.code < 10 := by cases m <;> decide

theorem Modification.of_ofCode? {m : Modification} {code : Nat} (h : ofCode? code = some m) :
    m.code = code ∧ 3 ≤ code ∧ code ≤ 6 := by
  unfold ofCode? at h
  split at h <;> cases h <;> rename_i hcode <;> cases Int.ofNat.inj hcode <;> decide

theorem Index.code_lt (i : Index) : i.code < 10 := by
  unfold code
  split
  · decide
  · exact Modification.code_lt _

namespace Operand

theorem indexingCode_lt (o : Operand) : o.indexingCode < 10 := by
  unfold indexingCode
  split
  · decide
  · exact Index.code_lt _

theorem indexRegister_isRegister {o : Operand} (h : o.InRange) : IsRegister o.indexRegister := by
  obtain ⟨base, index⟩ := o
  cases index with
  | none =>
    show IsRegister 0
    decide
  | some index => exact h index rfl

theorem ofCode?_indexingCode (o : Operand) (base : Int) :
    ofCode? base o.indexRegister o.indexingCode = some ⟨base, o.index⟩ := by
  obtain ⟨_, index⟩ := o
  cases index with
  | none => rfl
  | some index =>
    obtain ⟨r, modification⟩ := index
    cases modification with
    | none => rfl
    | some modification => cases modification <;> rfl

/-- An operand that was read from digits has these digits, but for the register where it has no index. -/
theorem of_ofCode? {o : Operand} {base register : Int} {code : Nat}
    (h : ofCode? base register code = some o) :
    o.base = base ∧ o.indexingCode = code ∧
      o.indexRegister = (if code = noIndexCode then 0 else register) ∧ 1 ≤ code ∧ code ≤ 6 ∧
      ∀ index ∈ o.index, index.register = register := by
  unfold ofCode? at h
  split_ifs at h with hnone hplain
  · cases h
    cases Int.ofNat.inj hnone
    exact ⟨rfl, rfl, rfl, by decide, by decide, nofun⟩
  · cases h
    cases Int.ofNat.inj hplain
    refine ⟨rfl, rfl, rfl, by decide, by decide, fun index hindex => ?_⟩
    cases hindex
    rfl
  · obtain ⟨m, hm, rfl⟩ := Option.map_eq_some_iff.1 h
    obtain ⟨hcode, hlow, hhigh⟩ := Modification.of_ofCode? hm
    refine ⟨rfl, hcode, (if_neg (by simp only [noIndexCode]; omega)).symm, by omega, hhigh,
      fun index hindex => ?_⟩
    cases hindex
    rfl

theorem exists_ofCode?_iff (base register : Int) (code : Nat) :
    (∃ o, ofCode? base register code = some o) ↔ 1 ≤ code ∧ code ≤ 6 := by
  constructor
  · rintro ⟨o, h⟩
    obtain ⟨-, -, -, hlow, hhigh, -⟩ := of_ofCode? h
    exact ⟨hlow, hhigh⟩
  · intro h
    obtain rfl | rfl | rfl | rfl | rfl | rfl :
        code = 1 ∨ code = 2 ∨ code = 3 ∨ code = 4 ∨ code = 5 ∨ code = 6 := by omega
    all_goals exact ⟨_, rfl⟩

end Operand

end Drama
