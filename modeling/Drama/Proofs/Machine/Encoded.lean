-- SUMMARY: Executing a command and executing the word that it is encoded as come to the same, but for large values.
import Drama.Proofs.Machine.Execution

/-!
# Executing encoded commands

A word keeps the base of an operand modulo the number of addresses. That is all an address depends on, so
the word of a command does what the command does. Only the value of an operand has more digits: it is kept
exactly if the base is congruent, as a machine word, to what the four digits of an address read as.
-/

namespace Drama

/-- Whether the base of an operand is the same ten digits once it has been cut down to four. -/
def Operand.KeepsBase (o : Operand) : Prop :=
  o.base ≡ (Word.wrap o.base : AddressWord).signed [ZMOD (tenPow 10 : Int)]

namespace Operands

/-- Whether a word keeps the value that the operands stand for, if they stand for one. -/
def KeepsValue (operands : Operands) : Prop :=
  operands.mode? = some .value → ∀ o ∈ operands.operand?, o.KeepsBase

theorem register?_narrow (operands : Operands) : operands.narrow.register? = operands.register? := by
  cases operands <;> rfl

theorem condition?_narrow (operands : Operands) :
    operands.narrow.condition? = operands.condition? := by
  cases operands <;> rfl

end Operands

/-- A base that leaves no digits in a word is read back as zero. -/
theorem Operand.narrow_of_dvd {base : Int} (h : (addressSpace : Int) ∣ base) (index : Option Index) :
    Operand.narrow ⟨base, index⟩ = ⟨0, index⟩ := by
  have hraw := Word.raw_wrap_eq_zero.2 h
  simp only [narrow, Word.signed, hraw]
  rfl

namespace Command

/-- The native form keeps its value where the command does, since an expansion has no value to keep. -/
theorem Valid.native_keepsValue {c n : Command} (h : c.Valid) (hnative : c.native .standard = .ok n)
    (hkeeps : c.operands.KeepsValue) : n.operands.KeepsValue := by
  cases h.regular with
  | stacking hfind _ hshapes =>
    rw [native_stacking hfind hshapes] at hnative
    cases hnative
    intro hmode
    cases hmode
  | plain | pairing | combining | storing | jumping | branching =>
    cases hnative
    exact hkeeps

/-- A valid command with an operation of its own is native. -/
theorem Valid.native_eq_of_operation {c n : Command} (h : c.Valid) {operation : Operation}
    (hoperation : c.instruction.form.operation? = some operation)
    (hnative : c.native .standard = .ok n) : c = n := by
  cases h.regular with
  | stacking => cases hoperation
  | plain | pairing | combining | storing | jumping | branching =>
    cases hnative
    rfl

end Command

namespace Machine

/-! ## Narrow operands -/

theorem sum_narrow_iff (m : Machine) (o : Operand) :
    m.sum o.narrow = m.sum o ↔ o.KeepsBase := by
  rw [sum, sum, Word.wrap_eq_iff]
  constructor
  · intro h
    exact (Int.ModEq.add_right_cancel' _ h).symm
  · intro h
    exact h.symm.add_right _

theorem toAddress_sum_narrow (m : Machine) (o : Operand) :
    (m.sum o.narrow).toAddress = (m.sum o).toAddress :=
  Word.toAddress_wrap_eq ((Word.signed_wrap_modEq o.base).add_right _)

theorem valueOf_narrow (m : Machine) {mode : AddressingMode} {o : Operand}
    (h : mode = .value → o.KeepsBase) :
    m.valueOf mode o.narrow = m.valueOf mode o := by
  cases mode with
  | value => exact (m.sum_narrow_iff o).2 (h rfl)
  | address | direct | indirect => simp only [valueOf, toAddress_sum_narrow]

theorem addressOf_narrow (m : Machine) (mode : AddressingMode) (o : Operand) :
    m.addressOf mode o.narrow = m.addressOf mode o := by
  simp only [addressOf, toAddress_sum_narrow]

theorem lastValue_narrow (m : Machine) {operands : Operands} (h : operands.KeepsValue) :
    m.lastValue operands.narrow = m.lastValue operands := by
  cases operands with
  | nullary | register | registers => rfl
  | address | registerAddress | conditionAddress =>
    exact m.valueOf_narrow fun hmode => h (congrArg some hmode) _ rfl

theorem lastAddress_narrow (m : Machine) (operands : Operands) :
    m.lastAddress operands.narrow = m.lastAddress operands := by
  cases operands with
  | nullary | register | registers => rfl
  | address | registerAddress | conditionAddress => exact m.addressOf_narrow _ _

theorem lookUp_narrow (m : Machine) (operands : Operands) :
    m.lookUp operands.narrow = m.lookUp operands := by
  cases operands <;> rfl

theorem effect_narrow (m : Machine) (operation : Operation) {operands : Operands}
    (h : operands.KeepsValue) : m.effect operation operands.narrow = m.effect operation operands := by
  simp only [effect, Operands.register?_narrow, Operands.condition?_narrow, lastValue_narrow _ h,
    lastAddress_narrow, lookUp_narrow]

/-! ## Pairs of registers -/

/-- The value of an unmodified index register is the word in the register. -/
theorem valueOf_plain_index (m : Machine) (s : Int) :
    m.valueOf .value ⟨0, some ⟨s, none⟩⟩ = m.register s := by
  simp only [valueOf, sum, indexValue, Int.zero_add, Word.wrap_signed]

theorem effect_pair (m : Machine) {operation : Operation} (h : operation.takesValue)
    {operands : Operands} {r s : Int} (hpair : operands.registerPair? = some (r, s)) :
    m.effect operation (.registers r s) = m.effect operation operands.narrow := by
  unfold Operands.registerPair? at hpair
  split at hpair
  · split at hpair
    · rename_i hdvd
      cases hpair
      cases operation with
      | load | arithmetic | compare =>
        simp only [effect, Operands.narrow, Operand.narrow_of_dvd hdvd, lastValue,
          valueOf_plain_index]
        rfl
      | store | jump | branch | call | ret | read | print | halt => cases h
    · cases hpair
  · cases hpair

/-- What comes back from a word does what the command does with its base cut down. -/
theorem executed_normalForm (m : Machine) {c : Command}
    (h : c.instruction ∈ InstructionSet.standard.entries) :
    m.executed c.normalForm = m.executed ⟨c.instruction, c.operands.narrow⟩ := by
  obtain ⟨i, operands⟩ := c
  cases hpair : operands.registerPair? with
  | none => rw [Command.normalForm_of_no_pair hpair]
  | some pair =>
    cases hregisters : i.shapes.contains .registers with
    | false => rw [Command.normalForm_of_not_registers hregisters]
    | true =>
      rw [Command.normalForm_of_pair hregisters hpair]
      cases InstructionSet.regular_of_mem h with
      | combining hop => exact m.effect_pair hop hpair
      | plain | storing | jumping | branching | stacking => simp at hregisters

theorem executed_narrow (m : Machine) {c : Command} (h : c.operands.KeepsValue) :
    m.executed ⟨c.instruction, c.operands.narrow⟩ = m.executed c := by
  unfold executed
  cases c.instruction.form with
  | coded _ operation => exact m.effect_narrow operation h
  | derived => rfl

/-! ## Values that a word does not keep -/

/-- A load of a value that its word does not keep puts another word into the register than the load that
comes back from the word. -/
theorem register_executed_ne (m : Machine) {c : Command} (h : c.Valid)
    (hload : c.instruction.form.operation? = some .load) (hkeeps : ¬ c.operands.KeepsValue) :
    ∃ r, c.operands.register? = some r ∧ IsRegister r ∧
      (m.executed c).register r ≠ (m.executed c.normalForm).register r := by
  rw [m.executed_normalForm h.standard]
  cases h.regular with
  | plain | pairing | stacking => exact absurd nofun hkeeps
  | @combining _ _ _ r mode o _ hr =>
    cases hload
    obtain rfl : mode = .value := by
      by_contra hmode
      exact hkeeps fun hvalue => absurd (Option.some.inj hvalue) hmode
    refine ⟨r, rfl, hr, fun hsame => hkeeps ?_⟩
    have hsum : m.sum o = m.sum o.narrow := by
      simpa only [executed, effect, Operands.narrow, Operands.register?, Option.getD_some, lastValue,
        valueOf, register_loadRegister] using hsame
    rintro - _ ⟨⟩
    exact (m.sum_narrow_iff o).1 hsum.symm
  | storing => cases hload
  | jumping hop =>
    cases hload
    cases hop
  | branching => cases hload

end Machine

theorem InstructionSet.operation?_of_load {i : Instruction} (h : i ∈ standard.entries)
    (hmnemonic : i.mnemonic = "HIA") : i.form.operation? = some .load := by
  have htable : ∀ i ∈ standard.entries, i.mnemonic = "HIA" → i.form.operation? = some .load := by
    decide
  exact htable i h hmnemonic

/-- Executing a command that resolution builds of a standard instruction and executing what its word
decodes to leave the same machine, if the word keeps the value of the command. If it does not, the two
load different words. -/
theorem execute_decode_encode {i : Instruction} (hi : i ∈ InstructionSet.standard.entries)
    {mode : Option AddressingMode} {arguments : List Argument}
    (hargs : ∀ a ∈ arguments, a.InRange) {c : Command} (h : i.resolve mode arguments = .ok c) :
    ∃ (w : MachineWord) (c' : Command), c.encode .standard = .ok w ∧
      InstructionSet.standard.decode w = .ok c' ∧
      (c.operands.KeepsValue → ∀ m : Machine, ∃ m' : Machine,
        (Machine.execute .standard c).run m = .ok () m' ∧
        (Machine.execute .standard c').run m = .ok () m') ∧
      (¬ c.operands.KeepsValue → i.mnemonic = "HIA" → ∀ m : Machine, ∃ r m₁ m₂,
        c.operands.register? = some r ∧ IsRegister r ∧
        (Machine.execute .standard c).run m = .ok () m₁ ∧
        (Machine.execute .standard c').run m = .ok () m₂ ∧
        m₁.register r ≠ m₂.register r) := by
  obtain ⟨rfl, hvalid⟩ := Instruction.resolve_valid hi hargs h
  obtain ⟨n, w, hnative, hn, hencode, hdecode⟩ := hvalid.exists_encode
  have hrun := Machine.execute_run hvalid hnative
  have hrun' := Machine.execute_of_decode hdecode
  refine ⟨w, n.normalForm, hencode, hdecode, fun hkeeps m => ?_, fun hkeeps hmnemonic m => ?_⟩
  · refine ⟨m.executed n, hrun m, ?_⟩
    rw [hrun' m, m.executed_normalForm hn.standard,
      m.executed_narrow (hvalid.native_keepsValue hnative hkeeps)]
  · have hload := InstructionSet.operation?_of_load hi hmnemonic
    obtain rfl : c = n := hvalid.native_eq_of_operation hload hnative
    obtain ⟨r, hr, hrange, hne⟩ := m.register_executed_ne hvalid hload hkeeps
    exact ⟨r, _, _, hr, hrange, hrun m, hrun' m, hne⟩

/-- The number 5000 is read back as -5000. -/
theorem execute_decode_encode_of_large_value :
    ∃ i ∈ InstructionSet.standard.entries, ∃ c,
      i.resolve (some .value) [.register 1, .operand ⟨5000, none⟩] = .ok c ∧
      ∃ (w : MachineWord) (c' : Command), c.encode .standard = .ok w ∧
        InstructionSet.standard.decode w = .ok c' ∧ ∀ m : Machine, ∃ m₁ m₂,
          (Machine.execute .standard c).run m = .ok () m₁ ∧
          (Machine.execute .standard c').run m = .ok () m₂ ∧ m₁.register 1 ≠ m₂.register 1 := by
  have hresolve : Instruction.resolve
      ⟨"HIA", .ofList [.registers, .registerAddress], false, .coded 11 .load none⟩ (some .value)
      [.register 1, .operand ⟨5000, none⟩] = .ok _ := rfl
  obtain ⟨w, c', hencode, hdecode, -, hdiffers⟩ :=
    execute_decode_encode (by decide) (by decide) hresolve
  refine ⟨_, by decide, _, hresolve, w, c', hencode, hdecode, fun m => ?_⟩
  have hkeeps : ¬ (Operands.registerAddress 1 .value ⟨5000, none⟩).KeepsValue := by
    intro h
    have hbase : (5000 : Int) ≡ -5000 [ZMOD (tenPow 10 : Int)] := h rfl _ rfl
    exact absurd hbase (by decide)
  obtain ⟨r, m₁, m₂, hr, -, hrun₁, hrun₂, hne⟩ := hdiffers hkeeps rfl m
  cases hr
  exact ⟨m₁, m₂, hrun₁, hrun₂, hne⟩

end Drama
