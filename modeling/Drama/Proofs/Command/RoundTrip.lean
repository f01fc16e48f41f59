-- SUMMARY: Decoding undoes encoding up to a normal form of the command.
import Drama.Proofs.Command.Encoding

/-!
# From commands to words and back

A word keeps four digits of the base of an operand, and it has one form for two registers and for a
register with the value of an unmodified index register. `Command.normalForm` is the command that comes
back from a word.
-/

namespace Drama

/-! ## Normal forms -/

/-- The operand with its base cut down to the four digits of an address, read with their sign. -/
def Operand.narrow (o : Operand) : Operand := ⟨(Word.wrap o.base : AddressWord).signed, o.index⟩

namespace Operands

def narrow : Operands → Operands
  | .address mode o => .address mode o.narrow
  | .registerAddress r mode o => .registerAddress r mode o.narrow
  | .conditionAddress c mode o => .conditionAddress c mode o.narrow
  | operands => operands

/-- The two registers that a register and the value of an unmodified index register amount to in a word,
which is so if the base leaves no digits there. -/
def registerPair? : Operands → Option (Int × Int)
  | .registerAddress r .value ⟨base, some ⟨s, none⟩⟩ =>
    if (addressSpace : Int) ∣ base then some (r, s) else none
  | _ => none

/-- Operands amount to a pair of registers in value mode only. -/
theorem registerPair?_eq_some_iff {r r' s : Int} {mode : AddressingMode} {o : Operand} :
    (registerAddress r mode o).registerPair? = some (r', s) ↔
      r = r' ∧ mode = .value ∧ o.index = some ⟨s, none⟩ ∧ (addressSpace : Int) ∣ o.base := by
  constructor
  · intro h
    unfold registerPair? at h
    split at h
    · rename_i heq
      cases heq
      split at h
      · rename_i hdvd
        cases h
        exact ⟨rfl, rfl, rfl, hdvd⟩
      · cases h
    · cases h
  · rintro ⟨rfl, rfl, hindex, hdvd⟩
    obtain ⟨base, index⟩ := o
    cases hindex
    exact if_pos hdvd

theorem registerPair?_eq_none {r : Int} {mode : AddressingMode} {o : Operand}
    (h : ¬ ∃ s, (registerAddress r mode o).registerPair? = some (r, s)) :
    (registerAddress r mode o).registerPair? = none := by
  cases hpair : (registerAddress r mode o).registerPair? with
  | none => rfl
  | some pair =>
    obtain ⟨r', s⟩ := pair
    obtain ⟨rfl, -⟩ := registerPair?_eq_some_iff.1 hpair
    exact absurd ⟨s, hpair⟩ h

end Operands

/-- The command that comes back from the word of a native command. -/
def Command.normalForm (c : Command) : Command :=
  match c.instruction.shapes.contains .registers, c.operands.registerPair? with
  | true, some (r, s) => ⟨c.instruction, .registers r s⟩
  | _, _ => ⟨c.instruction, c.operands.narrow⟩

/-! ## Words with the fields of a command -/

/-- The opcode reads back from a word with the fields of operands. -/
theorem Operands.opcode_of_fields {operands : Operands} {opcode : Nat} {memoryOnly : Bool} {w : MachineWord}
    (hw : w.fields = operands.fields opcode memoryOnly) : Field.opcode.get w = opcode := by
  have hfield : Field.opcode.get w = operands.fields opcode memoryOnly .opcode := congrFun hw .opcode
  rw [hfield]
  cases operands <;> rfl

theorem AddressingMode.code_eq_value {mode : AddressingMode} :
    mode.code false = AddressingMode.value.code false ↔ mode = .value := by
  cases mode <;> decide

theorem Operand.indexingCode_eq_plain {o : Operand} :
    o.indexingCode = plainIndexCode ↔ ∃ s, o.index = some ⟨s, none⟩ := by
  obtain ⟨base, index⟩ := o
  cases index with
  | none => simp [indexingCode, noIndexCode, plainIndexCode]
  | some index =>
    obtain ⟨r, modification⟩ := index
    cases modification with
    | none => simp [indexingCode, Index.code]
    | some m => cases m <;> simp [indexingCode, Index.code, Modification.code, plainIndexCode]

namespace Word

theorem raw_wrap_eq_zero {base : Int} :
    (wrap base : AddressWord).raw = 0 ↔ (addressSpace : Int) ∣ base := by
  have h := raw_wrap (n := 4) base
  rw [Int.dvd_iff_emod_eq_zero]
  constructor
  · intro h₀
    rw [h₀] at h
    exact h.symm
  · intro h₀
    rw [show base % (tenPow 4 : Int) = 0 from h₀] at h
    exact Int.ofNat.inj h

theorem isRegisterPair_iff {w : MachineWord} :
    w.isRegisterPair = true ↔ Field.addressingMode.get w = AddressingMode.value.code false ∧
      Field.indexingMode.get w = plainIndexCode ∧ Field.address.get w = 0 := by
  simp only [isRegisterPair, Bool.and_eq_true, beq_iff_eq, and_assoc]

/-- A word with the digits of a register and an operand reads as two registers exactly if they amount to
such a pair. -/
theorem isRegisterPair_iff_exists {w : MachineWord} {o : Operand} {mode : AddressingMode}
    (hmode : Field.addressingMode.get w = mode.code false)
    (hindexing : Field.indexingMode.get w = o.indexingCode)
    (haddress : Field.address.get w = (wrap o.base : AddressWord).raw) (r : Int) :
    w.isRegisterPair = true ↔
      ∃ s, (Operands.registerAddress r mode o).registerPair? = some (r, s) := by
  rw [isRegisterPair_iff, hmode, hindexing, haddress, AddressingMode.code_eq_value,
    Operand.indexingCode_eq_plain, raw_wrap_eq_zero]
  simp only [Operands.registerPair?_eq_some_iff, true_and]
  constructor
  · rintro ⟨hvalue, ⟨s, hs⟩, hdvd⟩
    exact ⟨s, hvalue, hs, hdvd⟩
  · rintro ⟨s, hvalue, hs, hdvd⟩
    exact ⟨hvalue, ⟨s, hs⟩, hdvd⟩

end Word

/-! ## Decoding after encoding -/

theorem Instruction.unpackAddress_of_fields {i : Instruction} {w : MachineWord} {o : Operand}
    {mode : AddressingMode} {opcode register : Nat}
    (hw : w.fields = o.fields opcode mode i.memoryOnly register)
    (hmode : i.memoryOnly = true → mode.accessesMemory = true) (ho : o.InRange) :
    i.unpackAddress w = i.addressOperands register mode o.narrow := by
  have hregister : Field.register.get w = register := congrFun hw .register
  rw [unpackAddress_eq (Word.mode?_of_fields hw hmode) (Word.operand?_of_fields hw ho), hregister,
    Operand.narrow]

namespace Command

theorem normalForm_instruction (c : Command) : c.normalForm.instruction = c.instruction := by
  unfold normalForm
  split <;> rfl

theorem normalForm_of_not_registers {c : Command}
    (h : c.instruction.shapes.contains .registers = false) :
    c.normalForm = ⟨c.instruction, c.operands.narrow⟩ := by
  simp only [normalForm, h]

theorem normalForm_of_pair {c : Command} {r s : Int}
    (h : c.instruction.shapes.contains .registers = true)
    (hpair : c.operands.registerPair? = some (r, s)) :
    c.normalForm = ⟨c.instruction, .registers r s⟩ := by
  simp only [normalForm, h, hpair]

theorem normalForm_of_no_pair {c : Command} (h : c.operands.registerPair? = none) :
    c.normalForm = ⟨c.instruction, c.operands.narrow⟩ := by
  unfold normalForm
  rw [h]
  cases c.instruction.shapes.contains .registers <;> rfl

/-- The word that a command is packed into unpacks to its normal form. -/
theorem Valid.unpack {n : Command} (h : n.Valid) {opcode : Fin 100}
    (hcode : n.instruction.opcode? = some opcode) {w : MachineWord}
    (hw : w.fields = n.operands.fields opcode n.instruction.memoryOnly) :
    n.instruction.unpack w = .ok n.normalForm.operands := by
  cases h.regular with
  | plain => rfl
  | pairing _ hr hs =>
    have hpair : w.isRegisterPair = true := by
      refine Word.isRegisterPair_iff.2 ⟨?_, ?_, ?_⟩
      · exact congrFun hw .addressingMode
      · exact congrFun hw .indexingMode
      · exact congrFun hw .address
    have hfirst : Field.register.get w = _ := congrFun hw .register
    have hsecond : Field.indexRegister.get w = _ := congrFun hw .indexRegister
    rw [normalForm_of_no_pair rfl]
    simp only [Instruction.unpack, hpair, hfirst, hsecond, Operands.fields, Field.assign,
      hr.toNat_cast, hs.toNat_cast]
    rfl
  | @combining _ _ _ r _ _ _ hr ho =>
    have hunpack := Instruction.unpackAddress_of_fields hw nofun ho
    have hiff := Word.isRegisterPair_iff_exists (congrFun hw .addressingMode)
      (congrFun hw .indexingMode) (congrFun hw .address) r
    by_cases hpair : w.isRegisterPair = true
    · obtain ⟨s, hs⟩ := hiff.1 hpair
      obtain ⟨-, -, hindex, -⟩ := Operands.registerPair?_eq_some_iff.1 hs
      have hfirst : Field.register.get w = _ := congrFun hw .register
      have hsecond : Field.indexRegister.get w = _ := congrFun hw .indexRegister
      have hsr : IsRegister s := ho _ hindex
      rw [normalForm_of_pair rfl hs]
      simp only [Instruction.unpack, hpair, hfirst, hsecond, Operands.fields, Operand.fields,
        Field.assign, Operand.indexRegister, hindex, hr.toNat_cast, hsr.toNat_cast]
      rfl
    · have hnone := mt hiff.2 hpair
      rw [normalForm_of_no_pair (Operands.registerPair?_eq_none hnone)]
      simp only [Instruction.unpack, hpair, hunpack, Instruction.addressOperands, hr.toNat_cast]
      rfl
  | storing hmode hr ho =>
    have hunpack := Instruction.unpackAddress_of_fields hw (fun _ => hmode) ho
    rw [normalForm_of_not_registers rfl]
    show Instruction.unpackAddress _ w = _
    rw [hunpack, Instruction.addressOperands, hr.toNat_cast]
    rfl
  | jumping _ hmode ho =>
    rw [normalForm_of_not_registers rfl]
    exact Instruction.unpackAddress_of_fields hw (fun _ => hmode) ho
  | branching hmode ho =>
    have hunpack := Instruction.unpackAddress_of_fields hw (fun _ => hmode) ho
    rw [normalForm_of_not_registers rfl]
    show Instruction.unpackAddress _ w = _
    rw [hunpack, Instruction.addressOperands, Condition.ofCode?_code]
    rfl
  | stacking => cases hcode

/-- A word with the fields of a native command decodes to its normal form. -/
theorem Valid.decode {n : Command} (h : n.Valid) {opcode : Fin 100}
    (hcode : n.instruction.opcode? = some opcode) {w : MachineWord}
    (hw : w.fields = n.operands.fields opcode n.instruction.memoryOnly) :
    InstructionSet.standard.decode w = .ok n.normalForm := by
  have hfound : InstructionSet.standard.withOpcode? (Field.opcode.get w) = some n.instruction := by
    rw [Operands.opcode_of_fields hw]
    exact InstructionSet.withOpcode?_of_mem h.standard hcode
  rw [InstructionSet.decode_eq hfound (h.unpack hcode hw), ← n.normalForm_instruction]

/-- A valid command is packed like its native form, and its word decodes to the normal form of that. -/
theorem Valid.exists_encode {c : Command} (h : c.Valid) :
    ∃ (n : Command) (w : MachineWord), c.native .standard = .ok n ∧ n.Valid ∧
      c.encode .standard = .ok w ∧ InstructionSet.standard.decode w = .ok n.normalForm := by
  obtain ⟨n, hnative, hvalid, hcoded⟩ := h.exists_native
  obtain ⟨opcode, hopcode⟩ := Option.isSome_iff_exists.1 hcoded
  obtain ⟨w, hw, hfields⟩ := Instruction.pack_ok hopcode hvalid.inRange
  refine ⟨n, w, hnative, hvalid, ?_, hvalid.decode hopcode hfields⟩
  rw [encode, hnative]
  exact hw

end Command

/-- Every command that resolution builds of a standard instruction can be encoded, and decoding its word
gives the normal form of the native command. -/
theorem decode_encode_of_resolve {i : Instruction} (hi : i ∈ InstructionSet.standard.entries)
    {mode : Option AddressingMode} {arguments : List Argument}
    (hargs : ∀ a ∈ arguments, a.InRange) {c : Command} (h : i.resolve mode arguments = .ok c) :
    ∃ (n : Command) (w : MachineWord), c.native .standard = .ok n ∧ c.encode .standard = .ok w ∧
      InstructionSet.standard.decode w = .ok n.normalForm := by
  obtain ⟨-, hvalid⟩ := Instruction.resolve_valid hi hargs h
  obtain ⟨n, w, hnative, -, hencode, hdecode⟩ := hvalid.exists_encode
  exact ⟨n, w, hnative, hencode, hdecode⟩

/-- The value of a plain index register comes back as the register itself. -/
theorem decode_encode_of_plain_index :
    ∃ i ∈ InstructionSet.standard.entries, ∃ c,
      i.resolve (some .value) [.register 1, .operand ⟨20000, some ⟨2, none⟩⟩] = .ok c ∧
      ∃ w : MachineWord, c.encode .standard = .ok w ∧
        InstructionSet.standard.decode w = .ok ⟨i, .registers 1 2⟩ := by
  have hresolve : Instruction.resolve
      ⟨"HIA", .ofList [.registers, .registerAddress], false, .coded 11 .load none⟩ (some .value)
      [.register 1, .operand ⟨20000, some ⟨2, none⟩⟩] = .ok _ := rfl
  obtain ⟨n, w, hnative, hencode, hdecode⟩ :=
    decode_encode_of_resolve (by decide) (by decide) hresolve
  cases hnative
  exact ⟨_, by decide, _, hresolve, w, hencode, hdecode⟩

end Drama
