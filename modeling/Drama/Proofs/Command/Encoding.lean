-- SUMMARY: What packing writes into each field of a word, and what unpacking reads from it.
import Drama.Proofs.Command.Codes
import Drama.Proofs.Command.Field
import Drama.Proofs.Word.Wrap

/-!
# Packing and unpacking by fields

`Operands.fields` says what the word of operands holds in each field, and packing makes a word with these
fields. Unpacking succeeds on a word if its fields read back as the parts that the instruction asks for.
-/

namespace Drama

/-! ## Packing -/

/-- The fields of a word one by one. -/
def Field.assign (opcode mode indexing register index address : Nat) : Field → Nat
  | .opcode => opcode
  | .addressingMode => mode
  | .indexingMode => indexing
  | .register => register
  | .indexRegister => index
  | .address => address

namespace Field

variable (opcode mode indexing register index address value : Nat)

theorem update_addressingMode :
    Function.update (assign opcode mode indexing register index address) .addressingMode value =
      assign opcode value indexing register index address := by
  funext f
  cases f <;> rfl

theorem update_indexingMode :
    Function.update (assign opcode mode indexing register index address) .indexingMode value =
      assign opcode mode value register index address := by
  funext f
  cases f <;> rfl

theorem update_register :
    Function.update (assign opcode mode indexing register index address) .register value =
      assign opcode mode indexing value index address := by
  funext f
  cases f <;> rfl

theorem update_indexRegister :
    Function.update (assign opcode mode indexing register index address) .indexRegister value =
      assign opcode mode indexing register value address := by
  funext f
  cases f <;> rfl

theorem update_address :
    Function.update (assign opcode mode indexing register index address) .address value =
      assign opcode mode indexing register index value := by
  funext f
  cases f <;> rfl

end Field

/-- The fields of an operand, beside those of the opcode and of the register. -/
def Operand.fields (o : Operand) (opcode : Nat) (mode : AddressingMode) (memoryOnly : Bool)
    (register : Nat) : Field → Nat :=
  Field.assign opcode (mode.code memoryOnly) o.indexingCode register o.indexRegister.toNat
    (Word.wrap o.base : AddressWord).raw

/-- The fields of the word that operands are packed into under an opcode. -/
def Operands.fields (opcode : Nat) (memoryOnly : Bool) : Operands → Field → Nat
  | .nullary => Field.assign opcode 0 0 0 0 0
  | .register r => Field.assign opcode 1 0 r.toNat 0 0
  | .registers r s => Field.assign opcode 1 plainIndexCode r.toNat s.toNat 0
  | .address mode o => o.fields opcode mode memoryOnly 0
  | .registerAddress r mode o => o.fields opcode mode memoryOnly r.toNat
  | .conditionAddress c mode o => o.fields opcode mode memoryOnly c.code

theorem IsRegister.toNat_lt {r : Int} (h : IsRegister r) : r.toNat < 10 := by
  obtain ⟨h₀, h₉⟩ := h
  omega

theorem IsRegister.toNat_cast {r : Int} (h : IsRegister r) : (r.toNat : Int) = r :=
  Int.toNat_of_nonneg h.1

/-- A computation that succeeds hands its result on. -/
theorem bind_of_eq_ok {ε α β : Type} {x : Except ε α} {a : α} (h : x = .ok a)
    (f : α → Except ε β) : (x >>= f) = f a := by
  rw [h]
  rfl

/-- A computation that succeeds does so in each of its steps. -/
theorem of_bind_eq_ok {ε α β : Type} {x : Except ε α} {f : α → Except ε β} {b : β}
    (h : (x >>= f) = .ok b) : ∃ a, x = .ok a ∧ f a = .ok b := by
  cases x with
  | error e => cases h
  | ok a => exact ⟨a, rfl, h⟩

theorem of_mapError_eq_ok {ε ε' α : Type} {x : Except ε α} {f : ε → ε'} {a : α}
    (h : x.mapError f = .ok a) : x = .ok a := by
  cases x with
  | error e => cases h
  | ok b => exact congrArg _ (Except.ok.inj h)

/-- Setting a digit to the number of a register. -/
theorem Field.set_register_ok (f : Field) (w : MachineWord) {r : Int} (hr : IsRegister r)
    (hf : f.range.width = 1) :
    ∃ w' : MachineWord, f.set r w = .ok w' ∧ w'.fields = Function.update w.fields f r.toNat := by
  have hlt : r.toNat < tenPow f.range.width := by
    rw [hf]
    exact hr.toNat_lt
  obtain ⟨w', h, hw⟩ := f.set_ok w r.toNat hlt
  rw [hr.toNat_cast] at h
  exact ⟨w', h, hw⟩

theorem Operand.pack_ok {o : Operand} (ho : o.InRange) (mode : AddressingMode)
    (memoryOnly : Bool) {opcode : Nat} {w : MachineWord}
    (hw : w.fields = Field.assign opcode 0 0 0 0 0) :
    ∃ w' : MachineWord, o.pack mode memoryOnly w = .ok w' ∧
      w'.fields = o.fields opcode mode memoryOnly 0 := by
  obtain ⟨w₁, h₁, hw₁⟩ := Field.addressingMode.set_ok w (mode.code memoryOnly)
    (mode.code_lt memoryOnly)
  obtain ⟨w₂, h₂, hw₂⟩ := Field.indexingMode.set_ok w₁ o.indexingCode o.indexingCode_lt
  obtain ⟨w₃, h₃, hw₃⟩ := Field.indexRegister.set_register_ok w₂ (indexRegister_isRegister ho) rfl
  obtain ⟨w₄, h₄, hw₄⟩ := Field.address.set_ok w₃ (Word.wrap o.base : AddressWord).raw
    (Word.wrap o.base : AddressWord).raw_lt
  refine ⟨w₄, ?_, ?_⟩
  · rw [pack, bind_of_eq_ok h₁, bind_of_eq_ok h₂, bind_of_eq_ok h₃, h₄]
  · rw [hw₄, hw₃, hw₂, hw₁, hw, Field.update_addressingMode, Field.update_indexingMode,
      Field.update_indexRegister, Field.update_address, fields]

/-- The register field is set beside an operand. -/
theorem Operand.pack_beside_ok {o : Operand} {mode : AddressingMode} {memoryOnly : Bool}
    {opcode : Nat} {w : MachineWord} (hw : w.fields = o.fields opcode mode memoryOnly 0)
    {register : Nat} (h : register < 10) :
    ∃ w' : MachineWord, Field.register.set register w = .ok w' ∧
      w'.fields = o.fields opcode mode memoryOnly register := by
  obtain ⟨w', h', hw'⟩ := Field.register.set_ok w register h
  refine ⟨w', h', ?_⟩
  rw [hw', hw, fields, Field.update_register, fields]

namespace Operands

theorem pack_ok {operands : Operands} (h : operands.InRange) (memoryOnly : Bool)
    {opcode : Nat} {w : MachineWord} (hw : w.fields = Field.assign opcode 0 0 0 0 0) :
    ∃ w' : MachineWord, operands.pack memoryOnly w = .ok w' ∧
      w'.fields = operands.fields opcode memoryOnly := by
  cases operands with
  | nullary => exact ⟨w, rfl, hw⟩
  | register r =>
    obtain ⟨w₁, h₁, hw₁⟩ := Field.addressingMode.set_ok w (AddressingMode.value.code false)
      (by decide)
    obtain ⟨w₂, h₂, hw₂⟩ := Field.register.set_register_ok w₁ h rfl
    refine ⟨w₂, ?_, ?_⟩
    · rw [pack, bind_of_eq_ok h₁, h₂]
    · rw [hw₂, hw₁, hw, Field.update_addressingMode, Field.update_register]
      rfl
  | registers r s =>
    obtain ⟨w₁, h₁, hw₁⟩ := Field.addressingMode.set_ok w (AddressingMode.value.code false)
      (by decide)
    obtain ⟨w₂, h₂, hw₂⟩ := Field.indexingMode.set_ok w₁ plainIndexCode (by decide)
    obtain ⟨w₃, h₃, hw₃⟩ := Field.register.set_register_ok w₂ h.1 rfl
    obtain ⟨w₄, h₄, hw₄⟩ := Field.indexRegister.set_register_ok w₃ h.2 rfl
    refine ⟨w₄, ?_, ?_⟩
    · rw [pack, bind_of_eq_ok h₁, bind_of_eq_ok h₂, bind_of_eq_ok h₃, h₄]
    · rw [hw₄, hw₃, hw₂, hw₁, hw, Field.update_addressingMode, Field.update_indexingMode,
        Field.update_register, Field.update_indexRegister]
      rfl
  | address mode o => exact Operand.pack_ok h mode memoryOnly hw
  | registerAddress r mode o =>
    obtain ⟨w₁, h₁, hw₁⟩ := Operand.pack_ok h.2 mode memoryOnly hw
    obtain ⟨w₂, h₂, hw₂⟩ := Operand.pack_beside_ok hw₁ h.1.toNat_lt
    rw [h.1.toNat_cast] at h₂
    refine ⟨w₂, ?_, hw₂⟩
    rw [pack, bind_of_eq_ok h₁, h₂]
  | conditionAddress c mode o =>
    obtain ⟨w₁, h₁, hw₁⟩ := Operand.pack_ok h mode memoryOnly hw
    obtain ⟨w₂, h₂, hw₂⟩ := Operand.pack_beside_ok hw₁ c.code_lt
    refine ⟨w₂, ?_, hw₂⟩
    rw [pack, bind_of_eq_ok h₁, h₂]

end Operands

/-- Packing operands in range succeeds under every opcode. -/
theorem Instruction.pack_ok {i : Instruction} {opcode : Fin 100} (h : i.opcode? = some opcode)
    {operands : Operands} (hrange : operands.InRange) :
    ∃ w : MachineWord, i.pack operands = .ok w ∧
      w.fields = operands.fields opcode i.memoryOnly := by
  obtain ⟨operation, expansion, hform⟩ := form_of_opcode? h
  obtain ⟨w₁, h₁, hw₁⟩ := Field.opcode.set_ok Word.zero opcode.val opcode.isLt
  have hstart : w₁.fields = Field.assign opcode.val 0 0 0 0 0 := by
    rw [hw₁, Word.fields_zero]
    funext f
    cases f <;> rfl
  obtain ⟨w₂, h₂, hw₂⟩ := Operands.pack_ok hrange i.memoryOnly hstart
  refine ⟨w₂, ?_, hw₂⟩
  simp only [pack, hform, bind_of_eq_ok h₁, h₂, Except.mapError]

/-- A command whose instruction has an opcode is packed as it stands. -/
theorem Command.encode_ok {c : Command} {opcode : Fin 100} (h : c.instruction.opcode? = some opcode)
    (hrange : c.operands.InRange) (set : InstructionSet) :
    ∃ w : MachineWord, c.encode set = .ok w ∧
      w.fields = c.operands.fields opcode c.instruction.memoryOnly := by
  obtain ⟨w, hw, hfields⟩ := Instruction.pack_ok h hrange
  refine ⟨w, ?_, hfields⟩
  rw [encode, native_of_opcode (by rw [h]; rfl)]
  exact hw

/-! ## Unpacking -/

/-- What reads as the operand of a word. -/
def Word.operand? (w : MachineWord) : Option Operand :=
  Operand.ofCode? (wrap (Field.address.get w) : AddressWord).signed
    (Field.indexRegister.get w) (Field.indexingMode.get w)

/-- What reads as the addressing mode of a word. -/
def Word.mode? (w : MachineWord) (memoryOnly : Bool) : Option AddressingMode :=
  AddressingMode.ofCode? (Field.addressingMode.get w) memoryOnly

namespace Instruction

/-- The operands that an instruction makes of a register, a mode and an operand. -/
def addressOperands (i : Instruction) (register : Nat) (mode : AddressingMode) (o : Operand) :
    Except DecodeError.Cause Operands :=
  if i.shapes.contains .registerAddress then .ok (.registerAddress register mode o)
  else if i.shapes.contains .conditionAddress then
    match Condition.ofCode? register with
    | some condition => .ok (.conditionAddress condition mode o)
    | none => .error (.condition register)
  else if i.shapes.contains .address then .ok (.address mode o)
  else .error (.notDecodable i.mnemonic)

theorem unpackAddress_eq {i : Instruction} {w : MachineWord} {mode : AddressingMode} {o : Operand}
    (hmode : w.mode? i.memoryOnly = some mode) (ho : w.operand? = some o) :
    i.unpackAddress w = i.addressOperands (Field.register.get w) mode o := by
  have hdecode : Operand.decode (Word.wrap (Field.address.get w) : AddressWord).signed
      (Field.indexRegister.get w) (Field.indexingMode.get w) = .ok o := by
    unfold Word.operand? at ho
    rw [Operand.decode, ho]
  unfold Word.mode? at hmode
  unfold unpackAddress
  simp only [hmode]
  rw [bind_of_eq_ok hdecode, addressOperands]
  split
  · rfl
  · split
    · cases Condition.ofCode? (Field.register.get w) <;> rfl
    · split <;> rfl

/-- An address is unpacked only from words whose mode and operand read as such. -/
theorem of_unpackAddress {i : Instruction} {w : MachineWord} {operands : Operands}
    (h : i.unpackAddress w = .ok operands) :
    ∃ mode o, w.mode? i.memoryOnly = some mode ∧ w.operand? = some o ∧
      i.addressOperands (Field.register.get w) mode o = .ok operands := by
  cases hmode : w.mode? i.memoryOnly with
  | none =>
    unfold Word.mode? at hmode
    simp [unpackAddress, hmode] at h
  | some mode =>
    cases ho : w.operand? with
    | none =>
      unfold Word.mode? at hmode
      unfold Word.operand? at ho
      simp only [unpackAddress, hmode, Operand.decode, ho] at h
      cases h
    | some o =>
      refine ⟨mode, o, rfl, rfl, ?_⟩
      rw [← h, unpackAddress_eq hmode ho]

end Instruction

namespace Word

variable {w : MachineWord} {opcode register : Nat} {mode : AddressingMode} {memoryOnly : Bool}
  {o : Operand}

theorem mode?_of_fields (hw : w.fields = o.fields opcode mode memoryOnly register)
    (h : memoryOnly = true → mode.accessesMemory = true) : w.mode? memoryOnly = some mode := by
  have hcode : Field.addressingMode.get w = mode.code memoryOnly := congrFun hw .addressingMode
  rw [mode?, hcode, AddressingMode.ofCode?_code h]

/-- An operand in range is read back with its base cut down to an address. -/
theorem operand?_of_fields (hw : w.fields = o.fields opcode mode memoryOnly register)
    (ho : o.InRange) :
    w.operand? = some ⟨(wrap o.base : AddressWord).signed, o.index⟩ := by
  have hindexing : Field.indexingMode.get w = o.indexingCode := congrFun hw .indexingMode
  have hindex : Field.indexRegister.get w = o.indexRegister.toNat := congrFun hw .indexRegister
  have haddress : Field.address.get w = (wrap o.base : AddressWord).raw := congrFun hw .address
  rw [operand?, hindexing, hindex, haddress, wrap_raw,
    (Operand.indexRegister_isRegister ho).toNat_cast, Operand.ofCode?_indexingCode]

end Word

/-- Decoding is unpacking under the instruction that the opcode finds. -/
theorem InstructionSet.decode_eq {set : InstructionSet} {w : MachineWord} {i : Instruction}
    (h : set.withOpcode? (Field.opcode.get w) = some i) {operands : Operands}
    (hoperands : i.unpack w = .ok operands) : set.decode w = .ok ⟨i, operands⟩ := by
  unfold decode
  simp only [h, hoperands]

theorem InstructionSet.of_decode {set : InstructionSet} {w : MachineWord} {c : Command}
    (h : set.decode w = .ok c) :
    set.withOpcode? (Field.opcode.get w) = some c.instruction ∧
      c.instruction.unpack w = .ok c.operands := by
  unfold decode at h
  split at h
  · cases h
  rename_i i hi
  split at h
  · rename_i operands hoperands
    cases h
    exact ⟨hi, hoperands⟩
  · cases h

end Drama
