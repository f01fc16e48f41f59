-- SUMMARY: Which words decode, which of their fields count, and how encoding gives them back.
import Drama.Proofs.Command.RoundTrip

/-!
# Decoding words

Whether a word decodes is a matter of its digits: those of the opcode, the mode and the indexing, and in a
conditional jump that of the condition. What it decodes to is encoded as the same word, but for the fields
that its instruction has no use for.
-/

namespace Drama

/-! ## Fields that count -/

/-- The fields that decoding does not look at: all but the opcode where there are no operands, the register
of a jump or a call, and the index register of an operand without index. -/
def Instruction.ignores (i : Instruction) (w : MachineWord) : Field → Bool
  | .opcode => false
  | .register => i.shapes.contains .nullary || i.mnemonic == "SPR" || i.mnemonic == "SBR"
  | .indexRegister => i.shapes.contains .nullary || Field.indexingMode.get w == noIndexCode
  | .addressingMode | .indexingMode | .address => i.shapes.contains .nullary

/-- The standard instructions whose only operand is an address. -/
theorem InstructionSet.mnemonic_of_address {i : Instruction} (h : i ∈ standard.entries) :
    (i.mnemonic == "SPR" || i.mnemonic == "SBR") = i.shapes.contains .address := by
  have htable : ∀ i ∈ standard.entries,
      (i.mnemonic == "SPR" || i.mnemonic == "SBR") = i.shapes.contains .address := by decide
  exact htable i h

/-- The only standard instruction with a condition. -/
theorem InstructionSet.mnemonic_of_condition {i : Instruction} (h : i ∈ standard.entries) :
    i.mnemonic = "VSP" ↔ i.shapes.contains .conditionAddress = true := by
  have htable : ∀ i ∈ standard.entries,
      i.mnemonic = "VSP" ↔ i.shapes.contains .conditionAddress = true := by decide
  exact htable i h

theorem Field.isRegister_get (f : Field) (w : MachineWord) (hf : f.range.width = 1) :
    IsRegister (f.get w) := by
  have h := f.get_lt w
  rw [hf] at h
  exact ⟨Int.natCast_nonneg _, Int.ofNat_le.2 (Nat.le_of_lt_succ h)⟩

/-- The mode and the operand that are read from a word have its digits, except that an operand without
index has nothing in the index field. -/
theorem Word.of_parts {w : MachineWord} {memoryOnly : Bool} {mode : AddressingMode} {o : Operand}
    (hmode : w.mode? memoryOnly = some mode) (ho : w.operand? = some o) :
    o.InRange ∧ o.narrow = o ∧ (memoryOnly = true → mode.accessesMemory = true) ∧
      ∀ opcode register, o.fields opcode mode memoryOnly register =
        Field.assign opcode (Field.addressingMode.get w) (Field.indexingMode.get w) register
          (if Field.indexingMode.get w = noIndexCode then 0 else Field.indexRegister.get w)
          (Field.address.get w) := by
  obtain ⟨hcode, haccess⟩ := AddressingMode.of_ofCode? hmode
  obtain ⟨hbase, hindexing, hindex, -, -, hregister⟩ := Operand.of_ofCode? ho
  have hwrap : (wrap o.base : AddressWord) = wrap (Field.address.get w) := by
    rw [hbase, wrap_signed]
  have haddress : (wrap o.base : AddressWord).raw = Field.address.get w := by
    rw [hwrap]
    exact congrArg Word.raw (wrap_raw ⟨Field.address.get w, Field.get_lt .address w⟩)
  refine ⟨fun index h => ?_, ?_, haccess, fun opcode register => ?_⟩
  · rw [hregister index h]
    exact Field.isRegister_get .indexRegister w rfl
  · rw [Operand.narrow, hwrap, ← hbase]
  · rw [Operand.fields, hcode, hindexing, hindex, haddress]
    split <;> rfl

/-- The fields of a word with those that its instruction ignores replaced by zero. -/
theorem Instruction.assign_eq_ignores (i : Instruction) (w : MachineWord) {register : Nat}
    (hshapes : i.shapes.contains .nullary = false)
    (hregister : register =
      if i.mnemonic == "SPR" || i.mnemonic == "SBR" then 0 else Field.register.get w) (f : Field) :
    Field.assign (Field.opcode.get w) (Field.addressingMode.get w) (Field.indexingMode.get w) register
        (if Field.indexingMode.get w = noIndexCode then 0 else Field.indexRegister.get w)
        (Field.address.get w) f =
      if i.ignores w f then 0 else f.get w := by
  cases f with
  | opcode => rfl
  | register => simpa only [Field.assign, ignores, hshapes, Bool.false_or] using hregister
  | indexRegister => simp only [Field.assign, ignores, hshapes, Bool.false_or, beq_iff_eq]
  | addressingMode | indexingMode | address =>
    simp only [Field.assign, ignores, hshapes, Bool.false_eq_true, if_false]

/-- What is known of a command that was unpacked from a word. -/
structure Command.ReadFrom (c : Command) (w : MachineWord) : Prop where
  valid : c.Valid
  normal : c.normalForm = c
  fields : ∀ f, c.operands.fields (Field.opcode.get w) c.instruction.memoryOnly f =
    if c.instruction.ignores w f then 0 else f.get w

/-- What is read as the mode and the operand of a word makes a command with the fields of the word. -/
theorem Command.ReadFrom.of_address {i : Instruction} (hi : i ∈ InstructionSet.standard.entries)
    {w : MachineWord} {mode : AddressingMode} {o : Operand}
    (hmode : w.mode? i.memoryOnly = some mode) (ho : w.operand? = some o) {operands : Operands}
    (hshapes : i.shapes.contains .nullary = false)
    (haccepted : i.shapes.contains operands.shape = true)
    (hmodes : operands.mode? = some mode) (hrange : o.InRange → operands.InRange)
    (hnormal : o.narrow = o → Command.normalForm ⟨i, operands⟩ = ⟨i, operands⟩) {register : Nat}
    (hfields : operands.fields (Field.opcode.get w) i.memoryOnly =
      o.fields (Field.opcode.get w) mode i.memoryOnly register)
    (hregister : register =
      if i.mnemonic == "SPR" || i.mnemonic == "SBR" then 0 else Field.register.get w) :
    Command.ReadFrom ⟨i, operands⟩ w := by
  obtain ⟨hinRange, hnarrow, haccess, hdigits⟩ := Word.of_parts hmode ho
  refine ⟨⟨hi, haccepted, fun honly m hm => ?_, hrange hinRange⟩, hnormal hnarrow, fun f => ?_⟩
  · cases Option.some.inj (hmodes.symm.trans hm)
    exact haccess honly
  · show operands.fields _ i.memoryOnly f = _
    rw [hfields, hdigits]
    exact Instruction.assign_eq_ignores i w hshapes hregister f

theorem Instruction.readFrom_of_unpack {i : Instruction}
    (hi : i ∈ InstructionSet.standard.entries) (hcoded : i.opcode?.isSome) {w : MachineWord}
    {operands : Operands} (h : i.unpack w = .ok operands) :
    Command.ReadFrom ⟨i, operands⟩ w := by
  have hjump := InstructionSet.mnemonic_of_address hi
  have hregister := Field.isRegister_get .register w rfl
  have hindex := Field.isRegister_get .indexRegister w rfl
  cases InstructionSet.regular_of_mem hi with
  | plain =>
    cases h
    refine ⟨⟨hi, by simp [Operands.shape], fun h => absurd h Bool.false_ne_true, trivial⟩,
      rfl, fun f => ?_⟩
    cases f <;> rfl
  | combining =>
    simp only [ShapeSet.contains_ofList] at hjump
    simp only [unpack, ShapeSet.contains_ofList] at h
    by_cases hpair : w.isRegisterPair = true
    · obtain ⟨hmode, hindexing, haddress⟩ := Word.isRegisterPair_iff.1 hpair
      simp only [hpair] at h
      cases h
      refine ⟨⟨hi, by simp [Operands.shape], fun h => absurd h Bool.false_ne_true, hregister, hindex⟩,
        rfl, fun f => ?_⟩
      refine Eq.trans ?_ (assign_eq_ignores _ w (by simp) (if_neg (by simp [hjump])).symm f)
      rw [hmode, hindexing, haddress, if_neg (by decide)]
      rfl
    · simp only [hpair] at h
      obtain ⟨mode, o, hmode, ho, hoperands⟩ := of_unpackAddress h
      cases hoperands
      refine .of_address hi hmode ho (by simp) (by simp [Operands.shape]) rfl
        (fun hrange => ⟨hregister, hrange⟩) (fun hnarrow => ?_) rfl (if_neg (by simp [hjump])).symm
      -- the operand has the digits of the word, so it cannot amount to a register
      obtain ⟨-, -, -, hdigits⟩ := Word.of_parts hmode ho
      have hiff := Word.isRegisterPair_iff_exists (congrFun (hdigits 0 0) .addressingMode).symm
        (congrFun (hdigits 0 0) .indexingMode).symm (congrFun (hdigits 0 0) .address).symm
        (Field.register.get w)
      rw [Command.normalForm_of_no_pair (Operands.registerPair?_eq_none (mt hiff.2 hpair))]
      simp only [Operands.narrow, hnarrow]
  | storing =>
    simp only [ShapeSet.contains_ofList] at hjump
    obtain ⟨mode, o, hmode, ho, hoperands⟩ := of_unpackAddress h
    cases hoperands
    refine .of_address hi hmode ho (by simp) (by simp [Operands.shape]) rfl
      (fun hrange => ⟨hregister, hrange⟩) (fun hnarrow => ?_) rfl (if_neg (by simp [hjump])).symm
    rw [Command.normalForm_of_not_registers (by simp)]
    simp only [Operands.narrow, hnarrow]
  | jumping =>
    simp only [ShapeSet.contains_ofList] at hjump
    obtain ⟨mode, o, hmode, ho, hoperands⟩ := of_unpackAddress h
    cases hoperands
    refine .of_address hi hmode ho (by simp) (by simp [Operands.shape]) rfl id
      (fun hnarrow => ?_) rfl (if_pos (by simp [hjump])).symm
    rw [Command.normalForm_of_not_registers (by simp)]
    simp only [Operands.narrow, hnarrow]
  | branching =>
    simp only [ShapeSet.contains_ofList] at hjump
    obtain ⟨mode, o, hmode, ho, hoperands⟩ := of_unpackAddress h
    have hcondition : ∃ condition, Condition.ofCode? (Field.register.get w) = some condition ∧
        operands = .conditionAddress condition mode o := by
      simp only [addressOperands, ShapeSet.contains_ofList] at hoperands
      cases hc : Condition.ofCode? (Field.register.get w) with
      | none => simp [hc] at hoperands
      | some condition => exact ⟨condition, rfl, by simpa [hc] using hoperands.symm⟩
    obtain ⟨condition, hcode, rfl⟩ := hcondition
    refine .of_address hi hmode ho (by simp) (by simp [Operands.shape]) rfl id
      (fun hnarrow => ?_) rfl ?_
    · rw [Command.normalForm_of_not_registers (by simp)]
      simp only [Operands.narrow, hnarrow]
    · rw [Condition.code_of_ofCode? hcode]
      exact (if_neg (by simp [hjump])).symm
  | stacking => cases hcoded

/-! ## Words that decode -/

/-- Whether the digits after the opcode of a word are of use to an instruction. -/
def Instruction.AcceptsDigits (i : Instruction) (w : MachineWord) : Prop :=
  i.shapes.contains .nullary = false →
    (if i.memoryOnly then 2 ≤ Field.addressingMode.get w ∧ Field.addressingMode.get w ≤ 3
      else 1 ≤ Field.addressingMode.get w ∧ Field.addressingMode.get w ≤ 4) ∧
    (1 ≤ Field.indexingMode.get w ∧ Field.indexingMode.get w ≤ 6) ∧
    (i.mnemonic = "VSP" → 1 ≤ Field.register.get w ∧ Field.register.get w ≤ 6)

/-- Whether the digits of a word spell a command of the standard set. -/
def Word.SpellsCommand (w : MachineWord) : Prop :=
  ∃ i ∈ InstructionSet.standard.entries,
    i.opcode?.map Fin.val = some (Field.opcode.get w) ∧ i.AcceptsDigits w

namespace Instruction

theorem exists_unpackAddress_iff {i : Instruction} {w : MachineWord} {p : Prop}
    (h : ∀ mode o, (∃ operands, i.addressOperands (Field.register.get w) mode o = .ok operands) ↔ p) :
    (∃ operands, i.unpackAddress w = .ok operands) ↔
      (if i.memoryOnly then 2 ≤ Field.addressingMode.get w ∧ Field.addressingMode.get w ≤ 3
        else 1 ≤ Field.addressingMode.get w ∧ Field.addressingMode.get w ≤ 4) ∧
      (1 ≤ Field.indexingMode.get w ∧ Field.indexingMode.get w ≤ 6) ∧ p := by
  rw [← AddressingMode.exists_ofCode?_iff, ← Operand.exists_ofCode?_iff
    (Word.wrap (Field.address.get w) : AddressWord).signed (Field.indexRegister.get w)]
  constructor
  · rintro ⟨operands, hoperands⟩
    obtain ⟨mode, o, hmode, ho, hmade⟩ := of_unpackAddress hoperands
    exact ⟨⟨mode, hmode⟩, ⟨o, ho⟩, (h mode o).1 ⟨operands, hmade⟩⟩
  · rintro ⟨⟨mode, hmode⟩, ⟨o, ho⟩, hp⟩
    rw [unpackAddress_eq hmode ho]
    exact (h mode o).2 hp

theorem acceptsDigits_iff {i : Instruction} {w : MachineWord}
    (h : i.shapes.contains .nullary = false) :
    i.AcceptsDigits w ↔
      (if i.memoryOnly then 2 ≤ Field.addressingMode.get w ∧ Field.addressingMode.get w ≤ 3
        else 1 ≤ Field.addressingMode.get w ∧ Field.addressingMode.get w ≤ 4) ∧
      (1 ≤ Field.indexingMode.get w ∧ Field.indexingMode.get w ≤ 6) ∧
      (i.mnemonic = "VSP" → 1 ≤ Field.register.get w ∧ Field.register.get w ≤ 6) :=
  ⟨fun hdigits => hdigits h, fun hdigits _ => hdigits⟩

theorem exists_unpack_iff {i : Instruction} (hi : i ∈ InstructionSet.standard.entries)
    (hcoded : i.opcode?.isSome) {w : MachineWord} :
    (∃ operands, i.unpack w = .ok operands) ↔ i.AcceptsDigits w := by
  have hbranch := InstructionSet.mnemonic_of_condition hi
  cases InstructionSet.regular_of_mem hi with
  | plain => exact ⟨fun _ => nofun, fun _ => ⟨.nullary, rfl⟩⟩
  | combining =>
    simp only [ShapeSet.contains_ofList] at hbranch
    rw [acceptsDigits_iff (by simp)]
    by_cases hpair : w.isRegisterPair = true
    · obtain ⟨hmode, hindexing, -⟩ := Word.isRegisterPair_iff.1 hpair
      rw [hmode, hindexing]
      refine ⟨fun _ => ⟨show 1 ≤ 1 ∧ 1 ≤ 4 by decide, by decide, ?_⟩,
        fun _ => ⟨.registers (Field.register.get w) (Field.indexRegister.get w), ?_⟩⟩
      · simp [hbranch]
      · simp only [unpack, ShapeSet.contains_ofList, hpair]
        rfl
    · rw [← exists_unpackAddress_iff]
      · simp only [unpack, ShapeSet.contains_ofList, hpair]
        rfl
      · exact fun mode o => ⟨fun _ => by simp [hbranch], fun _ => ⟨_, rfl⟩⟩
  | storing =>
    simp only [ShapeSet.contains_ofList] at hbranch
    rw [acceptsDigits_iff (by simp)]
    exact exists_unpackAddress_iff fun mode o => ⟨fun _ => by simp [hbranch], fun _ => ⟨_, rfl⟩⟩
  | jumping =>
    simp only [ShapeSet.contains_ofList] at hbranch
    rw [acceptsDigits_iff (by simp)]
    exact exists_unpackAddress_iff fun mode o => ⟨fun _ => by simp [hbranch], fun _ => ⟨_, rfl⟩⟩
  | branching =>
    simp only [ShapeSet.contains_ofList] at hbranch
    rw [acceptsDigits_iff (by simp)]
    refine exists_unpackAddress_iff fun mode o => ?_
    rw [hbranch, ← Condition.exists_ofCode?_iff]
    simp only [addressOperands, ShapeSet.contains_ofList]
    cases Condition.ofCode? (Field.register.get w) <;> simp
  | stacking => cases hcoded

end Instruction

/-- What a standard word decodes to was unpacked under the instruction of its opcode. -/
theorem InstructionSet.readFrom_of_decode {w : MachineWord} {c : Command}
    (h : standard.decode w = .ok c) :
    c.instruction ∈ standard.entries ∧
      c.instruction.opcode?.map Fin.val = some (Field.opcode.get w) ∧ c.ReadFrom w := by
  obtain ⟨hfound, hunpack⟩ := of_decode h
  obtain ⟨hi, hopcode⟩ := mem_of_withOpcode? hfound
  refine ⟨hi, hopcode, Instruction.readFrom_of_unpack hi ?_ hunpack⟩
  cases hcode : c.instruction.opcode? with
  | none => simp [hcode] at hopcode
  | some code => rfl

theorem InstructionSet.coded_of_decode {w : MachineWord} {c : Command}
    (h : standard.decode w = .ok c) : c.instruction.opcode?.isSome := by
  obtain ⟨-, hopcode, -⟩ := readFrom_of_decode h
  rw [← Option.isSome_map (f := Fin.val), hopcode]
  rfl

theorem exists_decode_iff (w : MachineWord) :
    (∃ c, InstructionSet.standard.decode w = .ok c) ↔ w.SpellsCommand := by
  constructor
  · rintro ⟨c, h⟩
    obtain ⟨hi, hopcode, -⟩ := InstructionSet.readFrom_of_decode h
    have hcoded := InstructionSet.coded_of_decode h
    exact ⟨c.instruction, hi, hopcode, (Instruction.exists_unpack_iff hi hcoded).1
      ⟨_, (InstructionSet.of_decode h).2⟩⟩
  · rintro ⟨i, hi, hopcode, hdigits⟩
    obtain ⟨code, hcode, hvalue⟩ := Option.map_eq_some_iff.1 hopcode
    obtain ⟨operands, hoperands⟩ :=
      (Instruction.exists_unpack_iff hi (by rw [hcode]; rfl)).2 hdigits
    have hfound : InstructionSet.standard.withOpcode? (Field.opcode.get w) = some i := by
      rw [← hvalue]
      exact InstructionSet.withOpcode?_of_mem hi hcode
    exact ⟨⟨i, operands⟩, InstructionSet.decode_eq hfound hoperands⟩

/-- Words that spell a command are exactly those that decode. The command is encoded as the word with zeros
in the fields that its instruction ignores, and that word decodes to it again. -/
theorem encode_decode_of_word (w : MachineWord) :
    ((∃ c, InstructionSet.standard.decode w = .ok c) ↔ w.SpellsCommand) ∧
      ∀ c, InstructionSet.standard.decode w = .ok c →
        c.encode .standard = .ok (w.clear (c.instruction.ignores w)) ∧
        InstructionSet.standard.decode (w.clear (c.instruction.ignores w)) = .ok c := by
  refine ⟨exists_decode_iff w, fun c h => ?_⟩
  obtain ⟨hi, hopcode, hvalid, hnormal, hfields⟩ := InstructionSet.readFrom_of_decode h
  obtain ⟨code, hcode, hvalue⟩ := Option.map_eq_some_iff.1 hopcode
  obtain ⟨w', hencode, hw'⟩ := Command.encode_ok hcode hvalid.inRange .standard
  obtain rfl : w' = w.clear (c.instruction.ignores w) := by
    apply Word.fields_injective
    funext f
    rw [hw', hvalue, hfields, Word.fields_clear]
    rfl
  refine ⟨hencode, ?_⟩
  rw [hvalid.decode hcode hw', hnormal]

/-- A jump has no use for a register, nor for an index register if its address has no index. -/
theorem encode_decode_of_jump :
    ∃ c, InstructionSet.standard.decode (Word.wrap 3221780005) = .ok c ∧
      c.encode .standard = .ok (Word.wrap 3221000005) ∧
      InstructionSet.standard.decode (Word.wrap 3221000005) = .ok c := by
  have hdecode : InstructionSet.standard.decode (Word.wrap 3221780005) = .ok _ := rfl
  obtain ⟨-, hword⟩ := encode_decode_of_word (Word.wrap 3221780005)
  obtain ⟨hencode, hagain⟩ := hword _ hdecode
  exact ⟨_, hdecode, hencode, hagain⟩

end Drama
