-- SUMMARY: Valid commands: what resolution guarantees of the commands it builds, and their native forms.
import Drama.Command.Basic
import Drama.Proofs.Instruction.Standard
import Mathlib.Tactic.SplitIfs

/-!
# Valid commands

A command is valid if a standard instruction accepts the shape and the mode of its operands and all
registers among them exist. Resolution builds valid commands from arguments in range, and a valid command
has a native form, which is valid and has an opcode.
-/

namespace Drama

/-! ## Operands in range -/

/-- The registers are numbered from 0 to 9. -/
def IsRegister (number : Int) : Prop := 0 ≤ number ∧ number ≤ 9

instance (number : Int) : Decidable (IsRegister number) :=
  inferInstanceAs (Decidable (0 ≤ number ∧ number ≤ 9))

def Operand.InRange (o : Operand) : Prop := ∀ index ∈ o.index, IsRegister index.register

instance (o : Operand) : Decidable o.InRange :=
  inferInstanceAs (Decidable (∀ index ∈ o.index, IsRegister index.register))

/-- Whether all registers in an argument exist. -/
def Argument.InRange : Argument → Prop
  | .register r => IsRegister r
  | .condition _ => True
  | .operand o => o.InRange

instance : (a : Argument) → Decidable a.InRange
  | .register r => inferInstanceAs (Decidable (IsRegister r))
  | .condition _ => .isTrue trivial
  | .operand o => inferInstanceAs (Decidable o.InRange)

namespace Operands

/-- Whether all registers among the operands exist. -/
def InRange : Operands → Prop
  | .nullary => True
  | .register r => IsRegister r
  | .registers r s => IsRegister r ∧ IsRegister s
  | .address _ o | .conditionAddress _ _ o => o.InRange
  | .registerAddress r _ o => IsRegister r ∧ o.InRange

instance : (operands : Operands) → Decidable operands.InRange
  | .nullary => .isTrue trivial
  | .register r => inferInstanceAs (Decidable (IsRegister r))
  | .registers r s => inferInstanceAs (Decidable (IsRegister r ∧ IsRegister s))
  | .address _ o | .conditionAddress _ _ o => inferInstanceAs (Decidable o.InRange)
  | .registerAddress r _ o => inferInstanceAs (Decidable (IsRegister r ∧ o.InRange))

theorem inRange_of_arguments {mode : AddressingMode} {arguments : List Argument}
    {operands : Operands} (h : ofArguments? mode arguments = some operands)
    (hargs : ∀ a ∈ arguments, a.InRange) : operands.InRange := by
  unfold ofArguments? at h
  split at h <;> cases h
  case h_1 => trivial
  case h_2 r => exact hargs (.register r) (by simp)
  case h_3 r s => exact ⟨hargs (.register r) (by simp), hargs (.register s) (by simp)⟩
  case h_4 o => exact hargs (.operand o) (by simp)
  case h_5 r o => exact ⟨hargs (.register r) (by simp), hargs (.operand o) (by simp)⟩
  case h_6 c o => exact hargs (.operand o) (by simp)

theorem mode_of_arguments {mode : AddressingMode} {arguments : List Argument}
    {operands : Operands} (h : ofArguments? mode arguments = some operands) :
    ∀ m ∈ operands.mode?, m = mode ∧ operands.shape.hasAddress = true := by
  unfold ofArguments? at h
  split at h <;> cases h <;> simp [mode?, shape, Shape.hasAddress]

end Operands

/-! ## Valid commands -/

structure Command.Valid (c : Command) : Prop where
  standard : c.instruction ∈ InstructionSet.standard.entries
  accepted : c.instruction.shapes.contains c.operands.shape = true
  accesses : c.instruction.memoryOnly = true →
    ∀ mode ∈ c.operands.mode?, mode.accessesMemory = true
  inRange : c.operands.InRange

instance (c : Command) : Decidable c.Valid :=
  decidable_of_iff (c.instruction ∈ InstructionSet.standard.entries ∧
      c.instruction.shapes.contains c.operands.shape = true ∧
      (c.instruction.memoryOnly = true → ∀ mode ∈ c.operands.mode?, mode.accessesMemory = true) ∧
      c.operands.InRange)
    ⟨fun ⟨standard, accepted, accesses, inRange⟩ => ⟨standard, accepted, accesses, inRange⟩,
      fun ⟨standard, accepted, accesses, inRange⟩ => ⟨standard, accepted, accesses, inRange⟩⟩

/-- What resolution guarantees of the commands that it builds of any instruction. -/
theorem Instruction.resolve_accepted {i : Instruction} {mode : Option AddressingMode}
    {arguments : List Argument} (hargs : ∀ a ∈ arguments, a.InRange) {c : Command}
    (h : i.resolve mode arguments = .ok c) :
    c.instruction = i ∧ i.shapes.contains c.operands.shape = true ∧
      (i.memoryOnly = true → ∀ mode ∈ c.operands.mode?, mode.accessesMemory = true) ∧
      c.operands.InRange := by
  simp only [resolve] at h
  split at h
  · cases h
  rename_i operands hoperands
  have hmode := Operands.mode_of_arguments hoperands
  have hrange := Operands.inRange_of_arguments hoperands hargs
  split_ifs at h with haccepted haddress hgiven haccess
  · cases h
    refine ⟨rfl, by simpa using haccepted, fun _ m hm => ?_, hrange⟩
    simp [(hmode m hm).2] at haddress
  · cases h
    refine ⟨rfl, by simpa using haccepted, fun honly m hm => ?_, hrange⟩
    rw [(hmode m hm).1]
    simpa [show i.memoryOnly = true from honly] using haccess

theorem Instruction.resolve_valid {i : Instruction} (hi : i ∈ InstructionSet.standard.entries)
    {mode : Option AddressingMode} {arguments : List Argument}
    (hargs : ∀ a ∈ arguments, a.InRange) {c : Command} (h : i.resolve mode arguments = .ok c) :
    c.instruction = i ∧ c.Valid := by
  obtain ⟨rfl, haccepted, haccesses, hrange⟩ := resolve_accepted hargs h
  exact ⟨rfl, hi, haccepted, haccesses, hrange⟩

/-! ## Kinds of valid commands -/

/-- The kinds of valid commands: those of instructions, and two of instructions that combine a register
with either another register or an address. -/
inductive Command.Regular : Command → Prop
  | plain {mnemonic : String} {opcode : Fin 100} {operation : Operation}
      (h : operation.takesNothing) :
      Regular ⟨⟨mnemonic, .ofList [.nullary], false, .coded opcode operation none⟩, .nullary⟩
  | pairing {mnemonic : String} {opcode : Fin 100} {operation : Operation} {r s : Int}
      (h : operation.takesValue) (hr : IsRegister r) (hs : IsRegister s) :
      Regular ⟨⟨mnemonic, .ofList [.registers, .registerAddress], false,
        .coded opcode operation none⟩, .registers r s⟩
  | combining {mnemonic : String} {opcode : Fin 100} {operation : Operation} {r : Int}
      {mode : AddressingMode} {o : Operand}
      (h : operation.takesValue) (hr : IsRegister r) (ho : o.InRange) :
      Regular ⟨⟨mnemonic, .ofList [.registers, .registerAddress], false,
        .coded opcode operation none⟩, .registerAddress r mode o⟩
  | storing {mnemonic : String} {opcode : Fin 100} {r : Int} {mode : AddressingMode} {o : Operand}
      (hmode : mode.accessesMemory) (hr : IsRegister r) (ho : o.InRange) :
      Regular ⟨⟨mnemonic, .ofList [.registerAddress], true, .coded opcode .store none⟩,
        .registerAddress r mode o⟩
  | jumping {mnemonic : String} {opcode : Fin 100} {operation : Operation} {mode : AddressingMode}
      {o : Operand} (h : operation.takesTarget) (hmode : mode.accessesMemory) (ho : o.InRange) :
      Regular ⟨⟨mnemonic, .ofList [.address], true, .coded opcode operation none⟩,
        .address mode o⟩
  | branching {mnemonic : String} {opcode : Fin 100} {condition : Condition}
      {mode : AddressingMode} {o : Operand} (hmode : mode.accessesMemory) (ho : o.InRange) :
      Regular ⟨⟨mnemonic, .ofList [.conditionAddress], true, .coded opcode .branch none⟩,
        .conditionAddress condition mode o⟩
  | stacking {mnemonic target : String} {modification : Modification} {i : Instruction} {r : Int}
      (h : InstructionSet.standard.find? target = some i) (hcoded : i.opcode?.isSome)
      (hshapes : i.shapes.contains .registerAddress) (hr : IsRegister r) :
      Regular ⟨⟨mnemonic, .ofList [.register], false, .derived (.stack target modification) none⟩,
        .register r⟩

theorem Command.Valid.regular {c : Command} (h : c.Valid) : c.Regular := by
  obtain ⟨i, operands⟩ := c
  obtain ⟨hi, haccepted, haccesses, hrange⟩ := h
  cases InstructionSet.regular_of_mem hi with
  | plain h => cases operands <;> simp [Operands.shape] at haccepted; exact .plain h
  | combining h =>
    cases operands <;> simp [Operands.shape] at haccepted
    case registers => exact .pairing h hrange.1 hrange.2
    case registerAddress => exact .combining h hrange.1 hrange.2
  | storing =>
    cases operands <;> simp [Operands.shape] at haccepted
    exact .storing (haccesses rfl _ rfl) hrange.1 hrange.2
  | jumping h =>
    cases operands <;> simp [Operands.shape] at haccepted
    exact .jumping h (haccesses rfl _ rfl) hrange
  | branching =>
    cases operands <;> simp [Operands.shape] at haccepted
    exact .branching (haccesses rfl _ rfl) hrange
  | stacking h hcoded hshapes =>
    cases operands <;> simp [Operands.shape] at haccepted
    exact .stacking h hcoded hshapes hrange

/-! ## Native forms -/

/-- An expansion on the stack makes a direct access to its top. -/
theorem Expansion.expand_stack {set : InstructionSet} {target : String} {i : Instruction}
    (h : set.find? target = some i) (hshapes : i.shapes.contains .registerAddress)
    (modification : Modification) (r : Int) :
    (Expansion.stack target modification).expand set (some r) =
      .ok ⟨i, .registerAddress r .direct (.stackTop modification)⟩ := by
  simp only [expand, h]
  have hresolve : i.resolve (some .direct) [.register r, .operand (.stackTop modification)] =
      .ok ⟨i, .registerAddress r .direct (.stackTop modification)⟩ := by
    simp [Instruction.resolve, Operands.ofArguments?, Operands.shape, hshapes, Shape.hasAddress,
      AddressingMode.accessesMemory]
  show ((i.resolve (some .direct) [.register r, .operand (.stackTop modification)]).mapError
    ResolutionError.format).mapError ExpansionError.resolution = _
  rw [hresolve]
  rfl

theorem Operand.inRange_stackTop (modification : Modification) :
    (Operand.stackTop modification).InRange := by
  intro index hindex
  cases hindex
  show IsRegister stackRegister
  decide

namespace Command

theorem native_of_opcode {c : Command} (h : c.instruction.opcode?.isSome) (set : InstructionSet) :
    c.native set = .ok c := by
  unfold native
  unfold Instruction.opcode? Form.opcode? at h
  split
  · rfl
  · rename_i hform
    simp [hform] at h

theorem native_stacking {mnemonic target : String} {modification : Modification}
    {i : Instruction} (h : InstructionSet.standard.find? target = some i)
    (hshapes : i.shapes.contains .registerAddress) (r : Int) :
    native ⟨⟨mnemonic, .ofList [.register], false, .derived (.stack target modification) none⟩,
      .register r⟩ .standard = .ok ⟨i, .registerAddress r .direct (.stackTop modification)⟩ :=
  Expansion.expand_stack h hshapes modification r

/-- A valid command has a native form, which is valid and has an opcode. -/
theorem Valid.exists_native {c : Command} (h : c.Valid) :
    ∃ n : Command, c.native .standard = .ok n ∧ n.Valid ∧ n.instruction.opcode?.isSome := by
  cases h.regular with
  | stacking hfind hcoded hshapes hr =>
    refine ⟨_, native_stacking hfind hshapes _, ⟨?_, hshapes, fun _ m hm => ?_, ?_⟩, hcoded⟩
    · exact InstructionSet.mem_of_find? hfind
    · cases hm
      rfl
    · exact ⟨hr, Operand.inRange_stackTop _⟩
  | plain | pairing | combining | storing | jumping | branching =>
    exact ⟨_, native_of_opcode rfl _, h, rfl⟩

end Command

end Drama
