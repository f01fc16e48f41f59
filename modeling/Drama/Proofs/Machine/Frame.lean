-- SUMMARY: What a step leaves alone: the cells, the registers and everything else that its command does not name.
import Drama.Proofs.Machine.Step
import Drama.Proofs.Machine.Stack

/-!
# Frames of steps

A step changes what its command is for, and nothing else. `Machine.Frame` says so for every part of the machine,
and `Machine.writes` lists the registers that may change. The parts of the effect of an operation are read off by
one equation each, from which the frame of all instructions follows.
-/

namespace Drama

/-! ## Operations and their mnemonics -/

def Arithmetic.mnemonic : Arithmetic → String
  | .add => "OPT"
  | .subtract => "AFT"
  | .multiply => "VER"
  | .divide => "DEL"
  | .remainder => "MOD"

/-- The mnemonic of the one instruction with an opcode that carries the operation out. -/
def Operation.mnemonic : Operation → String
  | .load => "HIA"
  | .store => "BIG"
  | .arithmetic f => f.mnemonic
  | .compare => "VGL"
  | .jump => "SPR"
  | .branch => "VSP"
  | .call => "SBR"
  | .ret => "KTG"
  | .read => "LEZ"
  | .print => "DRU"
  | .halt => "STP"

theorem Instruction.mnemonic_eq {i : Instruction} (h : i ∈ InstructionSet.standard.entries)
    {operation : Operation} (hoperation : i.form.operation? = some operation) :
    i.mnemonic = operation.mnemonic := by
  have htable : ∀ i ∈ InstructionSet.standard.entries, ∀ operation ∈ i.form.operation?,
      i.mnemonic = operation.mnemonic := by decide
  exact htable i h operation hoperation

/-- Operations on a register and something else. -/
def Operation.takesRegister : Operation → Bool
  | .load | .store | .arithmetic _ | .compare => true
  | _ => false

/-- The instructions that leave a result in their register. -/
def resultMnemonics : List String := ["HIA", "OPT", "AFT", "VER", "DEL", "MOD"]

/-! ## Registers that change -/

/-- The index register that evaluating the operand steps. -/
def Operand.stepped? (o : Operand) : Option Int :=
  o.index.bind fun index => index.modification.map fun _ => index.register

def Operands.stepped? (operands : Operands) : Option Int := operands.operand?.bind Operand.stepped?

namespace Machine

/-- Whether the condition that a command is carried out under is met, if it has one. -/
def passes (m : Machine) (c : Command) : Bool := c.operands.condition?.all m.condition.satisfies

/-- The registers that a command may change: that of its result, the index register of an operand that is
evaluated, and the stack register. -/
def writes (m : Machine) (c : Command) : List Int :=
  (if c.instruction.mnemonic ∈ resultMnemonics then c.operands.register?.toList else []) ++
    (if m.passes c then c.operands.stepped?.toList else []) ++
    if c.instruction.mnemonic ∈ ["SBR", "KTG"] then [(stackRegister : Int)] else []

/-- What a command changes of a machine, and what remains. -/
structure Frame (m : Machine) (c : Command) (m' : Machine) : Prop where
  memory : c.instruction.mnemonic ∉ ["BIG", "SBR"] → m'.memory = m.memory
  stored : c.instruction.mnemonic = "BIG" → ∃ a m₁, (target (.ofCommand c)).run m = .ok a m₁ ∧
    ∀ b, b ≠ a → m'.memory.read b = m.memory.read b
  called : c.instruction.mnemonic = "SBR" → ∀ b, b ≠ (m.register stackRegister).cellBelow 1 →
    m'.memory.read b = m.memory.read b
  registers : ∀ r, IsRegister r → r ∉ m.writes c → m'.register r = m.register r
  pc : c.instruction.mnemonic ∉ ["SPR", "SBR", "KTG"] →
    (c.instruction.mnemonic = "VSP" → m.passes c = false) →
    m'.pc.raw = (m.pc.raw + 1) % addressSpace
  condition : c.instruction.mnemonic ∈ ["SPR", "VSP", "SBR", "KTG", "LEZ", "STP"] →
    m'.condition = m.condition
  transfers : m'.transfers.toList = m.transfers.toList ++
    if c.instruction.mnemonic = "DRU" then [.output (m.register 0)] else []
  state : m'.state =
    if c.instruction.mnemonic = "LEZ" then .waitingForInput
    else if c.instruction.mnemonic = "STP" then .halted
    else m.state

end Machine

/-! ## Registers and conditions of commands -/

namespace Command.Valid

variable {c : Command} {operation : Operation}

theorem exists_register (h : c.Valid) (hoperation : c.instruction.form.operation? = some operation)
    (htakes : operation.takesRegister) : ∃ s, IsRegister s ∧ c.operands.register? = some s := by
  cases h.regular with
  | pairing _ hr => exact ⟨_, hr, rfl⟩
  | combining _ hr => exact ⟨_, hr, rfl⟩
  | storing _ hr => exact ⟨_, hr, rfl⟩
  | stacking _ _ _ hr => exact ⟨_, hr, rfl⟩
  | plain hop =>
    cases hoperation
    cases operation <;> cases hop <;> cases htakes
  | jumping hop =>
    cases hoperation
    cases operation <;> cases hop <;> cases htakes
  | branching =>
    cases hoperation
    cases htakes

/-- Only a branch is carried out under a condition. -/
theorem passes_of_ne_branch (h : c.Valid)
    (hoperation : c.instruction.form.operation? = some operation) (hne : operation ≠ .branch)
    (m : Machine) : m.passes c = true := by
  cases h.regular with
  | branching =>
    cases hoperation
    exact absurd rfl hne
  | plain | pairing | combining | storing | jumping | stacking => rfl

theorem any_condition (h : c.Valid) (hoperation : c.instruction.form.operation? = some .branch)
    (m : Machine) : c.operands.condition?.any m.condition.satisfies = m.passes c := by
  cases h.regular with
  | branching => rfl
  | plain hop | pairing hop | combining hop | jumping hop =>
    cases hoperation
    cases hop
  | storing | stacking => cases hoperation

end Command.Valid

namespace Machine

/-! ## The parts of an effect -/

variable (m : Machine) (operation : Operation) (operands : Operands)

theorem effect_memory :
    (m.effect operation operands).memory =
      match operation with
      | .store => m.memory.write (m.lastAddress operands)
          ((m.lookUp operands).register (operands.register?.getD 0))
      | .call => m.pushed.memory
      | _ => m.memory := by
  have hlookUp (m : Machine) := m.lookUp_memory operands
  cases operation with
  | load | arithmetic | compare | jump => exact hlookUp m
  | call => exact hlookUp m.pushed
  | branch =>
    rw [effect]
    split
    · exact hlookUp m
    · rfl
  | store | ret | read | print | halt => rfl

theorem effect_pc :
    (m.effect operation operands).pc =
      match operation with
      | .jump => m.lastAddress operands
      | .branch =>
        if operands.condition?.any m.condition.satisfies then m.lastAddress operands else m.pc
      | .call => m.pushed.lastAddress operands
      | .ret => m.top.toAddress
      | _ => m.pc := by
  have hlookUp : (m.lookUp operands).pc = m.pc := by rw [m.lookUp_eq operands]
  cases operation with
  | load | store | arithmetic | compare => exact hlookUp
  | branch =>
    rw [effect]
    split <;> rfl
  | jump | call | ret | read | print | halt => rfl

theorem effect_condition :
    (m.effect operation operands).condition =
      match operation with
      | .load => .ofWord (m.lastValue operands)
      | .store => .ofWord ((m.lookUp operands).register (operands.register?.getD 0))
      | .arithmetic f => .ofWord (f.apply ((m.lookUp operands).register (operands.register?.getD 0))
          (m.lastValue operands).signed)
      | .compare => .ofComparison ((m.lookUp operands).register (operands.register?.getD 0)).signed
          (m.lastValue operands).signed
      | .print => .ofWord (m.register 0)
      | _ => m.condition := by
  have hlookUp (m : Machine) : (m.lookUp operands).condition = m.condition := by
    rw [m.lookUp_eq operands]
  cases operation with
  | jump => exact hlookUp m
  | call => exact hlookUp m.pushed
  | branch =>
    rw [effect]
    split
    · exact hlookUp m
    · rfl
  | load | store | arithmetic | compare | ret | read | print | halt => rfl

/-! ## Registers in the frame -/

variable {c : Command} {r : Int}

theorem register_lookUp_of_passes (h : c.Valid) (hr : IsRegister r) (hpasses : m.passes c = true)
    (hwrites : r ∉ m.writes c) (m' : Machine) :
    (m'.lookUp c.operands).register r = m'.register r := by
  refine register_lookUp h.inRange hr ?_ m'
  rintro o ho ⟨s, modification⟩ hindex hmodification rfl
  obtain ⟨modification, rfl⟩ := Option.isSome_iff_exists.1 hmodification
  apply hwrites
  have hstepped : c.operands.stepped? = some s := by
    simp only [Operands.stepped?, Operand.stepped?, Option.mem_def.1 ho, Option.mem_def.1 hindex,
      Option.bind_some, Option.map_some]
  simp [writes, hpasses, hstepped]

variable {operation}

/-- A register that the command does not write is as it was. -/
theorem register_effect (h : c.Valid) (hoperation : c.instruction.form.operation? = some operation)
    (hr : IsRegister r) (hwrites : r ∉ m.writes c) :
    (m.effect operation c.operands).register r = m.register r := by
  have hmnemonic := Instruction.mnemonic_eq h.standard hoperation
  -- the three kinds of registers may coincide, but a register outside the list is none of them
  have hlookUp (hne : operation ≠ .branch) (m' : Machine) :=
    register_lookUp_of_passes m h hr (h.passes_of_ne_branch hoperation hne m) hwrites m'
  have hresult (htakes : operation.takesRegister) (hmem : operation.mnemonic ∈ resultMnemonics)
      (w : MachineWord) (m' : Machine) :
      (m'.loadRegister (c.operands.register?.getD 0) w).register r = m'.register r := by
    obtain ⟨s, hs, hregister⟩ := h.exists_register hoperation htakes
    have hne : r ≠ s := by
      rintro rfl
      apply hwrites
      simp [writes, hmnemonic, hmem, hregister]
    rw [hregister]
    exact register_setRegister_of_ne hr hs hne w
  have hstack (hmem : operation.mnemonic ∈ ["SBR", "KTG"]) : r ≠ stackRegister := by
    rintro rfl
    apply hwrites
    rw [← hmnemonic] at hmem
    simp [writes, hmem]
  cases operation with
  | load => exact (hresult rfl (by decide) _ _).trans (hlookUp (by decide) m)
  | arithmetic f =>
    exact (hresult rfl (by cases f <;> decide) _ _).trans (hlookUp (by simp) m)
  | store | compare | jump => exact hlookUp (by decide) m
  | branch =>
    rw [effect, h.any_condition hoperation]
    split
    · exact register_lookUp_of_passes m h hr ‹_› hwrites m
    · rfl
  | call =>
    exact (hlookUp (by decide) m.pushed).trans
      (register_setRegister_of_ne hr isRegister_stackRegister (hstack (by decide)) _)
  | ret => exact register_setRegister_of_ne hr isRegister_stackRegister (hstack (by decide)) _
  | read | print | halt => rfl

/-! ## Frames -/

/-- The address that a store writes to is found by the operand of its command. -/
theorem target_run_of_store (h : c.Valid) (hoperation : c.instruction.form.operation? = some .store) :
    (target (.ofCommand c)).run m = .ok (m.lastAddress c.operands) (m.lookUp c.operands) := by
  obtain ⟨i, operands⟩ := c
  refine target_run h.inRange ?_ m
  cases h.regular with
  | storing => rfl
  | plain hop | pairing hop | combining hop | jumping hop =>
    cases hoperation
    cases hop
  | branching | stacking => cases hoperation

/-- The effect of a command on a machine that has fetched it stays within the frame of the command. -/
theorem frame_effect (h : c.Valid) (hoperation : c.instruction.form.operation? = some operation) :
    m.Frame c (m.fetched.effect operation c.operands) where
  memory hmnemonic := by
    rw [Instruction.mnemonic_eq h.standard hoperation] at hmnemonic
    rw [effect_memory]
    cases operation with
    | store | call => exact absurd (by decide) hmnemonic
    | _ => rfl
  stored hmnemonic := by
    have htable : ∀ i ∈ InstructionSet.standard.entries, i.mnemonic = "BIG" →
        i.form.operation? = some .store := by decide
    have hstore := htable _ h.standard hmnemonic
    cases hoperation.symm.trans hstore
    refine ⟨_, _, m.target_run_of_store h hstore, fun b hb => ?_⟩
    rw [effect_memory]
    exact Memory.read_write_of_ne _ _ hb
  called hmnemonic b hb := by
    have htable : ∀ i ∈ InstructionSet.standard.entries, i.mnemonic = "SBR" →
        i.form.operation? = some .call := by decide
    cases hoperation.symm.trans (htable _ h.standard hmnemonic)
    rw [← Word.cellBelow_decremented, ← Word.toAddress_eq_cellBelow] at hb
    rw [effect_memory]
    exact Memory.read_write_of_ne _ _ hb
  registers r hr hwrites := m.fetched.register_effect h hoperation hr hwrites
  pc hmnemonic hbranch := by
    rw [Instruction.mnemonic_eq h.standard hoperation] at hmnemonic hbranch
    rw [effect_pc]
    cases operation with
    | jump | call | ret => exact absurd (by decide) hmnemonic
    | branch =>
      -- where the condition is not met, nothing is done to what fetching has left
      rw [h.any_condition hoperation]
      have hpasses : m.fetched.passes c = false := hbranch rfl
      rw [hpasses]
      rfl
    | _ => rfl
  condition hmnemonic := by
    rw [Instruction.mnemonic_eq h.standard hoperation] at hmnemonic
    rw [effect_condition]
    cases operation with
    | load | store | compare | print => exact absurd hmnemonic (by decide)
    | arithmetic f => exact absurd hmnemonic (by cases f <;> decide)
    | _ => rfl
  transfers := by
    rw [effect_transfers, Instruction.mnemonic_eq h.standard hoperation]
    cases operation with
    | print => exact Array.toList_push ..
    | arithmetic f => cases f <;> exact (List.append_nil _).symm
    | _ => exact (List.append_nil _).symm
  state := by
    rw [effect_state, Instruction.mnemonic_eq h.standard hoperation]
    cases operation with
    | arithmetic f => cases f <;> rfl
    | _ => rfl

end Machine

/-- A step of a ready machine on a word that holds a command stays within the frame of the command. -/
theorem executeNext_frame {m : Machine} {c : Command} (hready : m.state = .ready)
    (hdecode : InstructionSet.standard.decode (m.memory.read m.pc) = .ok c) :
    ∃ m', Machine.executeNext.run m = .ok () m' ∧ m.Frame c m' := by
  obtain ⟨-, -, hread⟩ := InstructionSet.readFrom_of_decode hdecode
  obtain ⟨d, operation, hcommand, -, hoperation, hstepped⟩ | ⟨hnone, -⟩ := m.stepped_cases
  · obtain rfl : d = c := by
      rw [Machine.command?, hdecode] at hcommand
      exact (Option.some.inj hcommand).symm
    have hframe := m.frame_effect hread.valid hoperation
    refine ⟨m.stepped, Machine.executeNext_run hready, ?_⟩
    rw [hstepped]
    exact ⟨hframe.memory, hframe.stored, hframe.called, hframe.registers, hframe.pc,
      hframe.condition, hframe.transfers, hframe.state⟩
  · rw [Machine.command?, hdecode] at hnone
    cases hnone

/-- A store that overwrites itself with its own index register changes just that cell and that register. -/
theorem executeNext_frame_of_store_on_itself :
    ∃ m m' : Machine, m.pc = Word.zero ∧ m.memory.read m.pc = Word.wrap 1224110000 ∧
      Machine.executeNext.run m = .ok () m' ∧
      (∀ b, b ≠ m.pc → m'.memory.read b = m.memory.read b) ∧
      (∀ r, IsRegister r → r ≠ 1 → m'.register r = m.register r) ∧
      m'.pc.raw = 1 ∧ m'.transfers = #[] ∧ m'.state = .ready := by
  let m : Machine :=
    { Machine.empty with memory := Memory.empty.write Word.zero (Word.wrap 1224110000) }
  let store : Command :=
    ⟨⟨"BIG", .ofList [.registerAddress], true, .coded 12 .store none⟩,
      .registerAddress 1 .direct ⟨0, some ⟨1, some .postIncrement⟩⟩⟩
  have hdecode : InstructionSet.standard.decode (m.memory.read m.pc) = .ok store := by decide
  obtain ⟨m', hrun, hframe⟩ := executeNext_frame (m := m) rfl hdecode
  obtain ⟨a, m₁, htarget, hcells⟩ := hframe.stored rfl
  have haddress : (Machine.target (.ofCommand store)).run m = .ok m.pc (m.lookUp store.operands) := rfl
  cases htarget.symm.trans haddress
  refine ⟨m, m', rfl, by decide, hrun, hcells, fun r hr hne => ?_, ?_, ?_, hframe.state⟩
  · have hwrites : m.writes store = [1] := by decide
    refine hframe.registers r hr ?_
    rw [hwrites]
    simpa using hne
  · exact hframe.pc (by decide) fun h => absurd h (by decide)
  · exact Array.toList_inj.1 hframe.transfers

end Drama
