-- SUMMARY: What each operation makes of a machine, as a function, and that carrying the operation out does just that.
import Drama.Machine.Step
import Drama.Proofs.Command.Resolution

/-!
# The effect of commands

`Machine.effect` is the machine after an operation on some operands. For operands in range, carrying out
the operation never ends in a fault and leaves exactly that machine, so facts about what a command does
are facts about a function.
-/

namespace Drama

namespace Machine

/-! ## Runs of actions -/

/-- An action that succeeds hands its result and its machine on. -/
theorem run_bind {α β : Type} {action : MachineM α} {m m' : Machine} {a : α}
    (h : action.run m = .ok a m') (next : α → MachineM β) :
    (action >>= next).run m = (next a).run m' := by
  unfold EStateM.run at h ⊢
  simp only [bind, EStateM.bind, h]

/-- An action that ends in a fault keeps the next one from being carried out. -/
theorem run_bind_error {α β : Type} {action : MachineM α} {m m' : Machine} {fault : Fault}
    (h : action.run m = .error fault m') (next : α → MachineM β) :
    (action >>= next).run m = .error fault m' := by
  unfold EStateM.run at h ⊢
  simp only [bind, EStateM.bind, h]

theorem run_get (m : Machine) : (get : MachineM Machine).run m = .ok m m := rfl

/-! ## Registers -/

/-- The place of a register, for numbers from 0 to 9. -/
def slot (number : Int) : Fin registerCount :=
  ⟨number.toNat % registerCount, Nat.mod_lt _ (by decide)⟩

def register (m : Machine) (number : Int) : MachineWord := m.registers[slot number]

def setRegister (m : Machine) (number : Int) (w : MachineWord) : Machine :=
  { m with registers := m.registers.set (slot number) w }

/-- The machine with a word in a register and its sign in the condition register. -/
def loadRegister (m : Machine) (number : Int) (w : MachineWord) : Machine :=
  { m.setRegister number w with condition := .ofWord w }

@[simp] theorem register_setRegister (m : Machine) (number : Int) (w : MachineWord) :
    (m.setRegister number w).register number = w := by
  simp [register, setRegister]

@[simp] theorem register_loadRegister (m : Machine) (number : Int) (w : MachineWord) :
    (m.loadRegister number w).register number = w :=
  m.register_setRegister number w

theorem slot_injective {r s : Int} (hr : IsRegister r) (hs : IsRegister s) (h : slot r = slot s) :
    r = s := by
  have hval : r.toNat % registerCount = s.toNat % registerCount := congrArg Fin.val h
  have hmod {n : Nat} (hn : n < registerCount) : n % registerCount = n := Nat.mod_eq_of_lt hn
  obtain ⟨hr₀, hr₉⟩ := hr
  obtain ⟨hs₀, hs₉⟩ := hs
  rw [hmod (by simp only [registerCount]; omega), hmod (by simp only [registerCount]; omega)] at hval
  omega

theorem register_setRegister_of_ne {m : Machine} {r s : Int} (hr : IsRegister r) (hs : IsRegister s)
    (h : r ≠ s) (w : MachineWord) : (m.setRegister s w).register r = m.register r := by
  have hslot : (slot s).val ≠ (slot r).val := fun heq => h (slot_injective hr hs (Fin.ext heq.symm))
  simp only [register, setRegister, Fin.getElem_fin, Vector.getElem_set_ne _ _ hslot]

theorem findRegister_run {number : Int} (h : IsRegister number) (m : Machine) :
    (findRegister number).run m = .ok (slot number) m := by
  obtain ⟨h₀, h₉⟩ := h
  have hplace : place? registerCount number = some (slot number) := by
    have hlt : number < registerCount := by simp only [registerCount]; omega
    have hmod : number.toNat % registerCount = number.toNat := Nat.mod_eq_of_lt (by omega)
    simp only [place?, if_neg (Int.not_lt.2 h₀), dif_pos (And.intro h₀ hlt), slot, hmod]
  simp only [findRegister, hplace]
  rfl

theorem peekRegister_run {number : Int} (h : IsRegister number) (m : Machine) :
    (peekRegister number).run m = .ok (m.register number) m := by
  rw [peekRegister, run_bind (findRegister_run h m)]
  rfl

theorem putRegister_run {number : Int} (h : IsRegister number) (w : MachineWord) (m : Machine) :
    (putRegister number w).run m = .ok () (m.setRegister number w) := by
  rw [putRegister, run_bind (findRegister_run h m)]
  rfl

theorem readRegister_run {number : Int} (h : IsRegister number) (m : Machine) :
    (readRegister number).run m =
      .ok (m.register number) { m with condition := .ofWord (m.register number) } := by
  rw [readRegister, run_bind (peekRegister_run h m)]
  rfl

theorem writeRegister_run {number : Int} (h : IsRegister number) (w : MachineWord) (m : Machine) :
    (writeRegister number w).run m = .ok () (m.loadRegister number w) := by
  rw [writeRegister, run_bind (putRegister_run h w m)]
  rfl

/-! ## Operands -/

/-- The word that a modification makes of the word in its register. -/
def stepWord (modification : Modification) (w : MachineWord) : MachineWord :=
  if modification.step > 0 then w.incremented else w.decremented

/-- The machine after an index register has been used. -/
def stepIndex (m : Machine) : Option Index → Machine
  | some ⟨r, some modification⟩ => m.setRegister r (stepWord modification (m.register r))
  | _ => m

/-- What an index register adds to a base. -/
def indexValue (m : Machine) : Option Index → Int
  | none => 0
  | some ⟨r, none⟩ => (m.register r).signed
  | some ⟨r, some modification⟩ =>
    if modification.isPre then (stepWord modification (m.register r)).signed
    else (m.register r).signed

/-- The word that an operand makes of its base and its index register. -/
def sum (m : Machine) (o : Operand) : MachineWord := Word.wrap (o.base + m.indexValue o.index)

/-- The word that an operand stands for in a mode. -/
def valueOf (m : Machine) (mode : AddressingMode) (o : Operand) : MachineWord :=
  match mode with
  | .value => m.sum o
  | .address => (m.sum o).toAddress.toMachine
  | .direct => m.memory.read (m.sum o).toAddress
  | .indirect => m.memory.read (m.memory.read (m.sum o).toAddress).toAddress

/-- The address that an operand leads to in a mode. -/
def addressOf (m : Machine) (mode : AddressingMode) (o : Operand) : AddressWord :=
  if mode = .indirect then (m.memory.read (m.sum o).toAddress).toAddress else (m.sum o).toAddress

/-- Using an index register changes registers only. -/
theorem stepIndex_eq (m : Machine) (index : Option Index) :
    m.stepIndex index = { m with registers := (m.stepIndex index).registers } := by
  unfold stepIndex
  split <;> rfl

theorem stepIndex_memory (m : Machine) (index : Option Index) :
    (m.stepIndex index).memory = m.memory := by
  rw [m.stepIndex_eq index]

theorem stepRegister_run {number : Int} (h : IsRegister number) (modification : Modification)
    (m : Machine) :
    (stepRegister number modification.step).run m =
      .ok () (m.setRegister number (stepWord modification (m.register number))) := by
  rw [stepRegister, run_bind (peekRegister_run h m)]
  exact putRegister_run h _ m

theorem evaluate_run {o : Operand} (ho : o.InRange) (m : Machine) :
    (evaluate o).run m = .ok (m.sum o) (m.stepIndex o.index) := by
  obtain ⟨base, index⟩ := o
  cases index with
  | none => simp only [sum, indexValue, Int.add_zero]; rfl
  | some index =>
    obtain ⟨r, modification⟩ := index
    have hr : IsRegister r := ho _ rfl
    cases modification with
    | none =>
      simp only [evaluate]
      rw [run_bind (peekRegister_run hr m)]
      rfl
    | some modification =>
      cases hpre : modification.isPre with
      | true =>
        simp only [evaluate, hpre, if_true, Bool.not_true, Bool.false_eq_true, if_false, sum,
          indexValue, stepIndex]
        rw [run_bind (stepRegister_run hr modification m), run_bind (peekRegister_run hr _),
          register_setRegister]
        rfl
      | false =>
        simp only [evaluate, hpre, if_true, Bool.not_false, Bool.false_eq_true, if_false, sum,
          indexValue, stepIndex]
        rw [run_bind (peekRegister_run hr m), run_bind (stepRegister_run hr modification m)]
        rfl

theorem operandValue_run {o : Operand} (ho : o.InRange) (mode : AddressingMode) (m : Machine) :
    (operandValue (some mode) o).run m = .ok (m.valueOf mode o) (m.stepIndex o.index) := by
  have hmemory := m.stepIndex_memory o.index
  rw [operandValue, run_bind (evaluate_run ho m)]
  cases mode with
  | value | address => rfl
  | direct =>
    rw [valueOf, ← hmemory]
    rfl
  | indirect =>
    rw [valueOf, ← hmemory]
    rfl

theorem destination_run {o : Operand} (ho : o.InRange) (mode : AddressingMode) (m : Machine) :
    (destination (some mode) o).run m = .ok (m.addressOf mode o) (m.stepIndex o.index) := by
  have hmemory := m.stepIndex_memory o.index
  rw [destination, run_bind (evaluate_run ho m), addressOf, ← hmemory]
  cases mode <;> rfl

/-! ## Operations -/

/-- The word that the last operand stands for, zero where there is none. -/
def lastValue (m : Machine) : Operands → MachineWord
  | .registers _ s => m.register s
  | .address mode o | .registerAddress _ mode o | .conditionAddress _ mode o => m.valueOf mode o
  | .nullary | .register _ => Word.zero

/-- The address that the last operand leads to, zero where it is no operand in memory. -/
def lastAddress (m : Machine) : Operands → AddressWord
  | .address mode o | .registerAddress _ mode o | .conditionAddress _ mode o => m.addressOf mode o
  | .nullary | .register _ | .registers _ _ => Word.zero

/-- The machine after the last operand has been looked up. -/
def lookUp (m : Machine) : Operands → Machine
  | .address _ o | .registerAddress _ _ o | .conditionAddress _ _ o => m.stepIndex o.index
  | .nullary | .register _ | .registers _ _ => m

/-- Looking an operand up changes registers only. -/
theorem lookUp_eq (m : Machine) (operands : Operands) :
    m.lookUp operands = { m with registers := (m.lookUp operands).registers } := by
  cases operands with
  | nullary | register | registers => rfl
  | address | registerAddress | conditionAddress => exact m.stepIndex_eq _

theorem lookUp_memory (m : Machine) (operands : Operands) :
    (m.lookUp operands).memory = m.memory := by
  rw [m.lookUp_eq operands]

/-- The machine with the address of its next command on the stack. -/
def pushed (m : Machine) : Machine :=
  let stack := (m.register stackRegister).decremented
  { m.setRegister stackRegister stack with
    memory := m.memory.write stack.toAddress m.pc.toMachine }

/-- The machine that goes on at the address that was on top of its stack. -/
def popped (m : Machine) : Machine :=
  let stack := m.register stackRegister
  { m.setRegister stackRegister stack.incremented with
    pc := (m.memory.read stack.toAddress).toAddress }

/-- What an operation does with the first register among the operands, the value and the address of the
last operand. -/
def effect (m : Machine) (operation : Operation) (operands : Operands) : Machine :=
  let r := operands.register?.getD 0
  match operation with
  | .load => (m.lookUp operands).loadRegister r (m.lastValue operands)
  | .store =>
    let w := (m.lookUp operands).register r
    { m.lookUp operands with
      condition := .ofWord w
      memory := m.memory.write (m.lastAddress operands) w }
  | .arithmetic f =>
    let w := (m.lookUp operands).register r
    (m.lookUp operands).loadRegister r (f.apply w (m.lastValue operands).signed)
  | .compare =>
    let w := (m.lookUp operands).register r
    { m.lookUp operands with
      condition := .ofComparison w.signed (m.lastValue operands).signed }
  | .jump => { m.lookUp operands with pc := m.lastAddress operands }
  | .branch =>
    if operands.condition?.any m.condition.satisfies then
      { m.lookUp operands with pc := m.lastAddress operands }
    else m
  | .call => { m.pushed.lookUp operands with pc := m.pushed.lastAddress operands }
  | .ret => m.popped
  | .read => { m with state := .waitingForInput }
  | .print =>
    { m with
      condition := .ofWord (m.register 0)
      transfers := m.transfers.push (.output (m.register 0)) }
  | .halt => { m with state := .halted }

theorem secondOperand_registers_run {i : Instruction} {r s : Int} (hs : IsRegister s)
    (m : Machine) :
    (secondOperand (.ofCommand ⟨i, .registers r s⟩)).run m = .ok (m.register s) m := by
  have hsingle : (Draft.ofCommand ⟨i, .registers r s⟩).shapes.single? = some .registers :=
    ShapeSet.single?_bit _
  rw [secondOperand, if_pos hsingle]
  exact peekRegister_run hs m

theorem secondOperand_address_run {i : Instruction} {r : Int} {mode : AddressingMode} {o : Operand}
    (ho : o.InRange) (m : Machine) :
    (secondOperand (.ofCommand ⟨i, .registerAddress r mode o⟩)).run m =
      .ok (m.valueOf mode o) (m.stepIndex o.index) := by
  have hsingle :
      (Draft.ofCommand ⟨i, .registerAddress r mode o⟩).shapes.single? = some .registerAddress :=
    ShapeSet.single?_bit _
  rw [secondOperand, hsingle, if_neg (by decide)]
  exact operandValue_run ho mode m

/-- The machine after a command that combines a register with a value. -/
theorem operate_value_run {operation : Operation} (h : operation.takesValue) {i : Instruction}
    {operands : Operands} {r : Int} (hr : IsRegister r) (hregister : operands.register? = some r)
    {m : Machine}
    (hvalue : (secondOperand (.ofCommand ⟨i, operands⟩)).run m =
      .ok (m.lastValue operands) (m.lookUp operands)) :
    (operate operation (.ofCommand ⟨i, operands⟩)).run m =
      .ok () (m.effect operation operands) := by
  have hpart : (Draft.ofCommand ⟨i, operands⟩).parts.register = some r := hregister
  cases operation with
  | load =>
    simp only [operate, effect, hregister, Option.getD_some]
    rw [run_bind hvalue, writePart, hpart]
    exact writeRegister_run hr _ _
  | arithmetic f =>
    simp only [operate, effect, hregister, Option.getD_some, hpart, require]
    rw [run_bind hvalue]
    show (peekRegister r >>= _).run _ = _
    rw [run_bind (peekRegister_run hr _)]
    exact writeRegister_run hr _ _
  | compare =>
    simp only [operate, effect, hregister, Option.getD_some, hpart, require]
    rw [run_bind hvalue]
    show (peekRegister r >>= _).run _ = _
    rw [run_bind (peekRegister_run hr _)]
    rfl
  | store | jump | branch | call | ret | read | print | halt => cases h

theorem target_run {i : Instruction} {operands : Operands} (ho : operands.InRange)
    (haddress : operands.shape.hasAddress = true) (m : Machine) :
    (target (.ofCommand ⟨i, operands⟩)).run m =
      .ok (m.lastAddress operands) (m.lookUp operands) := by
  cases operands with
  | address mode o => exact destination_run ho mode m
  | registerAddress r mode o => exact destination_run ho.2 mode m
  | conditionAddress c mode o => exact destination_run ho mode m
  | nullary | register | registers => cases haddress

theorem pushReturnAddress_run (m : Machine) : pushReturnAddress.run m = .ok () m.pushed := by
  have hr : IsRegister stackRegister := by decide
  rw [pushReturnAddress, run_bind (peekRegister_run hr m), run_bind (putRegister_run hr _ m)]
  rfl

theorem popReturnAddress_run (m : Machine) : popReturnAddress.run m = .ok () m.popped := by
  have hr : IsRegister stackRegister := by decide
  rw [popReturnAddress, run_bind (peekRegister_run hr m)]
  exact putRegister_run hr _ _

/-- Carrying out the operation of a valid command with an opcode leaves its effect. -/
theorem operate_run {c : Command} (h : c.Valid) {opcode : Fin 100} {operation : Operation}
    {expansion : Option Expansion} (hform : c.instruction.form = .coded opcode operation expansion)
    (m : Machine) :
    (operate operation (.ofCommand c)).run m = .ok () (m.effect operation c.operands) := by
  cases h.regular with
  | plain hop =>
    cases hform
    cases operation with
    | ret => exact popReturnAddress_run m
    | read | halt => rfl
    | print =>
      rw [operate, run_bind (readRegister_run (by decide) m)]
      rfl
    | load | store | arithmetic | compare | jump | branch | call => cases hop
  | pairing hop hr hs =>
    cases hform
    exact operate_value_run hop hr rfl (secondOperand_registers_run hs m)
  | combining hop hr ho =>
    cases hform
    exact operate_value_run hop hr rfl (secondOperand_address_run ho m)
  | storing hmode hr ho =>
    cases hform
    -- the register is read after its use as an index, the memory that is written is the old one
    rw [operate, run_bind (target_run h.inRange rfl m)]
    show (readRegister _ >>= _).run _ = _
    rw [run_bind (readRegister_run hr _), effect, ← m.lookUp_memory]
    rfl
  | @jumping _ _ _ mode o hop hmode ho =>
    cases hform
    cases operation with
    | jump =>
      rw [operate, run_bind (target_run h.inRange rfl m)]
      rfl
    | call =>
      rw [operate, run_bind (pushReturnAddress_run m), run_bind (target_run h.inRange rfl _)]
      rfl
    | load | store | arithmetic | compare | branch | ret | read | print | halt => cases hop
  | @branching _ _ condition mode o hmode ho =>
    cases hform
    have hcondition : (require .condition (some condition)).run m = .ok condition m := rfl
    rw [operate, effect]
    show (require .condition (some condition) >>= _).run m = _
    rw [run_bind hcondition, run_bind (run_get m)]
    by_cases hsatisfied : m.condition.satisfies condition = true
    · rw [if_pos hsatisfied, run_bind (target_run h.inRange rfl m), if_pos]
      · rfl
      · simpa [Operands.condition?] using hsatisfied
    · rw [if_neg hsatisfied, if_neg]
      · rfl
      · simpa [Operands.condition?] using hsatisfied
  | stacking => cases hform

end Machine

end Drama
