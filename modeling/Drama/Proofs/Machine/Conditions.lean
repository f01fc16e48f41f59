-- SUMMARY: What the condition register tells: the sign recorded last, in the course of calls.
import Drama.Proofs.Machine.Frame
import Drama.Proofs.Machine.Transfers

/-!
# The condition register

Some commands record a sign: those that leave a result in a register or store one, comparisons, and printing. So
does input. `Machine.sign?` is the sign that a call records, if any, and the condition register holds the last
one of all calls since the machine was loaded. Index registers are stepped and the stack register is moved
without a record.
-/

namespace Drama

/-! ## Signs recorded by calls -/

/-- The sign that a command records, between the machine before and after it: that of the word now in its
register, or the order of that word and the operand. -/
def Command.sign? (c : Command) (m m' : Machine) : Option Sign :=
  if c.instruction.mnemonic ∈ "BIG" :: resultMnemonics then
    c.operands.register?.map fun r => .ofWord (m'.register r)
  else if c.instruction.mnemonic = "VGL" then
    match c.operands.register?, (Machine.secondOperand (.ofCommand c)).run m with
    | some r, .ok operand _ => some (.ofComparison (m'.register r).signed operand.signed)
    | _, _ => none
  else if c.instruction.mnemonic = "DRU" then some (.ofWord (m'.register 0))
  else none

namespace Machine

/-- The sign that a call records, which is none if the machine refuses the call. -/
def sign? (m : Machine) (call : Call) : Option Sign :=
  match call, call.action.run m with
  | .executeNext, .ok _ m' => m.command?.bind (·.sign? m m')
  | .provideInput _, .ok _ m' => some (.ofWord (m'.register 0))
  | _, .error _ _ => none

/-- The machine that calls leave behind, whatever becomes of each of them. -/
def leftAll (m : Machine) (calls : List Call) : Machine :=
  calls.foldl (fun m call => m.left call.action) m

/-- The signs that calls record, in order. -/
def signs (m : Machine) : List Call → List Sign
  | [] => []
  | call :: calls => (m.sign? call).toList ++ (m.left call.action).signs calls

/-! ## Single calls -/

variable {m : Machine} {c : Command} {operation : Operation}

/-- The value that a command combines with its register, found before the register changes. -/
theorem secondOperand_run (h : c.Valid) (hoperation : c.instruction.form.operation? = some operation)
    (hvalue : operation.takesValue) (m : Machine) :
    (secondOperand (.ofCommand c)).run m = .ok (m.lastValue c.operands) (m.lookUp c.operands) := by
  cases h.regular with
  | pairing _ _ hs => exact secondOperand_registers_run hs m
  | combining _ _ ho => exact secondOperand_address_run ho m
  | plain hop | jumping hop =>
    cases hoperation
    cases operation <;> cases hop <;> cases hvalue
  | storing | branching =>
    cases hoperation
    cases hvalue
  | stacking => cases hoperation

theorem valid_of_command? (h : m.command? = some c) : c.Valid := by
  cases hdecode : InstructionSet.standard.decode (m.memory.read m.pc) with
  | error e =>
    rw [command?, hdecode] at h
    cases h
  | ok d =>
    rw [command?, hdecode] at h
    cases h
    obtain ⟨-, -, hread⟩ := InstructionSet.readFrom_of_decode hdecode
    exact hread.valid

/-- The condition register after the effect of a command holds the sign that the command records. -/
theorem condition_effect (h : c.Valid) (hoperation : c.instruction.form.operation? = some operation) :
    (m.fetched.effect operation c.operands).condition =
      (c.sign? m (m.fetched.effect operation c.operands)).getD m.condition := by
  have hmnemonic := Instruction.mnemonic_eq h.standard hoperation
  rw [effect_condition, Command.sign?, hmnemonic]
  cases operation with
  | load =>
    obtain ⟨r, -, hregister⟩ := h.exists_register hoperation rfl
    have hresult : (m.fetched.effect .load c.operands).register r = m.fetched.lastValue c.operands := by
      simp only [effect, hregister, Option.getD_some, register_loadRegister]
    rw [if_pos (by decide), hregister]
    exact congrArg Sign.ofWord hresult.symm
  | arithmetic f =>
    obtain ⟨r, -, hregister⟩ := h.exists_register hoperation rfl
    have hresult : (m.fetched.effect (.arithmetic f) c.operands).register r =
        f.apply ((m.fetched.lookUp c.operands).register r) (m.fetched.lastValue c.operands).signed := by
      simp only [effect, hregister, Option.getD_some, register_loadRegister]
    rw [if_pos (by cases f <;> decide), hregister]
    exact congrArg Sign.ofWord hresult.symm
  | store =>
    obtain ⟨r, -, hregister⟩ := h.exists_register hoperation rfl
    rw [if_pos (by decide), hregister]
    rfl
  | compare =>
    -- the operand is found first, so an index register is compared as it has been stepped
    obtain ⟨r, -, hregister⟩ := h.exists_register hoperation rfl
    rw [if_neg (by decide), if_pos (by decide), secondOperand_run h hoperation rfl m, hregister]
    rfl
  | jump | branch | call | ret | read | print | halt => rfl

/-- A call leaves the sign that it records in the condition register, and else the register as it was. -/
theorem condition_left (m : Machine) (call : Call) :
    (m.left call.action).condition = (m.sign? call).getD m.condition := by
  by_cases hstate : m.state = call.state
  · have hrun := Call.run_of_state hstate
    rw [left_of_ok hrun]
    cases call with
    | provideInput w =>
      have hregister : (m.supplied w).register 0 = w := m.register_loadRegister 0 w
      simp only [sign?, hrun, Call.result, hregister]
      rfl
    | executeNext =>
      simp only [sign?, hrun, Call.result]
      obtain ⟨c, operation, hcommand, -, hoperation, hstepped⟩ | ⟨hnone, e, hstepped⟩ :=
        m.stepped_cases
      · rw [hcommand, hstepped]
        exact condition_effect (valid_of_command? hcommand) hoperation
      · rw [hnone, hstepped]
        rfl
  · have hrun := Call.run_of_state_ne hstate
    rw [left_of_error hrun]
    cases call <;> simp only [sign?, hrun] <;> rfl

/-! ## Many calls -/

/-- The condition register holds the last sign that calls record, if they record any. -/
theorem condition_leftAll (m : Machine) (calls : List Call) :
    (m.leftAll calls).condition = (m.signs calls).getLast?.getD m.condition := by
  induction calls generalizing m with
  | nil => rfl
  | cons call calls ih =>
    have hlater := ih (m.left call.action)
    rw [condition_left] at hlater
    show ((m.left call.action).leftAll calls).condition = _
    rw [hlater, signs, List.getLast?_append]
    cases (m.sign? call) <;> cases ((m.left call.action).signs calls).getLast? <;> rfl

end Machine

/-- Whatever calls are made after a machine was loaded, the condition register holds the sign that was
recorded last, and zero if none was. -/
theorem condition_of_loaded {start : Machine} (hstart : start.Loaded) (calls : List Machine.Call) :
    (start.leftAll calls).condition = (start.signs calls).getLast?.getD .zero := by
  obtain ⟨program, memory, rfl⟩ := hstart.exists_eq
  exact Machine.condition_leftAll _ calls

/-- A word is read and compared with itself, while it is counted down. The jump that follows, the crash it ends
in and the refused calls leave the outcome of the comparison. -/
theorem condition_of_loaded_comparison :
    ∃ start, (Machine.load [Word.wrap 7100000000, Word.wrap 3116000000, Word.wrap 3221000003]).run
        Machine.empty = .ok () start ∧
      ∃ calls : List Machine.Call, start.signs calls = [.positive, .negative] ∧
        (start.leftAll calls).state = .crashed ∧ (start.leftAll calls).condition = .negative := by
  have hle : ([Word.wrap 7100000000, Word.wrap 3116000000, Word.wrap 3221000003] :
    List MachineWord).length ≤ addressSpace := by decide
  have hstart := Machine.load_run hle Machine.empty
  let calls : List Machine.Call :=
    [.provideInput (Word.wrap 1), .executeNext, .executeNext, .provideInput (Word.wrap 5),
      .executeNext, .executeNext, .executeNext]
  have hcondition := condition_of_loaded (.inl ⟨_, _, hstart⟩) calls
  exact ⟨_, hstart, calls, by decide +kernel, by decide +kernel, hcondition.trans (by decide +kernel)⟩

end Drama
