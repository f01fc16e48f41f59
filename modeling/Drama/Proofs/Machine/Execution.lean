-- SUMMARY: Executing valid commands: expansion to the native form, and that no execution ends in a fault.
import Drama.Proofs.Command.Decoding
import Drama.Proofs.Machine.Effect

/-!
# Executing commands

Executing a valid command carries out the operation of its native form. The outcome is a machine
(`Machine.executed`), never a fault, and a command alone never crashes the machine.
-/

namespace Drama

namespace Machine

/-! ## Commands and their native forms -/

/-- The machine after a command with an opcode. -/
def executed (m : Machine) (c : Command) : Machine :=
  match c.instruction.form with
  | .coded _ operation _ => m.effect operation c.operands
  | .derived _ _ => m

theorem checkShapes_run {c : Command} (h : c.instruction.shapes.contains c.operands.shape = true)
    (m : Machine) : (checkShapes (.ofCommand c)).run m = .ok () m := by
  have hmeets : (Draft.ofCommand c).instruction.shapes.meets (Draft.ofCommand c).shapes = true := h
  rw [checkShapes, if_pos hmeets]
  rfl

/-- A command with an opcode is carried out at once, however many expansions are left. -/
theorem executeWithin_coded {set : InstructionSet} {c : Command}
    (h : c.instruction.shapes.contains c.operands.shape = true) {opcode : Fin 100}
    {operation : Operation} {expansion : Option Expansion}
    (hform : c.instruction.form = .coded opcode operation expansion) (expansions : Nat)
    (m : Machine) :
    (executeWithin set expansions (.ofCommand c)).run m =
      (operate operation (.ofCommand c)).run m := by
  unfold executeWithin
  rw [run_bind (checkShapes_run h m)]
  simp only [Draft.ofCommand, hform]

/-- A command without an opcode is executed as its native form, which takes one expansion. -/
theorem executeWithin_derived {set : InstructionSet} {c n : Command}
    (h : c.instruction.shapes.contains c.operands.shape = true) {expansion : Expansion}
    {operation : Option Operation} (hform : c.instruction.form = .derived expansion operation)
    (hnative : c.native set = .ok n) (expansions : Nat) (m : Machine) :
    (executeWithin set (expansions + 1) (.ofCommand c)).run m =
      (executeWithin set expansions (.ofCommand n)).run m := by
  have hexpand : (expand set expansion (.ofCommand c)).run m = .ok n m := by
    simp only [Command.native, hform] at hnative
    simp only [expand, Draft.ofCommand, Operands.parts, hnative]
    rfl
  conv => lhs; unfold executeWithin
  rw [run_bind (checkShapes_run h m)]
  simp only [Draft.ofCommand, hform]
  exact run_bind hexpand _

/-- Executing a valid command does what its native form does. -/
theorem execute_run {c n : Command} (h : c.Valid) (hnative : c.native .standard = .ok n)
    (m : Machine) : (execute .standard c).run m = .ok () (m.executed n) := by
  obtain ⟨n', hn', hvalid, hcoded⟩ := h.exists_native
  obtain rfl : n' = n := Except.ok.inj (hn'.symm.trans hnative)
  obtain ⟨opcode, hopcode⟩ := Option.isSome_iff_exists.1 hcoded
  obtain ⟨operation, expansion, hform⟩ := Instruction.form_of_opcode? hopcode
  have hrun (expansions : Nat) :
      (executeWithin .standard expansions (.ofCommand n')).run m = .ok () (m.executed n') := by
    rw [executeWithin_coded hvalid.accepted hform, operate_run hvalid hform]
    simp only [executed, hform]
  cases hc : c.instruction.form with
  | coded =>
    obtain rfl : c = n' := by
      simp only [Command.native, hc] at hnative
      exact Except.ok.inj hnative
    exact hrun _
  | derived =>
    -- the native form has an opcode, so one of the expansions is all that is used
    show (executeWithin .standard (InstructionSet.standard.entries.length + 1) _).run m = _
    rw [executeWithin_derived h.accepted hc hnative]
    exact hrun _

/-- The command in a word has an opcode, so it is carried out as it stands. -/
theorem execute_of_decode {w : MachineWord} {c : Command}
    (h : InstructionSet.standard.decode w = .ok c) (m : Machine) :
    (execute .standard c).run m = .ok () (m.executed c) := by
  obtain ⟨-, -, hread⟩ := InstructionSet.readFrom_of_decode h
  exact execute_run hread.valid (Command.native_of_opcode (InstructionSet.coded_of_decode h) _) m

/-! ## What commands do not touch -/

/-- Two machines that agree on what no command touches. -/
structure SameRecords (m m' : Machine) : Prop where
  program : m'.program = m.program
  previousPc : m'.previousPc = m.previousPc
  crash : m'.crash = m.crash
  steps : m'.steps = m.steps

theorem sameRecords_lookUp (m : Machine) (operands : Operands) :
    m.SameRecords (m.lookUp operands) := by
  rw [m.lookUp_eq operands]
  exact ⟨rfl, rfl, rfl, rfl⟩

theorem sameRecords_effect (m : Machine) (operation : Operation) (operands : Operands) :
    m.SameRecords (m.effect operation operands) := by
  have hlookUp := m.sameRecords_lookUp operands
  cases operation with
  | load | arithmetic | store | compare | jump =>
    exact ⟨hlookUp.program, hlookUp.previousPc, hlookUp.crash, hlookUp.steps⟩
  | branch =>
    rw [effect]
    split
    · exact ⟨hlookUp.program, hlookUp.previousPc, hlookUp.crash, hlookUp.steps⟩
    · exact ⟨rfl, rfl, rfl, rfl⟩
  | call =>
    have hpushed := m.pushed.sameRecords_lookUp operands
    exact ⟨hpushed.program, hpushed.previousPc, hpushed.crash, hpushed.steps⟩
  | ret | read | print | halt => exact ⟨rfl, rfl, rfl, rfl⟩

theorem sameRecords_executed (m : Machine) (c : Command) : m.SameRecords (m.executed c) := by
  unfold executed
  split
  · exact m.sameRecords_effect _ _
  · exact ⟨rfl, rfl, rfl, rfl⟩

/-! ## States -/

/-- An operation leaves the machine in its state, unless it reads or halts. -/
theorem effect_state (m : Machine) (operation : Operation) (operands : Operands) :
    (m.effect operation operands).state =
      match operation with
      | .read => .waitingForInput
      | .halt => .halted
      | _ => m.state := by
  have hlookUp (m : Machine) := congrArg state (m.lookUp_eq operands)
  cases operation with
  | load | arithmetic | store | compare | jump => exact hlookUp m
  | call => exact hlookUp m.pushed
  | branch =>
    rw [effect]
    split
    · exact hlookUp m
    · rfl
  | ret | print | read | halt => rfl

/-- Commands do not crash the machine. -/
theorem executed_state_ne_crashed {m : Machine} (h : m.state ≠ .crashed) (c : Command) :
    (m.executed c).state ≠ .crashed := by
  unfold executed
  split
  · rw [effect_state]
    split
    · decide
    · decide
    · exact h
  · exact h

end Machine

end Drama
