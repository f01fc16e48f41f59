-- SUMMARY: One step of a machine: the effect of a command or a crash, and what each of them leaves in the log.
import Drama.Proofs.Machine.Reached

/-!
# Steps

A step has the effect of the command at the program counter, or it crashes the machine if there is none
(`Machine.stepped_cases`). What is recorded of a step follows from this: its count, the address that it was taken
at, and the transfer that it makes.
-/

namespace Drama

namespace Machine

/-! ## What a step does -/

/-- The command that a step executes, if the word at the program counter holds one. -/
def command? (m : Machine) : Option Command :=
  (InstructionSet.standard.decode (m.memory.read m.pc)).toOption

/-- Whether a step executes a command of the instruction with the mnemonic. -/
def executes (m : Machine) (mnemonic : String) : Bool :=
  m.command?.any (·.instruction.mnemonic == mnemonic)

/-- A step has the effect of its command, or crashes the machine where there is none. -/
theorem stepped_cases (m : Machine) :
    (∃ c operation, m.command? = some c ∧ c.instruction ∈ InstructionSet.standard.entries ∧
      c.instruction.form.operation? = some operation ∧
      m.stepped = { m.fetched.effect operation c.operands with steps := m.steps + 1 }) ∨
    m.command? = none ∧ ∃ e, m.stepped =
      { m.fetched with state := .crashed, crash := some (.decoding e), steps := m.steps + 1 } := by
  unfold command? stepped
  cases hdecode : InstructionSet.standard.decode (m.memory.read m.pc) with
  | error e => exact .inr ⟨rfl, e, rfl⟩
  | ok c =>
    obtain ⟨hstandard, -, -⟩ := InstructionSet.readFrom_of_decode hdecode
    obtain ⟨opcode, hopcode⟩ := Option.isSome_iff_exists.1 (InstructionSet.coded_of_decode hdecode)
    obtain ⟨operation, expansion, hform⟩ := Instruction.form_of_opcode? hopcode
    have hsteps : (m.fetched.executed c).steps = m.steps := (m.fetched.sameRecords_executed c).steps
    refine .inl ⟨c, operation, rfl, hstandard, by rw [hform]; rfl, ?_⟩
    simp only [hsteps]
    simp only [executed, hform]

theorem stepped_steps (m : Machine) : m.stepped.steps = m.steps + 1 := by
  obtain ⟨c, operation, -, -, -, hstepped⟩ | ⟨-, e, hstepped⟩ := m.stepped_cases <;> rw [hstepped]

/-- A step remembers the address that it was taken at, whether there is a command or not. -/
theorem stepped_previousPc (m : Machine) : m.stepped.previousPc = some m.pc := by
  obtain ⟨c, operation, -, -, -, hstepped⟩ | ⟨-, e, hstepped⟩ := m.stepped_cases
  · rw [hstepped]
    exact (m.fetched.sameRecords_effect operation c.operands).previousPc
  · rw [hstepped]
    rfl

/-! ## Transfers -/

theorem effect_transfers (m : Machine) (operation : Operation) (operands : Operands) :
    (m.effect operation operands).transfers =
      if operation = .print then m.transfers.push (.output (m.register 0)) else m.transfers := by
  have hlookUp (m : Machine) : (m.lookUp operands).transfers = m.transfers := by
    rw [m.lookUp_eq operands]
  cases operation with
  | load | store | arithmetic | compare | jump => exact hlookUp m
  | branch =>
    rw [effect]
    split
    · exact hlookUp m
    · rfl
  | call => exact hlookUp m.pushed
  | ret | read | print | halt => rfl

/-- The mnemonics of the operations that a log of transfers tells of. -/
theorem operation?_of_mnemonic {i : Instruction} (h : i ∈ InstructionSet.standard.entries)
    {operation : Operation} (hoperation : i.form.operation? = some operation) :
    (i.mnemonic = "LEZ" ↔ operation = .read) ∧ (i.mnemonic = "DRU" ↔ operation = .print) := by
  have htable : ∀ i ∈ InstructionSet.standard.entries,
      (i.mnemonic = "LEZ" ↔ i.form.operation? = some .read) ∧
        (i.mnemonic = "DRU" ↔ i.form.operation? = some .print) := by decide
  simpa only [hoperation, Option.some.injEq] using htable i h

/-- What a step adds to the log. -/
def printed (m : Machine) : List Transfer :=
  if m.executes "DRU" then [.output (m.register 0)] else []

theorem stepped_transfers (m : Machine) :
    m.stepped.transfers.toList = m.transfers.toList ++ m.printed := by
  unfold printed executes
  obtain ⟨c, operation, hcommand, hstandard, hoperation, hstepped⟩ | ⟨hcommand, e, hstepped⟩ :=
    m.stepped_cases
  · obtain ⟨-, hprint⟩ := operation?_of_mnemonic hstandard hoperation
    rw [hstepped, hcommand]
    show (m.fetched.effect operation c.operands).transfers.toList = _
    rw [effect_transfers]
    by_cases h : operation = .print
    · simp [h, hprint.2 h, fetched, register]
    · simp [h, mt hprint.1 h, fetched]
  · rw [hstepped, hcommand]
    simp [fetched]

/-- A machine that was ready waits for input after a step that reads, and no other. -/
theorem stepped_state_waiting_iff {m : Machine} (h : m.state = .ready) :
    m.stepped.state = .waitingForInput ↔ m.executes "LEZ" := by
  unfold executes
  obtain ⟨c, operation, hcommand, hstandard, hoperation, hstepped⟩ | ⟨hcommand, e, hstepped⟩ :=
    m.stepped_cases
  · obtain ⟨hread, -⟩ := operation?_of_mnemonic hstandard hoperation
    have hready : m.fetched.state = .ready := h
    rw [hstepped, hcommand]
    show (m.fetched.effect operation c.operands).state = _ ↔ _
    rw [effect_state, hready, Option.any_some, beq_iff_eq, hread]
    cases operation <;> simp
  · rw [hstepped, hcommand]
    simp

end Machine

end Drama
