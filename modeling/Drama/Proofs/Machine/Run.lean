-- SUMMARY: Runs: how one step of a run goes, that runs compose, and that they do not look at the program a machine knows.
import Drama.Proofs.Machine.LifeCycle

/-!
# Runs

One round of a run is a step, taken after the machine has been given a word if it waits for one. A run stops in
every other state. So a run can be cut after any number of steps: what is left of it is a run on the input that
has not been given yet, however the first part ended. The program that a machine knows, which is there for display
only, has no influence on a run.
-/

namespace Drama

/-- Whether a transfer is a word that the machine was given. -/
def Transfer.isInput : Transfer → Bool
  | .input _ => true
  | .output _ => false

namespace Machine

/-! ## Rounds -/

section

variable {m : Machine} (limit : Nat)

theorem run_succ_of_ready (h : m.state = .ready) (inputs : List Int) :
    (run (limit + 1) inputs).run m = (run limit inputs).run m.stepped := by
  rw [run, run_bind (run_get m), h]
  exact run_bind (executeNext_run h) _

theorem run_succ_of_waiting (h : m.state = .waitingForInput) (value : Int) (rest : List Int) :
    (run (limit + 1) (value :: rest)).run m =
      (run limit rest).run (m.supplied (Word.wrap value)).stepped := by
  have hstep := executeNext_run (m := m.supplied (Word.wrap value)) rfl
  rw [run, run_bind (run_get m), h]
  show (provideInput (Word.wrap value) >>= _).run m = _
  rw [run_bind (provideInput_run h (Word.wrap value))]
  exact run_bind hstep _

/-- Where a run does nothing, whatever its limit: there is no step to take, and no input to go on with. -/
def Stops (m : Machine) (inputs : List Int) : Prop :=
  m.state ≠ .ready ∧ (m.state = .waitingForInput → inputs = [])

theorem Stops.run {inputs : List Int} (h : m.Stops inputs) :
    (run limit inputs).run m = .ok () m := by
  cases limit with
  | zero => rfl
  | succ limit =>
    rw [Machine.run, run_bind (run_get m)]
    cases hstate : m.state with
    | ready => exact absurd hstate h.1
    | waitingForInput =>
      rw [h.2 hstate]
      rfl
    | crashed | halted => rfl

/-- A run ends in no fault. -/
theorem run_eq_left (inputs : List Int) (m : Machine) :
    (run limit inputs).run m = .ok () (m.left (run limit inputs)) := by
  obtain ⟨-, m', -, hrun, -⟩ := exists_tracedRun limit inputs m
  rwa [left_of_ok hrun]

/-- A run stops at once, or it starts with a step of a machine that is ready or has just been given a word. -/
theorem stops_or_starts (m : Machine) (inputs : List Int) :
    m.Stops inputs ∨ m.state = .ready ∨
      m.state = .waitingForInput ∧ ∃ value rest, inputs = value :: rest := by
  cases hstate : m.state with
  | ready => exact .inr (.inl rfl)
  | crashed | halted => exact .inl ⟨by simp [hstate], by simp [hstate]⟩
  | waitingForInput =>
    cases inputs with
    | nil => exact .inl ⟨by simp [hstate], fun _ => rfl⟩
    | cons value rest => exact .inr (.inr ⟨rfl, value, rest, rfl⟩)

end

/-! ## Composition -/

theorem countP_printed (m : Machine) : m.printed.countP Transfer.isInput = 0 := by
  unfold printed
  split <;> rfl

/-- A run that is cut after `limit` steps: what is left of it is a run on the input that was not given yet. -/
theorem exists_run_cut (limit more : Nat) (inputs : List Int) (m : Machine) :
    ∃ m' added, (run limit inputs).run m = .ok () m' ∧
      m'.transfers.toList = m.transfers.toList ++ added ∧
      (run (limit + more) inputs).run m =
        (run more (inputs.drop (added.countP Transfer.isInput))).run m' := by
  induction limit generalizing m inputs with
  | zero => exact ⟨m, [], rfl, by simp, by simp⟩
  | succ limit ih =>
    -- a round starts from a machine that may have been given a word before its step
    have hround {start : Machine} (given : List Transfer) {rest : List Int}
        (hrun : ∀ limit, (run (limit + 1) inputs).run m = (run limit rest).run start.stepped)
        (hgiven : start.transfers.toList = m.transfers.toList ++ given)
        (hrest : inputs.drop (given.countP Transfer.isInput) = rest) :
        ∃ m' added, (run (limit + 1) inputs).run m = .ok () m' ∧
          m'.transfers.toList = m.transfers.toList ++ added ∧
          (run (limit + 1 + more) inputs).run m =
            (run more (inputs.drop (added.countP Transfer.isInput))).run m' := by
      obtain ⟨m', added, hfirst, hadded, hsecond⟩ := ih rest start.stepped
      refine ⟨m', given ++ start.printed ++ added, ?_, ?_, ?_⟩
      · rw [hrun, hfirst]
      · simp only [hadded, start.stepped_transfers, hgiven, List.append_assoc]
      · rw [Nat.add_right_comm, hrun, hsecond, List.countP_append, List.countP_append,
          start.countP_printed, Nat.add_zero, ← List.drop_drop, hrest]
    obtain hstops | hready | ⟨hwaiting, value, rest, rfl⟩ := stops_or_starts m inputs
    · refine ⟨m, [], hstops.run _, by simp, ?_⟩
      rw [hstops.run, List.countP_nil, List.drop_zero, hstops.run]
    · apply hround [] (fun limit => run_succ_of_ready limit hready inputs)
      · simp
      · simp
    · apply hround [.input (Word.wrap value)]
        (fun limit => run_succ_of_waiting limit hwaiting value rest)
      · simp [supplied]
      · simp [Transfer.isInput]

/-! ## The program that a machine knows -/

/-- The machine with another program, in which it looks up statements. -/
def withProgram (m : Machine) (program : Option Program) : Machine := { m with program := program }

section

variable (m : Machine) (program : Option Program)

theorem lookUp_withProgram (operands : Operands) :
    (m.withProgram program).lookUp operands = (m.lookUp operands).withProgram program := by
  have hstep (index : Option Index) :
      (m.withProgram program).stepIndex index = (m.stepIndex index).withProgram program := by
    unfold stepIndex
    split <;> rfl
  cases operands with
  | nullary | register | registers => rfl
  | address | registerAddress | conditionAddress => exact hstep _

theorem effect_withProgram (operation : Operation) (operands : Operands) :
    (m.withProgram program).effect operation operands =
      (m.effect operation operands).withProgram program := by
  have hlookUp (m : Machine) := m.lookUp_withProgram program operands
  have hvalue : (m.withProgram program).lastValue operands = m.lastValue operands := rfl
  have haddress (m : Machine) : (m.withProgram program).lastAddress operands = m.lastAddress operands := rfl
  cases operation with
  | load | store | arithmetic | compare | jump =>
    simp only [effect, hlookUp, hvalue, haddress]
    rfl
  | branch =>
    have hcondition : (m.withProgram program).condition = m.condition := rfl
    simp only [effect, hlookUp, haddress, hcondition]
    split
    · rfl
    · rfl
  | call =>
    have hpushed : (m.withProgram program).pushed = m.pushed.withProgram program := rfl
    simp only [effect, hpushed, hlookUp, haddress]
    rfl
  | ret | read | print | halt => rfl

/-- A step does not look at the program. -/
theorem stepped_withProgram : (m.withProgram program).stepped = m.stepped.withProgram program := by
  have hfetched : (m.withProgram program).fetched = m.fetched.withProgram program := rfl
  have hword : (m.withProgram program).memory.read (m.withProgram program).pc = m.memory.read m.pc := rfl
  unfold stepped
  rw [hword]
  split
  · rw [hfetched]
    unfold executed
    split
    · rw [effect_withProgram]
      rfl
    · rfl
  · rfl

end

/-- A run does not look at the program, and leaves it as it is. -/
theorem run_withProgram {limit : Nat} {inputs : List Int} {m m' : Machine}
    (h : (run limit inputs).run m = .ok () m') (program : Option Program) :
    (run limit inputs).run (m.withProgram program) = .ok () (m'.withProgram program) := by
  induction limit generalizing m inputs with
  | zero =>
    cases h
    rfl
  | succ limit ih =>
    obtain hstops | hready | ⟨hwaiting, value, rest, rfl⟩ := stops_or_starts m inputs
    · have hstops' : (m.withProgram program).Stops inputs := hstops
      rw [hstops.run] at h
      cases h
      exact hstops'.run _
    · have hready' : (m.withProgram program).state = .ready := hready
      rw [run_succ_of_ready limit hready] at h
      rw [run_succ_of_ready limit hready', stepped_withProgram]
      exact ih h
    · have hwaiting' : (m.withProgram program).state = .waitingForInput := hwaiting
      have hsupplied (w : MachineWord) :
          (m.withProgram program).supplied w = (m.supplied w).withProgram program := rfl
      rw [run_succ_of_waiting limit hwaiting] at h
      rw [run_succ_of_waiting limit hwaiting', hsupplied, stepped_withProgram]
      exact ih h

end Machine

/-- A run leaves the machine as two runs one after the other do, wherever it is cut. The second one goes on with
the input that the first one has not recorded. -/
theorem run_add (limit more : Nat) (inputs : List Int) (m : Machine) :
    ∃ m₁ m₂ added, (Machine.run limit inputs).run m = .ok () m₁ ∧
      m₁.transfers.toList = m.transfers.toList ++ added ∧
      (Machine.run more (inputs.drop (added.countP Transfer.isInput))).run m₁ = .ok () m₂ ∧
      (Machine.run (limit + more) inputs).run m = .ok () m₂ := by
  obtain ⟨m₁, added, hfirst, hadded, hcut⟩ := Machine.exists_run_cut limit more inputs m
  obtain ⟨-, m₂, -, hwhole, -⟩ := Machine.exists_tracedRun (limit + more) inputs m
  exact ⟨m₁, m₂, added, hfirst, hadded, hcut.symm.trans hwhole, hwhole⟩

end Drama
