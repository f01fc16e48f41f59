-- SUMMARY: The input of a run: how much of it the machine is given, and when a run ends for want of more.
import Drama.CommandLine.InMemory
import Drama.CommandLine.Running
import Drama.Proofs.Machine.Run

/-!
# The input of runs

A run gives the machine its input in order, as the machine asks for it. A run that ends waiting although it could
have gone on for more steps has given all of its input. The last step that a run may take is another matter: if it
reads, the run ends waiting as well, and some input may be left.
-/

namespace Drama

/-- The word of a transfer to the machine. -/
def Transfer.input? : Transfer → Option MachineWord
  | .input w => some w
  | .output _ => none

namespace Machine

/-- The words that the machine has been given, in order. -/
def inputs (m : Machine) : List MachineWord := m.transfers.toList.filterMap Transfer.input?

theorem inputs_stepped (m : Machine) : m.stepped.inputs = m.inputs := by
  have hprinted : m.printed.filterMap Transfer.input? = [] := by
    unfold printed
    split <;> rfl
  rw [inputs, stepped_transfers, List.filterMap_append, hprinted, List.append_nil]
  rfl

theorem inputs_supplied (m : Machine) (w : MachineWord) : (m.supplied w).inputs = m.inputs ++ [w] := by
  simp [inputs, supplied, Transfer.input?]

/-- What a run makes of a machine: it has been given the first part of the input, and there is more of it for a
machine that waits only if the run has no step left. -/
structure Consumes (limit : Nat) (inputs : List Int) (m m' : Machine) (given rest : List Int) : Prop where
  inputs_eq : inputs = given ++ rest
  given_eq : m'.inputs = m.inputs ++ given.map Word.wrap
  steps_le : m'.steps ≤ m.steps + limit
  waiting : m'.state = .waitingForInput → rest = [] ∨ m'.steps = m.steps + limit

namespace Consumes

variable {limit : Nat} {inputs given rest : List Int} {m m' : Machine}

/-- A step before a run. -/
theorem stepped (h : Consumes limit inputs m.stepped m' given rest) :
    Consumes (limit + 1) inputs m m' given rest := by
  obtain ⟨hinputs, hgiven, hle, hwaiting⟩ := h
  rw [inputs_stepped] at hgiven
  rw [stepped_steps, Nat.add_right_comm] at hle hwaiting
  exact ⟨hinputs, hgiven, hle, hwaiting⟩

/-- A word given to the machine before a run. -/
theorem supplied {value : Int} (h : Consumes limit inputs (m.supplied (Word.wrap value)) m' given rest) :
    Consumes limit (value :: inputs) m m' (value :: given) rest := by
  obtain ⟨rfl, hgiven, hle, hwaiting⟩ := h
  rw [inputs_supplied, List.append_assoc] at hgiven
  exact ⟨rfl, hgiven, hle, hwaiting⟩

end Consumes

theorem exists_consumes (limit : Nat) (inputs : List Int) (m : Machine) :
    ∃ m' given rest, (run limit inputs).run m = .ok () m' ∧ Consumes limit inputs m m' given rest := by
  induction limit generalizing m inputs with
  | zero => exact ⟨m, [], inputs, rfl, rfl, by simp, Nat.le_refl _, fun _ => .inr rfl⟩
  | succ limit ih =>
    obtain hstops | hready | ⟨hwaiting, value, rest, rfl⟩ := stops_or_starts m inputs
    · exact ⟨m, [], inputs, hstops.run _, rfl, by simp, Nat.le_add_right _ _, fun h => .inl (hstops.2 h)⟩
    · obtain ⟨m', given, rest, hrun, hconsumes⟩ := ih inputs m.stepped
      exact ⟨m', given, rest, (run_succ_of_ready limit hready inputs).trans hrun, hconsumes.stepped⟩
    · obtain ⟨m', given, left, hrun, hconsumes⟩ := ih rest (m.supplied (Word.wrap value)).stepped
      exact ⟨m', value :: given, left, (run_succ_of_waiting limit hwaiting value rest).trans hrun,
        hconsumes.stepped.supplied⟩

end Machine

/-- A run that ends waiting with a step left to take has given the machine all of its input. -/
theorem inputs_of_run_waiting {limit : Nat} {inputs : List Int} {m m' : Machine}
    (h : (Machine.run limit inputs).run m = .ok () m') (hwaiting : m'.state = .waitingForInput)
    (hleft : m'.steps < m.steps + limit) : m'.inputs = m.inputs ++ inputs.map Word.wrap := by
  obtain ⟨m₁, given, rest, hrun, hconsumes⟩ := Machine.exists_consumes limit inputs m
  obtain rfl : m₁ = m' := by
    cases hrun.symm.trans h
    rfl
  obtain rfl : rest = [] := (hconsumes.waiting hwaiting).resolve_right hleft.ne
  rw [hconsumes.given_eq, hconsumes.inputs_eq, List.append_nil]

/-- A machine that reads twice is given the one word there is and waits for another, three steps before the
limit. -/
theorem inputs_of_run_waiting_twice :
    ∃ m m', Machine.ofWords [Word.wrap 7100000000, Word.wrap 7100000000] = .ok m ∧
      (Machine.run 5 [3]).run m = .ok () m' ∧ m'.state = .waitingForInput ∧ m'.steps < m.steps + 5 ∧
      m'.inputs = [Word.wrap 3] := by
  have hwords : Machine.ofWords [Word.wrap 7100000000, Word.wrap 7100000000] = _ :=
    Machine.ofWords_eq (by decide)
  have hrun := Machine.run_eq_left 5 [3] { Machine.empty with
    memory := Memory.empty.fill 0 [Word.wrap 7100000000, Word.wrap 7100000000] }
  exact ⟨_, _, hwords, hrun, by decide +kernel, by decide +kernel,
    inputs_of_run_waiting hrun (by decide +kernel) (by decide +kernel)⟩

/-- A machine that reads in the last step that a run may take is not given the word that there is for it. The
program that runs it says all the same that there is none. -/
theorem run_waiting_with_input_left :
    ∃ m m', Machine.ofWords [Word.wrap 7100000000] = .ok m ∧ m.state = .ready ∧
      (Machine.run 1 [5]).run m = .ok () m' ∧ m'.state = .waitingForInput ∧ m'.inputs = [] ∧
      ((⟨⟨[]⟩, [], [], "", ""⟩ : World).run (Session.runMachine .warning m [5] 1)).2.errors =
        "CRITICAL:CLI:Machine is waiting for input but none is left. Exiting.\n" := by
  have hwords : Machine.ofWords [Word.wrap 7100000000] = _ := Machine.ofWords_eq (by decide)
  have hrun := Machine.run_eq_left 1 [5] { Machine.empty with
    memory := Memory.empty.fill 0 [Word.wrap 7100000000] }
  exact ⟨_, _, hwords, rfl, hrun, by decide +kernel, by decide +kernel, by decide +kernel⟩

end Drama
