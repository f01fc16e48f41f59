-- SUMMARY: Running the machine on queued input.
import Drama.Machine.Step

/-!
# Runs

A run executes commands until the machine halts, crashes, is out of input or has made a number of steps.
Input comes from a queue; the machine is left waiting where the queue is empty.
-/

namespace Drama

/-- How many steps a run makes if nothing else is said. -/
def defaultStepLimit : Nat := 10000

namespace Machine

/-- Runs for at most `limit` steps; handing over input is not a step of its own. -/
def run : (limit : Nat) → (inputs : List Int) → MachineM Unit
  | 0, _ => return
  | limit + 1, inputs => do
    match (← get).state, inputs with
    | .ready, _ => do
      executeNext
      run limit inputs
    | .waitingForInput, value :: rest => do
      provideInput (Word.wrap value)
      executeNext
      run limit rest
    | _, _ => return

/-- Runs with further input at hand after the queue; it is a fault if this runs out as well. -/
def runSupplied (limit : Nat) (inputs supply : List Int) : MachineM Unit := do
  let before := (← get).steps
  run limit (inputs ++ supply)
  let m ← get
  if m.state = .waitingForInput ∧ m.steps - before < limit then throw .noInput

end Machine

end Drama
