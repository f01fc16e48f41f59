-- SUMMARY: Running a machine, with input asked for where it is not given.
import Drama.CommandLine.Assembling
import Drama.Machine.Run

namespace Drama

namespace Session

variable {m : Type → Type} [Monad m] [Host m]

/-- Does something to a machine. -/
def act (action : MachineM Unit) (machine : Machine) : Session m Machine :=
  orAbort .machine (machine.after action)

/-- Lets a machine execute its next command. -/
def step (level : Severity) (machine : Machine) : Session m Machine := do
  logAll level (Trace.ofNextCommand machine)
  let next ← act Machine.executeNext machine
  logAll level (Trace.ofChange machine next)
  return next

/-- Gives a machine its input. -/
def feed (level : Severity) (value : Int) (machine : Machine) : Session m Machine := do
  let next ← act (Machine.provideInput (Word.wrap value)) machine
  logAll level (Trace.ofChange machine next)
  return next

/-- Asks for a number. -/
def ask (level : Severity) : Session m Int := do
  print "LEZ> "
  let some line ← Host.readLine (m := m) | throw .endOfInput
  match Numeral.read line with
  | .ok value => return value
  | .error _ =>
    let shown := String.ofList line
    exitWith (some level) "CLI" s!"Input '{shown}' is not an integer. Exiting."

/-- Runs a machine in the way of `Machine.run`, but asks for input if `asks` is set and there is no
more of it. -/
def runFor (level : Severity) (asks : Bool) :
    (limit : Nat) → (inputs : List Int) → Machine → Session m Machine
  | 0, _, machine => return machine
  | limit + 1, inputs, machine =>
    match machine.state, inputs with
    | .ready, _ => do
      runFor level asks limit inputs (← step level machine)
    | .waitingForInput, value :: rest => do
      runFor level asks limit rest (← step level (← feed level value machine))
    | .waitingForInput, [] => do
      if asks then
        let value ← ask level
        runFor level asks limit [] (← step level (← feed level value machine))
      else return machine
    | _, _ => return machine

/-- Runs a machine and prints what it has given out. Input is asked for if none is given beforehand. -/
def runMachine (level : Severity) (machine : Machine) (inputs : List Int) (limit : Int) :
    Session m Machine := do
  let final ← runFor level inputs.isEmpty limit.toNat inputs machine
  let executed := final.steps - machine.steps
  if final.state = .ready ∧ limit.toNat ≤ executed then
    log (some level) ⟨.warning, "Machine", s!"Stopped after {executed} steps"⟩
  for transfer in final.transfers do
    if let .output word := transfer then print s!"{word.signed}\n"
  match final.state with
  | .crashed => exitWith (some level) "CLI" ((Trace.crashText? final).getD "")
  | .waitingForInput =>
    exitWith (some level) "CLI" "Machine is waiting for input but none is left. Exiting."
  | .ready =>
    log (some level) ⟨.warning, "CLI", s!"Machine did not halt within {limit} steps"⟩
  | .halted => pure ()
  log (some level) ⟨.info, "CLI", s!"Finished after {final.steps} steps: {final.text}"⟩
  return final

end Session

end Drama
