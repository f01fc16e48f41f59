-- SUMMARY: The life of a machine: which calls it accepts in which state, and what it records of its steps.
import Drama.Machine.Run
import Drama.Proofs.Machine.Step

/-!
# Life cycle

A machine accepts a step only if it is ready, and input only if it is waiting for it; in all other states
the call changes nothing. A run is nothing but a sequence of accepted calls (`Machine.Accepts`), so whatever
holds for calls holds for runs. Since it was loaded last, the machine has counted exactly the steps that it
has accepted.
-/

namespace Drama

namespace Machine

variable {m m' m'' : Machine}

/-! ## Single calls -/

namespace Call

/-- The state in which a machine accepts the call. -/
def state : Call → MachineState
  | .executeNext => .ready
  | .provideInput _ => .waitingForInput

/-- The fault in which the call ends if the machine is in another state. -/
def refusal (found : MachineState) : Call → Fault
  | .executeNext => .notReady found
  | .provideInput _ => .notWaiting found

def isStep : Call → Bool
  | .executeNext => true
  | .provideInput _ => false

/-- What a call makes of a machine that accepts it. -/
def result (m : Machine) : Call → Machine
  | .executeNext => m.stepped
  | .provideInput w => m.supplied w

variable {c : Call}

theorem run_of_state (h : m.state = c.state) : c.action.run m = .ok () (c.result m) := by
  cases c with
  | executeNext => exact executeNext_run h
  | provideInput w => exact provideInput_run h w

theorem run_of_state_ne (h : m.state ≠ c.state) :
    c.action.run m = .error (c.refusal m.state) m := by
  cases c with
  | executeNext => exact executeNext_run_of_not_ready h
  | provideInput w => exact provideInput_run_of_not_waiting h w

/-- A call that is accepted has found the machine in the right state. -/
theorem of_run (h : c.action.run m = .ok () m') : m.state = c.state ∧ m' = c.result m := by
  by_cases hstate : m.state = c.state
  · cases (run_of_state hstate).symm.trans h
    exact ⟨hstate, rfl⟩
  · cases (run_of_state_ne hstate).symm.trans h

end Call

/-! ## Runs -/

/-- The calls that are accepted one after the other on the way from one machine to another. -/
inductive Accepts : Machine → List Call → Machine → Prop
  | nil (m : Machine) : Accepts m [] m
  | cons {m m' m'' : Machine} {c : Call} {calls : List Call} (h : c.action.run m = .ok () m')
      (hcalls : Accepts m' calls m'') : Accepts m (c :: calls) m''

/-- A machine that has halted or crashed accepts no call at all. -/
theorem Accepts.eq_of_final {calls : List Call} (h : Accepts m calls m')
    (hfinal : m.state = .halted ∨ m.state = .crashed) : m' = m := by
  cases h with
  | nil => rfl
  | @cons _ _ _ c _ hrun _ =>
    have hstate := (Call.of_run hrun).1
    cases c <;> simp [hstate, Call.state] at hfinal

/-- A run that tells which calls it makes. -/
def tracedRun : (limit : Nat) → (inputs : List Int) → MachineM (List Call)
  | 0, _ => return []
  | limit + 1, inputs => do
    match (← get).state, inputs with
    | .ready, _ => do
      executeNext
      return .executeNext :: (← tracedRun limit inputs)
    | .waitingForInput, value :: rest => do
      provideInput (Word.wrap value)
      executeNext
      return .provideInput (Word.wrap value) :: .executeNext :: (← tracedRun limit rest)
    | _, _ => return []

/-- A run ends in no fault, and each of its calls is accepted. -/
theorem exists_tracedRun (limit : Nat) (inputs : List Int) (m : Machine) :
    ∃ calls m', (tracedRun limit inputs).run m = .ok calls m' ∧ (run limit inputs).run m = .ok () m' ∧
      Accepts m calls m' := by
  induction limit generalizing inputs m with
  | zero => exact ⟨[], m, rfl, rfl, .nil m⟩
  | succ limit ih =>
    rw [tracedRun, run, run_bind (run_get m), run_bind (run_get m)]
    cases hstate : m.state with
    | crashed | halted => exact ⟨[], m, rfl, rfl, .nil m⟩
    | ready =>
      have hstep := executeNext_run hstate
      obtain ⟨calls, m', htraced, hrun, haccepts⟩ := ih inputs m.stepped
      refine ⟨.executeNext :: calls, m', ?_, (run_bind hstep _).trans hrun, .cons hstep haccepts⟩
      exact (run_bind hstep _).trans (run_bind htraced _)
    | waitingForInput =>
      cases inputs with
      | nil => exact ⟨[], m, rfl, rfl, .nil m⟩
      | cons value rest =>
        have hinput := provideInput_run hstate (Word.wrap value)
        have hstep := executeNext_run (m := m.supplied (Word.wrap value)) rfl
        obtain ⟨calls, m', htraced, hrun, haccepts⟩ := ih rest (m.supplied (Word.wrap value)).stepped
        refine ⟨.provideInput (Word.wrap value) :: .executeNext :: calls, m', ?_, ?_,
          .cons hinput (.cons hstep haccepts)⟩
        · exact (run_bind hinput _).trans ((run_bind hstep _).trans (run_bind htraced _))
        · exact (run_bind hinput _).trans ((run_bind hstep _).trans hrun)

/-- A run with further input at hand leaves the machine as a run on all input does. Its only fault is that
there is no more input. -/
theorem runSupplied_run {limit : Nat} {inputs supply : List Int}
    (h : (run limit (inputs ++ supply)).run m = .ok () m') :
    (runSupplied limit inputs supply).run m = .ok () m' ∨
      (runSupplied limit inputs supply).run m = .error .noInput m' := by
  rw [runSupplied, run_bind (run_get m)]
  show ((run limit (inputs ++ supply)) >>= _).run m = _ ∨ ((run limit (inputs ++ supply)) >>= _).run m = _
  rw [run_bind h, run_bind (run_get m')]
  split
  · exact .inr rfl
  · exact .inl rfl

/-! ## Loading -/

/-- Loading forgets the program and clears memory before it writes. -/
theorem load_run_eq (words : List MachineWord) (m : Machine) :
    (load words).run m =
      (writeAll 0 words >>= fun _ => reset).run { m with program := none, memory := .empty } := rfl

/-- Whatever the machine was, loading leaves nothing of it. -/
theorem load_run {words : List MachineWord} (h : words.length ≤ addressSpace) (m : Machine) :
    (load words).run m = .ok () { empty with memory := Memory.empty.fill 0 words } := by
  have hle : 0 + words.length ≤ addressSpace := (Nat.zero_add _).symm ▸ h
  have hwrite : (writeAll 0 words).run { m with program := none, memory := .empty } =
      .ok () { m with program := none, memory := Memory.empty.fill 0 words } := writeAll_run hle _
  rw [load_run_eq]
  exact run_bind hwrite fun _ => reset

/-- A machine that has just been loaded, with some memory. -/
theorem of_load {words : List MachineWord} (h : (load words).run m = .ok () m') :
    ∃ program memory, m' = { empty with program := program, memory := memory } := by
  rw [load_run_eq] at h
  cases hwrite : (writeAll 0 words).run { m with program := none, memory := .empty } with
  | ok _ m₁ =>
    rw [run_bind hwrite] at h
    cases h
    exact ⟨m₁.program, m₁.memory, rfl⟩
  | error fault m₁ =>
    unfold EStateM.run at hwrite h
    simp only [bind, EStateM.bind, hwrite] at h
    cases h

/-- A machine that has been made of words or of a program. -/
def Made (m : Machine) : Prop := (∃ words, ofWords words = .ok m) ∨ ∃ p, ofProgram p = .ok m

theorem Made.exists_eq (h : m.Made) :
    ∃ program memory, m = { empty with program := program, memory := memory } := by
  have hwords {words : List MachineWord} {m : Machine} (h : ofWords words = .ok m) :
      ∃ program memory, m = { empty with program := program, memory := memory } := by
    unfold ofWords after at h
    split at h
    · rename_i hrun
      cases h
      exact of_load hrun
    · cases h
  obtain ⟨words, h⟩ | ⟨p, h⟩ := h
  · exact hwords h
  · unfold ofProgram at h
    cases hofWords : ofWords p.words.toList with
    | error fault =>
      rw [hofWords] at h
      cases h
    | ok m₁ =>
      rw [hofWords] at h
      cases h
      obtain ⟨program, memory, rfl⟩ := hwords hofWords
      exact ⟨some p, memory, rfl⟩

/-! ## What the machine records -/

/-- What a machine knows of the steps that it has accepted since it was loaded. -/
structure Records (steps : Nat) (m : Machine) : Prop where
  crash : m.CrashedOfWord
  previousPc : m.previousPc = none ↔ m.steps = 0
  steps : m.steps = steps

namespace Records

variable {n : Nat}

theorem loaded (program : Option Program) (memory : Memory) :
    Records 0 { empty with program := program, memory := memory } :=
  ⟨.of_running nofun rfl, ⟨fun _ => rfl, fun _ => rfl⟩, rfl⟩

theorem stepped (h : m.Records n) (hready : m.state = .ready) : m.stepped.Records (n + 1) := by
  refine ⟨h.crash.stepped hready, ?_, by rw [stepped_steps, h.steps]⟩
  rw [stepped_previousPc, stepped_steps]
  exact ⟨nofun, nofun⟩

theorem supplied (h : m.Records n) (hwaiting : m.state = .waitingForInput) (w : MachineWord) :
    (m.supplied w).Records n :=
  ⟨.of_running nofun (h.crash.crash_eq_none (by rw [hwaiting]; decide)), h.previousPc, h.steps⟩

/-- Accepted calls count as many steps as there are among them. -/
theorem accepts {calls : List Call} (h : m.Records n) (haccepts : m.Accepts calls m') :
    m'.Records (n + calls.countP Call.isStep) := by
  induction haccepts generalizing n with
  | nil => exact h
  | @cons m m' m'' c calls hrun _ ih =>
    obtain ⟨hstate, rfl⟩ := Call.of_run hrun
    cases c with
    | executeNext =>
      have hothers := ih (h.stepped hstate)
      rwa [List.countP_cons_of_pos rfl, Nat.add_comm _ 1, ← Nat.add_assoc]
    | provideInput w =>
      have hothers := ih (h.supplied hstate w)
      rwa [List.countP_cons_of_neg (by simp [Call.isStep])]

end Records

/-! ## Requests -/

/-- All that can be asked of a machine. -/
inductive Request
  | call (c : Call)
  | run (limit : Nat) (inputs : List Int)
  | runSupplied (limit : Nat) (inputs supply : List Int)
  | load (words : List MachineWord) (h : words.length ≤ addressSpace)

namespace Request

def action : Request → MachineM Unit
  | .call c => c.action
  | .run limit inputs => Machine.run limit inputs
  | .runSupplied limit inputs supply => Machine.runSupplied limit inputs supply
  | .load words _ => Machine.load words

def isLoad : Request → Bool
  | .load .. => true
  | .call _ | .run .. | .runSupplied .. => false

/-- The calls that a machine accepts in the course of a request. -/
def calls (m : Machine) : Request → List Call
  | .call c => if m.state = c.state then [c] else []
  | .run limit inputs => traced limit inputs
  | .runSupplied limit inputs supply => traced limit (inputs ++ supply)
  | .load .. => []
where
  traced (limit : Nat) (inputs : List Int) : List Call :=
    match (tracedRun limit inputs).run m with
    | .ok calls _ => calls
    | .error .. => []

/-- How many steps have been accepted since the machine was loaded last, after one more request. -/
def stepsAfter (n : Nat) (m : Machine) (r : Request) : Nat :=
  if r.isLoad then 0 else n + (r.calls m).countP Call.isStep

/-- A request that does not load the machine comes to the calls that the machine accepts. -/
theorem accepts {r : Request} (h : r.isLoad = false) (m : Machine) :
    m.Accepts (r.calls m) (m.left r.action) := by
  cases r with
  | call c =>
    by_cases hstate : m.state = c.state
    · rw [calls, if_pos hstate, action, left_of_ok (Call.run_of_state hstate)]
      exact .cons (Call.run_of_state hstate) (.nil _)
    · rw [calls, if_neg hstate, action, left_of_error (Call.run_of_state_ne hstate)]
      exact .nil m
  | run limit inputs =>
    obtain ⟨calls, m', htraced, hrun, haccepts⟩ := exists_tracedRun limit inputs m
    rwa [Request.calls, calls.traced, htraced, action, left_of_ok hrun]
  | runSupplied limit inputs supply =>
    obtain ⟨calls, m', htraced, hrun, haccepts⟩ := exists_tracedRun limit (inputs ++ supply) m
    rw [Request.calls, calls.traced, htraced, action]
    obtain hrun | hrun := runSupplied_run hrun
    · rwa [left_of_ok hrun]
    · rwa [left_of_error hrun]
  | load words hle => cases h

end Request

/-! ## Histories -/

/-- The machines that requests lead to, and how many steps have been accepted since the last of them that
loaded the machine. -/
inductive Serves (start : Machine) : Nat → Machine → Prop
  | start : Serves start 0 start
  | request {n : Nat} {m : Machine} (h : Serves start n m) (r : Request) :
      Serves start (r.stepsAfter n m) (m.left r.action)

theorem Serves.records {start m : Machine} {n : Nat} (h : start.Serves n m) (hstart : start.Made) :
    m.Records n := by
  induction h with
  | start =>
    obtain ⟨program, memory, rfl⟩ := hstart.exists_eq
    exact .loaded program memory
  | @request n m _ r ih =>
    cases hload : r.isLoad with
    | false =>
      rw [Request.stepsAfter, hload]
      exact ih.accepts (Request.accepts hload m)
    | true =>
      rw [Request.stepsAfter, hload]
      cases r with
      | load words hle =>
        rw [Request.action, left_of_ok (load_run hle m)]
        exact .loaded _ _
      | call | run | runSupplied => cases hload

/-- What a machine records, which calls it accepts and refuses, and what it takes to leave each state. -/
structure LifeCycle (n : Nat) (m : Machine) : Prop where
  crash : m.crash.isSome ↔ m.state = .crashed
  previousPc : m.previousPc = none ↔ m.steps = 0
  steps : m.steps = n
  accepted : ∀ c : Call, (∃ m', c.action.run m = .ok () m') ↔ m.state = c.state
  /-- A call that is refused leaves the machine as it is. -/
  refused : ∀ c : Call, m.state ≠ c.state → c.action.run m = .error (c.refusal m.state) m
  input : ∀ w m', (provideInput w).run m = .ok () m' → m'.state = .ready
  /-- Requests that do not load the machine consist of calls that it accepts. -/
  requests : ∀ r : Request, r.isLoad = false → m.Accepts (r.calls m) (m.left r.action)
  final : m.state = .halted ∨ m.state = .crashed → ∀ r : Request, r.isLoad = false →
    m.left r.action = m
  waiting : m.state = .waitingForInput → ∀ r : Request, r.isLoad = false →
    m.left r.action = m ∨ ∃ w calls, r.calls m = .provideInput w :: calls
  run : ∀ limit inputs, ∃ m', (run limit inputs).run m = .ok () m'
  /-- What a run may lack is input. -/
  runSupplied : ∀ limit inputs supply fault m',
    (runSupplied limit inputs supply).run m = .error fault m' → fault = .noInput
  load : ∀ words : List MachineWord, words.length ≤ addressSpace →
    ∃ m', (load words).run m = .ok () m' ∧ m'.state = .ready

theorem Records.lifeCycle {n : Nat} (h : m.Records n) : m.LifeCycle n where
  crash := h.crash.known
  previousPc := h.previousPc
  steps := h.steps
  accepted c := ⟨fun ⟨_, hrun⟩ => (Call.of_run hrun).1, fun hstate => ⟨_, Call.run_of_state hstate⟩⟩
  refused _ hstate := Call.run_of_state_ne hstate
  input w m' hrun := by
    obtain ⟨-, rfl⟩ := Call.of_run (c := .provideInput w) hrun
    rfl
  requests _ hload := Request.accepts hload m
  final hfinal _ hload := (Request.accepts hload m).eq_of_final hfinal
  waiting hwaiting r hload := by
    have haccepts := Request.accepts hload m
    generalize r.calls m = calls at haccepts ⊢
    generalize m.left r.action = m' at haccepts ⊢
    cases haccepts with
    | nil => exact .inl rfl
    | @cons _ _ _ c calls hrun _ =>
      have hstate := (Call.of_run hrun).1
      cases c with
      | executeNext => cases hstate.symm.trans hwaiting
      | provideInput w => exact .inr ⟨w, calls, rfl⟩
  run limit inputs := by
    obtain ⟨-, m', -, hrun, -⟩ := exists_tracedRun limit inputs m
    exact ⟨m', hrun⟩
  runSupplied limit inputs supply fault m' hfault := by
    obtain ⟨-, m₁, -, hrun, -⟩ := exists_tracedRun limit (inputs ++ supply) m
    obtain hsupplied | hsupplied := runSupplied_run hrun
    · cases hsupplied.symm.trans hfault
    · cases hsupplied.symm.trans hfault
      rfl
  load _ hle := ⟨_, load_run hle m, rfl⟩

end Machine

/-- Whatever has been asked of a machine since it was made, it keeps to its life cycle. -/
theorem lifeCycle_of_serves {start m : Machine} {n : Nat} (hstart : start.Made)
    (h : start.Serves n m) : m.LifeCycle n :=
  (h.records hstart).lifeCycle

/-- A machine that waits for input refuses a step. Loaded again, it takes input and crashes of what stands
behind the command that reads it. -/
theorem lifeCycle_of_serves_reloaded :
    ∃ start n m, Machine.ofWords [Word.wrap 7100000000] = .ok start ∧ start.Serves n m ∧ n = 2 ∧
      m.state = .crashed ∧ m.LifeCycle n := by
  have hstart : Machine.ofWords [Word.wrap 7100000000] = _ := Machine.ofWords_eq (by decide)
  have hserves (start : Machine) :=
    (((Machine.Serves.start : start.Serves 0 start).request (.run 10 [])).request
      (.call .executeNext)).request (.load [Word.wrap 7100000000] (by decide)) |>.request (.run 10 [5])
  exact ⟨_, _, _, hstart, hserves _, by decide +kernel, by decide +kernel,
    lifeCycle_of_serves (.inl ⟨_, hstart⟩) (hserves _)⟩

end Drama
