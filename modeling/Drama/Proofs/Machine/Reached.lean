-- SUMMARY: The machines that calls reach from a machine just loaded: their steps, and what they crash of.
import Drama.Proofs.Machine.Execution

/-!
# Reached machines

A machine is loaded with words and then called, to make a step or to take input. A step of a ready machine
ends in no fault: it leaves `Machine.stepped`, which is crashed exactly if the word at the program counter
does not decode.
-/

namespace Drama

/-! ## Loading -/

/-- Memory with words one after the other from an address on. -/
def Memory.fill (memory : Memory) (start : Nat) : List MachineWord → Memory
  | [] => memory
  | w :: rest => (memory.write (Word.wrap start) w).fill (start + 1) rest

namespace Machine

theorem resolve_number {number : Nat} (h : number < addressSpace) :
    (Key.number number).resolve = .ok (Word.wrap number) := by
  have hofInt : Word.ofInt 4 number = .ok (Word.wrap number) := by
    rw [Word.ofInt, dif_pos ⟨Int.natCast_nonneg _, h⟩]
    apply congrArg
    apply Word.ext
    exact (Int.ofNat.inj ((Word.raw_wrap _).trans
      (Int.emod_eq_of_lt (Int.natCast_nonneg _) (Int.ofNat_lt.2 h)))).symm
  simp only [Key.resolve, hofInt]

theorem writeAt_run {number : Nat} (h : number < addressSpace) (w : MachineWord) (m : Machine) :
    (writeAt (.number number) w).run m = .ok () { m with memory := m.memory.write (Word.wrap number) w } := by
  have hfind : (findCell (.number number)).run m = .ok (Word.wrap number) m := by
    rw [findCell, resolve_number h]
    rfl
  rw [writeAt, run_bind hfind]
  rfl

/-- Words that end before memory does are all written. -/
theorem writeAll_run {start : Nat} {words : List MachineWord}
    (h : start + words.length ≤ addressSpace) (m : Machine) :
    (writeAll start words).run m = .ok () { m with memory := m.memory.fill start words } := by
  induction words generalizing start m with
  | nil => rfl
  | cons w rest ih =>
    have hrest : start + 1 + rest.length ≤ addressSpace := by
      rw [List.length_cons] at h
      omega
    have hstart : start < addressSpace := by omega
    rw [writeAll, run_bind (writeAt_run hstart w m)]
    exact ih hrest _

/-- As many words as there are addresses can be loaded. -/
theorem ofWords_eq {words : List MachineWord} (h : words.length ≤ addressSpace) :
    ofWords words = .ok { empty with memory := Memory.empty.fill 0 words } := by
  have hwrite : (writeAll 0 words).run empty =
      .ok () { empty with memory := Memory.empty.fill 0 words } :=
    writeAll_run ((Nat.zero_add _).symm ▸ h) empty
  have hload : (load words).run empty =
      .ok () { empty with memory := Memory.empty.fill 0 words } := by
    rw [load]
    show (writeAll 0 words >>= fun _ => reset).run empty = _
    rw [run_bind hwrite]
    rfl
  rw [ofWords, after, hload]

/-! ## Steps -/

/-- The machine with the program counter moved on to the next address. -/
def fetched (m : Machine) : Machine := { m with previousPc := some m.pc, pc := m.pc.incremented }

/-- What a step makes of a ready machine. -/
def stepped (m : Machine) : Machine :=
  match InstructionSet.standard.decode (m.memory.read m.pc) with
  | .ok c => { m.fetched.executed c with steps := (m.fetched.executed c).steps + 1 }
  | .error e =>
    { m.fetched with state := .crashed, crash := some (.decoding e), steps := m.steps + 1 }

/-- An action that succeeds has nothing to be caught. -/
theorem run_tryCatch {action : MachineM Unit} {m m' : Machine} (h : action.run m = .ok () m')
    (handler : Fault → MachineM Unit) : (tryCatch action handler).run m = .ok () m' := by
  unfold EStateM.run at h ⊢
  simp only [tryCatch, tryCatchThe, MonadExceptOf.tryCatch, EStateM.tryCatch, h]

theorem executeNext_run {m : Machine} (h : m.state = .ready) :
    executeNext.run m = .ok () m.stepped := by
  have hfetch : fetch.run m = .ok (m.memory.read m.pc) m.fetched := rfl
  rw [executeNext, run_bind (run_get m), if_neg (not_not.2 h)]
  show (fetch >>= _).run m = _
  rw [run_bind hfetch, stepped]
  cases hdecode : InstructionSet.standard.decode (m.memory.read m.pc) with
  | error e =>
    simp only [executeWord, hdecode]
    rfl
  | ok c =>
    simp only [executeWord, hdecode]
    rw [run_bind (run_tryCatch (execute_of_decode hdecode m.fetched) _)]
    rfl

theorem executeNext_run_of_not_ready {m : Machine} (h : m.state ≠ .ready) :
    executeNext.run m = .error (.notReady m.state) m := by
  rw [executeNext, run_bind (run_get m), if_pos h]
  rfl

/-- The machine that goes on with a word of input. -/
def supplied (m : Machine) (w : MachineWord) : Machine :=
  { m.loadRegister 0 w with state := .ready, transfers := m.transfers.push (.input w) }

theorem provideInput_run {m : Machine} (h : m.state = .waitingForInput) (w : MachineWord) :
    (provideInput w).run m = .ok () (m.supplied w) := by
  rw [provideInput, run_bind (run_get m), if_neg (not_not.2 h)]
  show (writeRegister 0 w >>= _).run m = _
  rw [run_bind (writeRegister_run (by decide) w m)]
  rfl

theorem provideInput_run_of_not_waiting {m : Machine} (h : m.state ≠ .waitingForInput)
    (w : MachineWord) : (provideInput w).run m = .error (.notWaiting m.state) m := by
  rw [provideInput, run_bind (run_get m), if_pos h]
  rfl

theorem stepped_state_iff {m : Machine} (h : m.state = .ready) :
    m.stepped.state = .crashed ↔
      ∃ e, InstructionSet.standard.decode (m.memory.read m.pc) = .error e := by
  have hready : m.fetched.state ≠ .crashed := by
    show m.state ≠ .crashed
    rw [h]
    decide
  rw [stepped]
  cases InstructionSet.standard.decode (m.memory.read m.pc) with
  | error e => exact ⟨fun _ => ⟨e, rfl⟩, fun _ => rfl⟩
  | ok c =>
    constructor
    · intro hcrashed
      exact absurd hcrashed (executed_state_ne_crashed hready c)
    · rintro ⟨e, he⟩
      cases he

/-! ## Calls -/

/-- What a machine is asked to do once it is loaded. -/
inductive Call
  | executeNext
  | provideInput (w : MachineWord)

def Call.action : Call → MachineM Unit
  | .executeNext => Machine.executeNext
  | .provideInput w => Machine.provideInput w

/-- The machine that an action leaves behind, also if it ends in a fault. -/
def left (m : Machine) (action : MachineM Unit) : Machine :=
  match action.run m with
  | .ok _ m' | .error _ m' => m'

theorem left_of_ok {action : MachineM Unit} {m m' : Machine} (h : action.run m = .ok () m') :
    m.left action = m' := by
  rw [left, h]

theorem left_of_error {action : MachineM Unit} {m m' : Machine} {fault : Fault}
    (h : action.run m = .error fault m') : m.left action = m' := by
  rw [left, h]

/-- The machines that calls lead to, whatever becomes of the calls. -/
inductive Reached (start : Machine) : Machine → Prop
  | start : Reached start start
  | call {m : Machine} (h : Reached start m) (c : Call) : Reached start (m.left c.action)

/-- A machine knows what it crashed of exactly if it has crashed, and that is a word without a command. -/
structure CrashedOfWord (m : Machine) : Prop where
  known : m.crash.isSome ↔ m.state = .crashed
  decoding : ∀ crash ∈ m.crash, ∃ e, crash = .decoding e

namespace CrashedOfWord

variable {m m' : Machine}

/-- A machine that has not crashed and knows of no crash. -/
theorem of_running (hstate : m.state ≠ .crashed) (hcrash : m.crash = none) : m.CrashedOfWord := by
  constructor
  · rw [hcrash]
    exact ⟨nofun, fun h => absurd h hstate⟩
  · rw [hcrash]
    exact nofun

theorem crash_eq_none (h : m.CrashedOfWord) (hstate : m.state ≠ .crashed) : m.crash = none := by
  cases hcrash : m.crash with
  | none => rfl
  | some crash => exact absurd (h.known.1 (by rw [hcrash]; rfl)) hstate

theorem stepped (h : m.CrashedOfWord) (hready : m.state = .ready) : m.stepped.CrashedOfWord := by
  have hstate : m.state ≠ .crashed := by
    rw [hready]
    decide
  rw [Machine.stepped]
  cases InstructionSet.standard.decode (m.memory.read m.pc) with
  | error e =>
    refine ⟨⟨fun _ => rfl, fun _ => rfl⟩, ?_⟩
    rintro crash ⟨⟩
    exact ⟨e, rfl⟩
  | ok c =>
    apply of_running
    · exact executed_state_ne_crashed (m := m.fetched) hstate c
    · exact (m.fetched.sameRecords_executed c).crash.trans (h.crash_eq_none hstate)

/-- A call does not make a machine crash of anything but a word. -/
theorem left (h : m.CrashedOfWord) (c : Call) : (m.left c.action).CrashedOfWord := by
  cases c with
  | executeNext =>
    rw [Call.action]
    by_cases hready : m.state = .ready
    · rw [left_of_ok (executeNext_run hready)]
      exact h.stepped hready
    · rw [left_of_error (executeNext_run_of_not_ready hready)]
      exact h
  | provideInput w =>
    rw [Call.action]
    by_cases hwaiting : m.state = .waitingForInput
    · rw [left_of_ok (provideInput_run hwaiting w)]
      have hcrash : m.crash = none := h.crash_eq_none (by rw [hwaiting]; decide)
      exact of_running nofun hcrash
    · rw [left_of_error (provideInput_run_of_not_waiting hwaiting w)]
      exact h

end CrashedOfWord

theorem Reached.crashedOfWord {start m : Machine} (h : start.Reached m)
    (hstart : start.CrashedOfWord) : m.CrashedOfWord := by
  induction h with
  | start => exact hstart
  | call _ c ih => exact ih.left c

end Machine

/-- As many words as there are addresses can be loaded, and in every machine reached from there a step
ends in no fault if the machine is ready. The step crashes the machine exactly if the word at the program
counter does not decode. -/
theorem executeNext_of_reached {words : List MachineWord} (h : words.length ≤ addressSpace) :
    ∃ start, Machine.ofWords words = .ok start ∧ ∀ m, start.Reached m →
      m.CrashedOfWord ∧ (m.state = .ready → ∃ m', Machine.executeNext.run m = .ok () m' ∧
        (m'.state = .crashed ↔
          ∃ e, InstructionSet.standard.decode (m.memory.read m.pc) = .error e) ∧
        (∀ c, InstructionSet.standard.decode (m.memory.read m.pc) = .ok c →
          ∃ m'', (Machine.execute .standard c).run m.fetched = .ok () m'' ∧
            m' = { m'' with steps := m.steps + 1 }) ∧
        (∀ e, InstructionSet.standard.decode (m.memory.read m.pc) = .error e →
          m' = { m with
            previousPc := some m.pc
            pc := m.pc.incremented
            state := .crashed
            crash := some (.decoding e)
            steps := m.steps + 1 })) := by
  refine ⟨_, Machine.ofWords_eq h, fun m hreached => ?_⟩
  have hloaded : Machine.CrashedOfWord
      { Machine.empty with memory := Memory.empty.fill 0 words } := .of_running nofun rfl
  refine ⟨hreached.crashedOfWord hloaded, fun hready => ?_⟩
  refine ⟨m.stepped, Machine.executeNext_run hready, Machine.stepped_state_iff hready, ?_, ?_⟩
  · intro c hc
    refine ⟨m.fetched.executed c, Machine.execute_of_decode hc m.fetched, ?_⟩
    rw [Machine.stepped, hc]
    show ({ m.fetched.executed c with steps := _ } : Machine) = _
    rw [(m.fetched.sameRecords_executed c).steps]
    rfl
  · intro e he
    rw [Machine.stepped, he]
    rfl

/-- A machine that was given a word puts it out without a fault, and crashes of the word behind the commands, with
its log as it was. -/
theorem executeNext_of_reached_input :
    ∃ start m c m' m'',
      Machine.ofWords [Word.wrap 7100000000, Word.wrap 7300000000, Word.wrap 8800000000] = .ok start ∧
      start.Reached m ∧ m.transfers = #[.input (Word.wrap 42)] ∧
      InstructionSet.standard.decode (m.memory.read m.pc) = .ok c ∧ c.text = .ok "DRU" ∧
      Machine.executeNext.run m = .ok () m' ∧ m'.state ≠ .crashed ∧
      m'.transfers = #[.input (Word.wrap 42), .output (Word.wrap 42)] ∧ m'.pc = Word.wrap 2 ∧
      Machine.executeNext.run m' = .ok () m'' ∧
        m'' = { m' with
          previousPc := some (Word.wrap 2)
          pc := Word.wrap 3
          state := .crashed
          crash := some (.decoding ⟨.opcode 88, Word.wrap 8800000000⟩)
          steps := 3 } := by
  have hlength : ([Word.wrap 7100000000, Word.wrap 7300000000, Word.wrap 8800000000] :
    List MachineWord).length ≤ addressSpace := by decide
  obtain ⟨start, hstart, hreached⟩ := executeNext_of_reached hlength
  -- a first step waits for a word, which is provided
  have hfirst : start.Reached (start.left Machine.executeNext) := .call .start .executeNext
  have hgiven := hfirst.call (.provideInput (Word.wrap 42))
  have hoffered := hgiven.call .executeNext
  cases hstart
  obtain ⟨-, hstep⟩ := hreached _ hgiven
  obtain ⟨m', hrun, hcrashed, -, -⟩ := hstep rfl
  obtain rfl := Machine.left_of_ok hrun
  obtain ⟨-, hstep⟩ := hreached _ hoffered
  obtain ⟨m'', hrun', -, -, hcrash⟩ := hstep rfl
  obtain ⟨c, hdecode, htext⟩ : ∃ c, InstructionSet.standard.decode (Word.wrap 7300000000) = .ok c ∧
      c.text = .ok "DRU" := ⟨_, rfl, rfl⟩
  refine ⟨_, _, c, _, m'', rfl, hgiven, by decide +kernel, hdecode, htext, hrun, fun h => ?_, by decide +kernel,
    rfl, hrun', hcrash _ (by decide +kernel)⟩
  obtain ⟨e, he⟩ := hcrashed.1 h
  cases hdecode.symm.trans he

end Drama
