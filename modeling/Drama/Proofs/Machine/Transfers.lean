-- SUMMARY: The log of transfers: which steps it tells of, and that nothing is ever taken out of it.
import Drama.Proofs.Machine.Input

/-!
# The log of transfers

A command that reads leaves the machine waiting, and the word that it asks for comes later, by a call or in the
course of a run. So in every machine that has been loaded, the steps that have read are as many as the words
given, and one more while the machine waits. Steps that print have left the word of register 0 in the log, each
where its turn came.
-/

namespace Drama

/-- The word of a transfer from the machine. -/
def Transfer.output? : Transfer → Option MachineWord
  | .input _ => none
  | .output w => some w

namespace Machine

variable {m m' : Machine}

/-- The words that the machine has given out, in order. -/
def outputs (m : Machine) : List MachineWord := m.transfers.toList.filterMap Transfer.output?

/-- How many words the machine waits for. -/
def awaited (m : Machine) : Nat := if m.state = .waitingForInput then 1 else 0

theorem outputs_stepped (m : Machine) :
    m.stepped.outputs = m.outputs ++ if m.executes "DRU" then [m.register 0] else [] := by
  have hprinted : m.printed.filterMap Transfer.output? =
      if m.executes "DRU" then [m.register 0] else [] := by
    unfold printed
    split <;> rfl
  rw [outputs, stepped_transfers, List.filterMap_append, hprinted]
  rfl

theorem outputs_supplied (m : Machine) (w : MachineWord) : (m.supplied w).outputs = m.outputs := by
  simp [outputs, supplied, Transfer.output?]

theorem awaited_stepped (h : m.state = .ready) : m.stepped.awaited = if m.executes "LEZ" then 1 else 0 := by
  simp only [awaited, stepped_state_waiting_iff h]

/-! ## The steps among calls -/

/-- The machines that take a step in the course of calls, each as it is before the step. -/
def stepsOf (m : Machine) : List Call → List Machine
  | [] => []
  | .executeNext :: calls => m :: m.stepped.stepsOf calls
  | .provideInput w :: calls => (m.supplied w).stepsOf calls

/-- Calls that are accepted add to the log at its end. -/
theorem Accepts.transfers_isPrefix {calls : List Call} (h : m.Accepts calls m') :
    m.transfers.toList <+: m'.transfers.toList := by
  induction h with
  | nil => exact List.prefix_rfl
  | @cons m₁ _ _ c calls hrun _ ih =>
    obtain ⟨-, rfl⟩ := Call.of_run hrun
    refine List.IsPrefix.trans ?_ ih
    cases c with
    | executeNext => exact ⟨m₁.printed, m₁.stepped_transfers.symm⟩
    | provideInput w => exact ⟨[.input w], by simp [Call.result, supplied]⟩

/-- What the log of a machine tells of the steps that were taken. -/
structure TellsOf (steps : List Machine) (m : Machine) : Prop where
  length : steps.length = m.steps
  reads : steps.countP (·.executes "LEZ") = m.inputs.length + m.awaited
  prints : m.outputs = (steps.filter (·.executes "DRU")).map (·.register 0)

namespace TellsOf

variable {steps : List Machine}

theorem loaded (program : Option Program) (memory : Memory) :
    TellsOf [] { empty with program := program, memory := memory } := ⟨rfl, rfl, rfl⟩

theorem stepped (h : TellsOf steps m) (hready : m.state = .ready) : TellsOf (steps ++ [m]) m.stepped := by
  have hawaited : m.awaited = 0 := by simp [awaited, hready]
  refine ⟨?_, ?_, ?_⟩
  · rw [List.length_append, h.length, stepped_steps]
    rfl
  · rw [List.countP_append, h.reads, hawaited, inputs_stepped, awaited_stepped hready, List.countP_singleton]
    rfl
  · rw [List.filter_append, List.map_append, ← h.prints, outputs_stepped]
    cases hprints : m.executes "DRU" <;> simp [hprints]

theorem supplied (h : TellsOf steps m) (hwaiting : m.state = .waitingForInput) (w : MachineWord) :
    TellsOf steps (m.supplied w) := by
  have hawaited : m.awaited = 1 := by simp [awaited, hwaiting]
  refine ⟨h.length, ?_, ?_⟩
  · rw [h.reads, hawaited, inputs_supplied, List.length_append]
    rfl
  · rw [h.prints.symm, outputs_supplied]

/-- Accepted calls add their steps to those that the log tells of. -/
theorem accepts {calls : List Call} (h : TellsOf steps m) (haccepts : m.Accepts calls m') :
    TellsOf (steps ++ m.stepsOf calls) m' := by
  induction haccepts generalizing steps with
  | nil => rwa [stepsOf, List.append_nil]
  | @cons m _ _ c calls hrun _ ih =>
    obtain ⟨hstate, rfl⟩ := Call.of_run hrun
    cases c with
    | executeNext =>
      have hothers := ih (h.stepped hstate)
      rwa [List.append_assoc] at hothers
    | provideInput w => exact ih (h.supplied hstate w)

end TellsOf

/-! ## Histories -/

/-- A machine that has just been loaded: with words, whatever it was before, or with a program. -/
def Loaded (m : Machine) : Prop :=
  (∃ words before, (load words).run before = .ok () m) ∨ ∃ p, ofProgram p = .ok m

theorem Loaded.exists_eq (h : m.Loaded) :
    ∃ program memory, m = { empty with program := program, memory := memory } := by
  obtain ⟨words, before, hload⟩ | hprogram := h
  · exact of_load hload
  · exact Made.exists_eq (.inr hprogram)

/-- The machines that requests other than loading lead to, with all steps that were taken on the way. -/
inductive Requested (start : Machine) : List Machine → Machine → Prop
  | start : Requested start [] start
  | request {steps : List Machine} {m : Machine} (h : Requested start steps m) (r : Request)
      (hload : r.isLoad = false) : Requested start (steps ++ m.stepsOf (r.calls m)) (m.left r.action)

theorem Requested.tellsOf {start : Machine} {steps : List Machine} (h : start.Requested steps m)
    (hstart : start.Loaded) : TellsOf steps m := by
  induction h with
  | start =>
    obtain ⟨program, memory, rfl⟩ := hstart.exists_eq
    exact .loaded program memory
  | request _ r hload ih => exact ih.accepts (Request.accepts hload _)

/-- What holds of the log of a machine, the steps that it has taken since it was loaded being known. -/
structure FaithfulLog (steps : List Machine) (m : Machine) : Prop where
  length : steps.length = m.steps
  reads : steps.countP (·.executes "LEZ") =
    m.inputs.length + if m.state = .waitingForInput then 1 else 0
  prints : m.outputs.length = steps.countP (·.executes "DRU")
  /-- The words that were given out are those that stood in register 0 when the steps that print were taken. -/
  outputs : m.outputs = (steps.filter (·.executes "DRU")).map (·.register 0)
  extended : ∀ r : Request, r.isLoad = false →
    m.transfers.toList <+: (m.left r.action).transfers.toList
  /-- A run gives the machine a first part of its input, each word once and in order. -/
  run : ∀ limit inputs, ∃ m' given, (run limit inputs).run m = .ok () m' ∧ given <+: inputs ∧
    m'.inputs = m.inputs ++ given.map Word.wrap
  runSupplied : ∀ limit inputs supply, ∃ given, given <+: inputs ++ supply ∧
    (m.left (runSupplied limit inputs supply)).inputs = m.inputs ++ given.map Word.wrap

theorem TellsOf.faithfulLog {steps : List Machine} (h : TellsOf steps m) : FaithfulLog steps m where
  length := h.length
  reads := h.reads
  prints := by rw [h.prints, List.length_map, List.countP_eq_length_filter]
  outputs := h.prints
  extended _ hload := (Request.accepts hload m).transfers_isPrefix
  run limit inputs := by
    obtain ⟨m', given, rest, hrun, hconsumes⟩ := exists_consumes limit inputs m
    exact ⟨m', given, hrun, ⟨rest, hconsumes.inputs_eq.symm⟩, hconsumes.given_eq⟩
  runSupplied limit inputs supply := by
    obtain ⟨m', given, rest, hrun, hconsumes⟩ := exists_consumes limit (inputs ++ supply) m
    refine ⟨given, ⟨rest, hconsumes.inputs_eq.symm⟩, ?_⟩
    obtain hsupplied | hsupplied := runSupplied_run hrun
    · rw [left_of_ok hsupplied, hconsumes.given_eq]
    · rw [left_of_error hsupplied, hconsumes.given_eq]

end Machine

/-- Whatever has been asked of a machine since it was loaded, its log is faithful to the steps that it has
taken. -/
theorem faithfulLog_of_requested {start m : Machine} {steps : List Machine} (hstart : start.Loaded)
    (h : start.Requested steps m) : m.FaithfulLog steps :=
  (h.tellsOf hstart).faithfulLog

/-- A machine that has read a word and printed it waits for the next one. It has been run until it waited,
refused a step, and was given the word before it was run again. -/
theorem faithfulLog_of_requested_echo :
    ∃ start steps m, (Machine.load [Word.wrap 7100000000, Word.wrap 7300000000, Word.wrap 7100000000]).run
        Machine.empty = .ok () start ∧ start.Requested steps m ∧ steps.length = 3 ∧
      m.state = .waitingForInput ∧ m.transfers = #[.input (Word.wrap 5), .output (Word.wrap 5)] ∧
      m.FaithfulLog steps := by
  have hle : ([Word.wrap 7100000000, Word.wrap 7300000000, Word.wrap 7100000000] :
    List MachineWord).length ≤ addressSpace := by decide
  have hstart := Machine.load_run hle Machine.empty
  have hrequested (start : Machine) :=
    (((Machine.Requested.start : start.Requested [] start).request (.run 10 []) rfl).request
      (.call .executeNext) rfl).request (.call (.provideInput (Word.wrap 5))) rfl |>.request (.run 10 []) rfl
  exact ⟨_, _, _, hstart, hrequested _, by decide +kernel, by decide +kernel, by decide +kernel,
    faithfulLog_of_requested (.inl ⟨_, _, hstart⟩) (hrequested _)⟩

end Drama
