-- SUMMARY: What commands do to the stack: which ones leave it alone, and what saving, loading, calling and returning do.
import Drama.Proofs.Machine.Execution
import Drama.Proofs.Machine.Memory

/-!
# The stack

The stack register points to the top of the stack, which grows downwards and wraps with the addresses.
Saving a register and calling a subroutine put a word on it, loading a register and returning take one
from it. `Machine.KeepsStack` says that a number of cells below the top may have been overwritten and
nothing else; ten thousand cells in a row are all different, wherever the stack register stands.
-/

namespace Drama

/-! ## Cells below the top of the stack -/

namespace Word

/-- The address that lies a number of cells below the one that a machine word points to. -/
def cellBelow (w : MachineWord) (count : Nat) : AddressWord := wrap ((w.raw : Int) - count)

theorem toAddress_eq_cellBelow (w : MachineWord) : w.toAddress = w.cellBelow 0 := by
  have h := toAddress_wrap (w.raw : Int)
  rw [wrap_raw] at h
  rw [cellBelow, Int.natCast_zero, Int.sub_zero, h]

theorem cellBelow_decremented (w : MachineWord) (count : Nat) :
    w.decremented.cellBelow count = w.cellBelow (count + 1) := by
  -- ten digits wrap at a multiple of the number of addresses, so an address does not notice
  have hraw : (w.decremented.raw : Int) ≡ (w.raw : Int) - 1 [ZMOD (tenPow 4 : Int)] := by
    rw [decremented, raw_wrap]
    exact Int.emod_emod_of_dvd _ (by decide)
  have hsub : (w.raw : Int) - 1 - count = (w.raw : Int) - (count + 1 : Nat) := by omega
  rw [cellBelow, cellBelow, ← hsub]
  exact wrap_eq_iff.2 (hraw.sub_right _)

/-- As many cells in a row as there are addresses are all different. -/
theorem cellBelow_injective {w : MachineWord} {j k : Nat} (hj : j ≤ k) (hk : k < j + addressSpace)
    (h : w.cellBelow j = w.cellBelow k) : j = k := by
  have hdvd := (wrap_eq_iff.1 h).dvd
  have hsub : (w.raw : Int) - k - (w.raw - j) = -((k - j : Nat) : Int) := by omega
  rw [hsub, Int.dvd_neg, Int.natCast_dvd_natCast] at hdvd
  have hlt : k - j < tenPow 4 := by
    have hspace : addressSpace = tenPow 4 := rfl
    omega
  have hzero := Nat.eq_zero_of_dvd_of_lt hdvd hlt
  omega

theorem incremented_decremented (w : MachineWord) : w.decremented.incremented = w := by
  have h : (w.decremented.incremented.raw : Int) = w.raw := by
    simp only [incremented, decremented, Int.natCast_emod, Int.natCast_add, raw_wrap,
      Int.natCast_one, Int.emod_add_emod, Int.sub_add_cancel]
    exact raw_emod w
  exact Word.ext (Int.ofNat.inj h)

theorem toAddress_toMachine (a : AddressWord) : a.toMachine.toAddress = a :=
  Word.ext (Nat.mod_eq_of_lt a.raw_lt)

end Word

/-! ## Commands around the stack -/

/-- A valid command of the instruction with the given mnemonic on the given operands. -/
structure Command.Is (c : Command) (mnemonic : String) (operands : Operands) : Prop where
  valid : c.Valid
  mnemonic_eq : c.instruction.mnemonic = mnemonic
  operands_eq : c.operands = operands

theorem Command.Is.inRange {c : Command} {mnemonic : String} {operands : Operands}
    (h : c.Is mnemonic operands) : operands.InRange := h.operands_eq ▸ h.valid.inRange

/-- The register that a command puts a word into as its result. -/
def Command.destination? (c : Command) : Option Int :=
  match c.instruction.form.operation? with
  | some .load | some (.arithmetic _) => c.operands.register?
  | _ => none

/-- Whether an operand leaves the stack register as it is. -/
def Operand.LeavesStack (o : Operand) : Prop :=
  ∀ index ∈ o.index, index.modification.isSome → index.register ≠ stackRegister

/-- The instructions that neither write memory nor move the top of the stack by themselves. -/
def quietMnemonics : List String :=
  ["HIA", "OPT", "AFT", "VER", "DEL", "MOD", "VGL", "SPR", "VSP", "DRU", "LEZ", "STP"]

/-- A valid command that neither writes memory nor changes the stack register. -/
structure Command.Quiet (c : Command) : Prop where
  valid : c.Valid
  quiet : c.instruction.mnemonic ∈ quietMnemonics
  destination : c.destination? ≠ some (stackRegister : Int)
  operand : ∀ o ∈ c.operands.operand?, o.LeavesStack

/-! ## What quiet commands keep -/

namespace InstructionSet

/-- The operation of a quiet instruction, which is of none of the kinds that touch the stack. -/
theorem form_of_quiet {i : Instruction} (h : i ∈ standard.entries)
    (hquiet : i.mnemonic ∈ quietMnemonics) :
    ∃ opcode operation expansion, i.form = .coded opcode operation expansion ∧
      operation ≠ .store ∧ operation ≠ .call ∧ operation ≠ .ret := by
  have htable : ∀ i ∈ standard.entries, i.mnemonic ∈ quietMnemonics → i.opcode?.isSome ∧
      i.form.operation? ≠ some .store ∧ i.form.operation? ≠ some .call ∧
      i.form.operation? ≠ some .ret := by decide
  obtain ⟨hcoded, hstore, hcall, hret⟩ := htable i h hquiet
  obtain ⟨opcode, hopcode⟩ := Option.isSome_iff_exists.1 hcoded
  obtain ⟨operation, expansion, hform⟩ := Instruction.form_of_opcode? hopcode
  rw [hform] at hstore hcall hret
  exact ⟨opcode, operation, expansion, hform, fun h => hstore (congrArg some h),
    fun h => hcall (congrArg some h), fun h => hret (congrArg some h)⟩

end InstructionSet

theorem Operands.isRegister_register? {operands : Operands} (h : operands.InRange) :
    ∀ r ∈ operands.register?, IsRegister r := by
  cases operands with
  | register => simpa [register?, InRange] using h
  | registers | registerAddress => simpa [register?] using h.1
  | nullary | address | conditionAddress => exact nofun

theorem isRegister_stackRegister : IsRegister stackRegister := by decide

namespace Machine

/-- The stack register and all cells but some right below the top of the stack are as they were. -/
structure KeepsStack (depth : Nat) (m m' : Machine) : Prop where
  register : m'.register stackRegister = m.register stackRegister
  memory : ∀ a, (∀ k < depth, a ≠ (m.register stackRegister).cellBelow (k + 1)) →
    m'.memory.read a = m.memory.read a

namespace KeepsStack

variable {depth : Nat} {m m' m'' : Machine}

theorem refl : KeepsStack depth m m := ⟨rfl, fun _ _ => rfl⟩

theorem trans (h : KeepsStack depth m m') (h' : KeepsStack depth m' m'') :
    KeepsStack depth m m'' := by
  refine ⟨h'.register.trans h.register, fun a ha => ?_⟩
  rw [h'.memory a (by rwa [h.register]), h.memory a ha]

/-- Commands that change nothing but other registers keep all cells. -/
theorem of_memory_eq (hregister : m'.register stackRegister = m.register stackRegister)
    (hmemory : m'.memory = m.memory) : KeepsStack depth m m' :=
  ⟨hregister, fun a _ => by rw [hmemory]⟩

end KeepsStack

/-- Using an index register leaves the registers that it does not step. -/
theorem register_stepIndex {o : Operand} (ho : o.InRange) {r : Int} (hr : IsRegister r)
    (hne : ∀ index ∈ o.index, index.modification.isSome → index.register ≠ r) (m : Machine) :
    (m.stepIndex o.index).register r = m.register r := by
  obtain ⟨base, index⟩ := o
  cases index with
  | none => rfl
  | some index =>
    obtain ⟨s, modification⟩ := index
    cases modification with
    | none => rfl
    | some modification =>
      have hs : s ≠ r := hne _ rfl rfl
      exact register_setRegister_of_ne hr (ho _ rfl) hs.symm _

theorem register_lookUp {operands : Operands} (hrange : operands.InRange) {r : Int}
    (hr : IsRegister r) (hne : ∀ o ∈ operands.operand?, ∀ index ∈ o.index,
      index.modification.isSome → index.register ≠ r) (m : Machine) :
    (m.lookUp operands).register r = m.register r := by
  cases operands with
  | nullary | register | registers => rfl
  | address | conditionAddress => exact register_stepIndex hrange hr (hne _ rfl) m
  | registerAddress => exact register_stepIndex hrange.2 hr (hne _ rfl) m

/-- A quiet command keeps the stack register and all of memory. -/
theorem execute_quiet {c : Command} (h : c.Quiet) (m : Machine) :
    ∃ m', (execute .standard c).run m = .ok () m' ∧
      m'.register stackRegister = m.register stackRegister ∧ m'.memory = m.memory := by
  obtain ⟨opcode, operation, expansion, hform, hstore, hcall, hret⟩ :=
    InstructionSet.form_of_quiet h.valid.standard h.quiet
  have hcoded : c.instruction.opcode?.isSome := by
    simp only [Instruction.opcode?, hform]
    rfl
  have hrange := h.valid.inRange
  have hregister := register_lookUp hrange isRegister_stackRegister h.operand m
  have hmemory := m.lookUp_memory c.operands
  refine ⟨m.executed c, execute_run h.valid (Command.native_of_opcode hcoded _) m, ?_⟩
  -- the result goes into a register other than the one of the stack
  have hresult (hdest : c.destination? = c.operands.register?) (w : MachineWord) :
      ((m.lookUp c.operands).loadRegister (c.operands.register?.getD 0) w).register stackRegister =
        m.register stackRegister := by
    have hr : IsRegister (c.operands.register?.getD 0) := by
      cases hregister? : c.operands.register? with
      | none => decide
      | some r => exact Operands.isRegister_register? hrange r hregister?
    have hne : (stackRegister : Int) ≠ c.operands.register?.getD 0 := by
      intro heq
      have hdestination := h.destination
      rw [hdest] at hdestination
      cases hregister? : c.operands.register? with
      | none =>
        rw [hregister?] at heq
        exact absurd heq (by decide)
      | some r =>
        rw [hregister?] at heq hdestination
        exact hdestination (congrArg some heq.symm)
    exact (register_setRegister_of_ne isRegister_stackRegister hr hne _).trans hregister
  simp only [executed, hform]
  cases operation with
  | load | arithmetic =>
    have hdest : c.destination? = c.operands.register? := by
      simp only [Command.destination?, hform, Form.operation?]
    exact ⟨hresult hdest _, hmemory⟩
  | compare | jump => exact ⟨hregister, hmemory⟩
  | branch =>
    rw [effect]
    split
    · exact ⟨hregister, hmemory⟩
    · exact ⟨rfl, rfl⟩
  | read | print | halt => exact ⟨rfl, rfl⟩
  | store => exact absurd rfl hstore
  | call => exact absurd rfl hcall
  | ret => exact absurd rfl hret

/-! ## What pairs do -/

/-- A word has been put on the stack. -/
structure Pushed (m m' : Machine) (w : MachineWord) : Prop where
  register : m'.register stackRegister = (m.register stackRegister).decremented
  memory : m'.memory = m.memory.write ((m.register stackRegister).cellBelow 1) w

/-- The stack register has moved past the top of the stack. -/
structure Popped (m m' : Machine) : Prop where
  register : m'.register stackRegister = (m.register stackRegister).incremented
  memory : m'.memory = m.memory

/-- The word on top of the stack. -/
def top (m : Machine) : MachineWord := m.memory.read (m.register stackRegister).toAddress

theorem Pushed.top_eq {m m' : Machine} {w : MachineWord} (h : m.Pushed m' w) : m'.top = w := by
  rw [top, h.register, h.memory, Word.toAddress_eq_cellBelow, Word.cellBelow_decremented,
    Memory.read_write]

/-- Saving a register and loading one are a store and a load through the stack register. -/
theorem execute_stacking {c : Command} {mnemonic target : String} {modification : Modification}
    {r : Int} (h : c.Is mnemonic (.register r))
    (hform : c.instruction.form = .derived (.stack target modification) none) {i : Instruction}
    (hfind : InstructionSet.standard.find? target = some i)
    (hshapes : i.shapes.contains .registerAddress = true) {opcode : Fin 100} {operation : Operation}
    {expansion : Option Expansion} (htarget : i.form = .coded opcode operation expansion)
    (m : Machine) :
    (execute .standard c).run m =
      .ok () (m.effect operation (.registerAddress r .direct (.stackTop modification))) := by
  have hnative : c.native .standard =
      .ok ⟨i, .registerAddress r .direct (.stackTop modification)⟩ := by
    simp only [Command.native, hform, h.operands_eq]
    exact Expansion.expand_stack hfind hshapes modification r
  rw [execute_run h.valid hnative m]
  simp only [executed, htarget]

theorem execute_push {push : Command} {r : Int} (h : push.Is "BST" (.register r))
    (hr : r ≠ stackRegister) (m : Machine) :
    ∃ m', (execute .standard push).run m = .ok () m' ∧ m.Pushed m' (m.register r) := by
  have htable : ∀ i ∈ InstructionSet.standard.entries, i.mnemonic = "BST" →
      i.form = .derived (.stack "BIG" .preDecrement) none := by decide
  have hform := htable _ h.valid.standard h.mnemonic_eq
  have hrange : IsRegister r := h.inRange
  refine ⟨_, execute_stacking h hform rfl rfl rfl m, ?_, ?_⟩
  · exact register_setRegister m _ _
  · have hw : (m.setRegister stackRegister (m.register stackRegister).decremented).register r =
        m.register r := register_setRegister_of_ne hrange isRegister_stackRegister hr _
    have hsum : m.sum (.stackTop .preDecrement) = (m.register stackRegister).decremented := by
      simp only [sum, Operand.stackTop, indexValue, Int.zero_add]
      exact Word.wrap_signed _
    show m.memory.write (m.addressOf .direct _) _ = _
    rw [addressOf, if_neg (by decide), hsum, Word.toAddress_eq_cellBelow, Word.cellBelow_decremented]
    exact congrArg _ hw

theorem execute_pop {pop : Command} {s : Int} (h : pop.Is "HST" (.register s))
    (hs : s ≠ stackRegister) (m : Machine) :
    ∃ m', (execute .standard pop).run m = .ok () m' ∧ m.Popped m' ∧ m'.register s = m.top := by
  have htable : ∀ i ∈ InstructionSet.standard.entries, i.mnemonic = "HST" →
      i.form = .derived (.stack "HIA" .postIncrement) none := by decide
  have hform := htable _ h.valid.standard h.mnemonic_eq
  have hrange : IsRegister s := h.inRange
  refine ⟨_, execute_stacking h hform rfl rfl rfl m, ⟨?_, rfl⟩, ?_⟩
  · have hindex := m.register_setRegister stackRegister (m.register stackRegister).incremented
    exact (register_setRegister_of_ne isRegister_stackRegister hrange hs.symm _).trans hindex
  · have hsum : m.sum (.stackTop .postIncrement) = m.register stackRegister := by
      simp only [sum, Operand.stackTop, indexValue, Int.zero_add]
      exact Word.wrap_signed _
    rw [top, ← hsum]
    exact register_setRegister _ _ _

/-- The machine after a command that is carried out as it stands. -/
theorem execute_coded {c : Command} (h : c.Valid) {operation : Operation}
    (hcoded : c.instruction.opcode?.isSome)
    (hoperation : c.instruction.form.operation? = some operation) (m : Machine) :
    (execute .standard c).run m = .ok () (m.effect operation c.operands) := by
  obtain ⟨opcode, hopcode⟩ := Option.isSome_iff_exists.1 hcoded
  obtain ⟨_, expansion, hform⟩ := Instruction.form_of_opcode? hopcode
  rw [execute_run h (Command.native_of_opcode hcoded _) m]
  rw [hform] at hoperation
  cases hoperation
  simp only [executed, hform]

/-- A command of an instruction with an opcode has the effect of its operation. -/
theorem execute_of_is {c : Command} {mnemonic : String} {operands : Operands}
    (h : c.Is mnemonic operands) (operation : Operation)
    (htable : ∀ i ∈ InstructionSet.standard.entries, i.mnemonic = mnemonic →
      i.opcode?.isSome ∧ i.form.operation? = some operation) (m : Machine) :
    (execute .standard c).run m = .ok () (m.effect operation operands) := by
  obtain ⟨hcoded, hoperation⟩ := htable _ h.valid.standard h.mnemonic_eq
  rw [execute_coded h.valid hcoded hoperation, h.operands_eq]

theorem execute_call {call : Command} {mode : AddressingMode} {o : Operand}
    (h : call.Is "SBR" (.address mode o)) (ho : o.LeavesStack) (m : Machine) :
    ∃ m', (execute .standard call).run m = .ok () m' ∧ m.Pushed m' m.pc.toMachine := by
  have hrange : o.InRange := h.inRange
  refine ⟨_, execute_of_is h .call (by decide) m, ?_, ?_⟩
  · exact (register_stepIndex hrange isRegister_stackRegister ho m.pushed).trans
      (register_setRegister m _ _)
  · show (m.pushed.stepIndex o.index).memory = _
    rw [stepIndex_memory, ← Word.cellBelow_decremented, ← Word.toAddress_eq_cellBelow]
    rfl

theorem execute_ret {ret : Command} (h : ret.Is "KTG" .nullary) (m : Machine) :
    ∃ m', (execute .standard ret).run m = .ok () m' ∧ m.Popped m' ∧ m'.pc = m.top.toAddress :=
  ⟨_, execute_of_is h .ret (by decide) m, ⟨register_setRegister m _ _, rfl⟩, rfl⟩

/-- The top of the stack outlives the overwriting of cells below it, unless it comes full circle. -/
theorem KeepsStack.top_eq {depth : Nat} {m m' : Machine} (h : m.KeepsStack depth m')
    (hdepth : depth < addressSpace) : m'.top = m.top := by
  rw [top, h.register, Word.toAddress_eq_cellBelow]
  rw [h.memory, top, Word.toAddress_eq_cellBelow]
  intro k hk heq
  have hzero := Word.cellBelow_injective (Nat.zero_le _) (by omega) heq
  omega

/-- A word is put on the stack and taken from it around a stretch that keeps the stack. -/
theorem Pushed.keepsStack {depth : Nat} {m m₁ m₂ m₃ : Machine} {w : MachineWord}
    (hpushed : m.Pushed m₁ w) (hkeeps : m₁.KeepsStack depth m₂) (hpopped : m₂.Popped m₃) :
    m.KeepsStack (depth + 1) m₃ := by
  constructor
  · rw [hpopped.register, hkeeps.register, hpushed.register, Word.incremented_decremented]
  · intro a ha
    have hinner : m₂.memory.read a = m₁.memory.read a := by
      refine hkeeps.memory a fun k hk => ?_
      rw [hpushed.register, Word.cellBelow_decremented]
      exact ha (k + 1) (by omega)
    rw [hpopped.memory, hinner, hpushed.memory, Memory.read_write_of_ne _ _ (ha 0 (by omega))]

end Machine

end Drama
