-- SUMMARY: Loads and stores find the same cell for an operand, and a load gives back what was stored there.
import Drama.Proofs.Machine.Stack

/-!
# Addressing

An operand in memory is accessed in two ways: a load takes its value, a store takes its address. Both evaluate
the operand, which may step its index register, and go the same way from there, so the value is what stands at
the address (`Machine.operandValue_eq`). A load after a store to the same operand therefore gives back the word
that was stored. The one exception is a store that overwrites the pointer by which it found its cell.
-/

namespace Drama

/-- Whether evaluating the operand leaves its index register as it is. -/
def Operand.Unmodified (o : Operand) : Prop := ∀ index ∈ o.index, index.modification = none

namespace Machine

variable {m : Machine} {mode : AddressingMode} {o : Operand}

/-! ## Values and addresses -/

/-- The value of an operand in memory is what stands at its address, whatever the operand is. -/
theorem operandValue_eq (hmode : mode.accessesMemory = true) (o : Operand) :
    operandValue (some mode) o = destination (some mode) o >>= readCell := by
  cases mode with
  | value | address => cases hmode
  | direct | indirect =>
    rw [operandValue, destination, bind_assoc]
    rfl

theorem valueOf_eq (hmode : mode.accessesMemory = true) (m : Machine) (o : Operand) :
    m.valueOf mode o = m.memory.read (m.addressOf mode o) := by
  cases mode with
  | value | address => cases hmode
  | direct | indirect => rfl

/-! ## Stores -/

/-- The cell that the operand gives contains its own address, as far as addresses tell. -/
def PointsToItself (m : Machine) (o : Operand) : Prop :=
  (m.memory.read (m.sum o).toAddress).toAddress = (m.sum o).toAddress

instance (m : Machine) (o : Operand) : Decidable (m.PointsToItself o) :=
  inferInstanceAs (Decidable (_ = _))

theorem stepIndex_of_unmodified (ho : o.Unmodified) (m : Machine) : m.stepIndex o.index = m := by
  obtain ⟨base, index⟩ := o
  cases index with
  | none => rfl
  | some index =>
    obtain ⟨r, modification⟩ := index
    obtain rfl : modification = none := ho _ rfl
    rfl

/-- Evaluating an operand depends on the registers alone. -/
theorem sum_congr {m' : Machine} (h : m'.registers = m.registers) (o : Operand) :
    m'.sum o = m.sum o := by
  obtain ⟨base, index⟩ := o
  have hregister (r : Int) : m'.register r = m.register r := by rw [register, register, h]
  rcases index with _ | ⟨r, _ | modification⟩
  · rfl
  · simp only [sum, indexValue, hregister]
  · simp only [sum, indexValue, hregister]

/-- A store moves the address that it was made to only if it overwrites the pointer to it. -/
theorem addressOf_of_store {m' : Machine} {w : MachineWord} (hregisters : m'.registers = m.registers)
    (hmemory : m'.memory = m.memory.write (m.addressOf mode o) w)
    (hpointer : mode = .indirect → ¬ m.PointsToItself o) :
    m'.addressOf mode o = m.addressOf mode o := by
  have hsum := sum_congr hregisters o
  by_cases hmode : mode = .indirect
  · have hne : (m.sum o).toAddress ≠ m.addressOf mode o := by
      rw [addressOf, if_pos hmode]
      exact Ne.symm (hpointer hmode)
    have hread : m'.memory.read (m.sum o).toAddress = m.memory.read (m.sum o).toAddress := by
      rw [hmemory]
      exact Memory.read_write_of_ne _ _ hne
    rw [addressOf, addressOf, if_pos hmode, if_pos hmode, hsum, hread]
  · rw [addressOf, addressOf, if_neg hmode, if_neg hmode, hsum]

/-! ## Storing and loading -/

/-- What is left by a store to an operand that steps no index register. -/
theorem effect_store (ho : o.Unmodified) (m : Machine) (r : Int) :
    m.effect .store (.registerAddress r mode o) =
      { m with
        condition := .ofWord (m.register r)
        memory := m.memory.write (m.addressOf mode o) (m.register r) } := by
  have hlookUp : m.lookUp (.registerAddress r mode o) = m := stepIndex_of_unmodified ho m
  simp only [effect, hlookUp]
  rfl

/-- What is left by a load from an operand that steps no index register. -/
theorem effect_load (ho : o.Unmodified) (m : Machine) (s : Int) :
    m.effect .load (.registerAddress s mode o) = m.loadRegister s (m.valueOf mode o) := by
  have hlookUp : m.lookUp (.registerAddress s mode o) = m := stepIndex_of_unmodified ho m
  simp only [effect, hlookUp]
  rfl

/-- What an operand stands for after a store to it. -/
theorem valueOf_effect_store (hmode : mode.accessesMemory = true) (ho : o.Unmodified)
    (hpointer : mode = .indirect → ¬ m.PointsToItself o) (r : Int) :
    (m.effect .store (.registerAddress r mode o)).valueOf mode o = m.register r := by
  have haddress : (m.effect .store (.registerAddress r mode o)).addressOf mode o =
      m.addressOf mode o := by
    rw [effect_store ho]
    exact addressOf_of_store rfl rfl hpointer
  rw [valueOf_eq hmode, haddress, effect_store ho]
  exact Memory.read_write _ _ _

end Machine

/-- In the modes that access memory, the value of an operand is what stands at the address that the operand
leads to, and finding one has the same outcome as finding the other: the same fault, or the same change of
registers and of nothing else. A register that is stored and loaded into another one through an operand that
steps no index register arrives there, unless the address is found by a pointer that points to itself. In any
case the cell at the address is the only one that may change. -/
theorem load_of_store {mode : AddressingMode} (hmode : mode.accessesMemory = true) (o : Operand) :
    Machine.operandValue (some mode) o = Machine.destination (some mode) o >>= Machine.readCell ∧
      (o.InRange → ∀ m : Machine, ∃ a registers,
        (Machine.destination (some mode) o).run m = .ok a { m with registers := registers } ∧
        (Machine.operandValue (some mode) o).run m =
          .ok (m.memory.read a) { m with registers := registers }) ∧
      ∀ store load : Command, ∀ r s : Int, store.Is "BIG" (.registerAddress r mode o) →
        load.Is "HIA" (.registerAddress s mode o) → o.Unmodified → ∀ m : Machine, ∃ a m₁ m₂,
          (Machine.destination (some mode) o).run m = .ok a m ∧
          (Machine.execute .standard store).run m = .ok () m₁ ∧
          (Machine.execute .standard load).run m₁ = .ok () m₂ ∧
          (∀ b, b ≠ a → m₂.memory.read b = m.memory.read b) ∧
          ((mode = .indirect → ¬ m.PointsToItself o) → m₂.register s = m.register r) := by
  refine ⟨Machine.operandValue_eq hmode o, fun ho m => ?_, fun store load r s hstore hload hplain m => ?_⟩
  · refine ⟨m.addressOf mode o, (m.stepIndex o.index).registers, ?_, ?_⟩
    · rw [Machine.destination_run ho, ← m.stepIndex_eq]
    · rw [Machine.operandValue_run ho, ← m.stepIndex_eq, Machine.valueOf_eq hmode]
  · have ho : o.InRange := hstore.inRange.2
    have haddress := Machine.destination_run ho mode m
    rw [Machine.stepIndex_of_unmodified hplain] at haddress
    refine ⟨m.addressOf mode o, _, _, haddress, Machine.execute_of_is hstore .store (by decide) m,
      Machine.execute_of_is hload .load (by decide) _, ?_, ?_⟩
    · intro b hb
      rw [Machine.effect_load hplain, Machine.effect_store hplain]
      exact Memory.read_write_of_ne _ _ hb
    · intro hpointer
      rw [Machine.effect_load hplain, Machine.register_loadRegister]
      exact Machine.valueOf_effect_store hmode hplain hpointer r

/-- Register 1 is stored where cell 12 points to, and loaded from there into the index register itself. -/
theorem load_of_store_through_pointer :
    ∃ store load : Command, store.Is "BIG" (.registerAddress 1 .indirect ⟨10, some ⟨2, none⟩⟩) ∧
      load.Is "HIA" (.registerAddress 2 .indirect ⟨10, some ⟨2, none⟩⟩) ∧
      ∃ m m₁ m₂ : Machine, m.register 1 = Word.wrap 7 ∧ m.register 2 = Word.wrap 2 ∧
        m.memory.read (Word.wrap 12) = Word.wrap 50034 ∧
        (Machine.execute .standard store).run m = .ok () m₁ ∧
        (Machine.execute .standard load).run m₁ = .ok () m₂ ∧ m₂.register 2 = Word.wrap 7 := by
  let store : Command :=
    ⟨⟨"BIG", .ofList [.registerAddress], true, .coded 12 .store none⟩,
      .registerAddress 1 .indirect ⟨10, some ⟨2, none⟩⟩⟩
  let load : Command :=
    ⟨⟨"HIA", .ofList [.registers, .registerAddress], false, .coded 11 .load none⟩,
      .registerAddress 2 .indirect ⟨10, some ⟨2, none⟩⟩⟩
  let m : Machine :=
    { (Machine.empty.setRegister 1 (Word.wrap 7)).setRegister 2 (Word.wrap 2) with
      memory := Memory.empty.write (Word.wrap 12) (Word.wrap 50034) }
  have hstore : store.Is "BIG" (.registerAddress 1 .indirect ⟨10, some ⟨2, none⟩⟩) :=
    ⟨by decide, rfl, rfl⟩
  have hload : load.Is "HIA" (.registerAddress 2 .indirect ⟨10, some ⟨2, none⟩⟩) :=
    ⟨by decide, rfl, rfl⟩
  have hplain : Operand.Unmodified ⟨10, some ⟨2, none⟩⟩ := by
    rintro index ⟨⟩
    rfl
  have hmode : AddressingMode.indirect.accessesMemory = true := rfl
  obtain ⟨-, -, hround⟩ := load_of_store hmode ⟨10, some ⟨2, none⟩⟩
  obtain ⟨a, m₁, m₂, -, hrun₁, hrun₂, -, hvalue⟩ := hround store load 1 2 hstore hload hplain m
  have hpointer : ¬ m.PointsToItself ⟨10, some ⟨2, none⟩⟩ := by decide
  exact ⟨store, load, hstore, hload, m, m₁, m₂, by decide, by decide, by decide, hrun₁, hrun₂,
    (hvalue fun _ => hpointer).trans (by decide)⟩

/-- A pointer to itself is overwritten by the store, and the load goes where the stored word points to. -/
example :
    let m : Machine :=
      { Machine.empty.setRegister 1 (Word.wrap 7) with
        memory := Memory.empty.write (Word.wrap 10) (Word.wrap 10) }
    ((m.effect .store (.registerAddress 1 .indirect ⟨10, none⟩)).effect .load
      (.registerAddress 2 .indirect ⟨10, none⟩)).register 2 = Word.zero := by
  decide

end Drama
