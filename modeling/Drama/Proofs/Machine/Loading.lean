-- SUMMARY: Loading makes every machine the same if the words fit into memory, and what it leaves if they do not.
import Drama.Proofs.Machine.LifeCycle
import Drama.Proofs.Machine.PlainArray
import Drama.Proofs.Machine.Run

/-!
# Loading

A machine that is loaded with words becomes a fresh machine with these words, whatever was asked of it before and
however that ended. The memory of a fresh machine is that of a plain array into which the words have been loaded:
all cells behind the words are zero, and the bins are those that the words reach into.

Words are written one after the other, so it shows only at the first one without an address that there are too many
of them. The machine is then left with the words before that one, without its program, and otherwise as it was.
-/

namespace Drama

/-- The word of a place when words are loaded from address 0 on. -/
theorem loaded?_zero (words : List MachineWord) (place : Fin addressSpace) :
    loaded? 0 words place = words[place.val]? := by
  rw [loaded?, if_pos (by omega), Int.sub_zero, Int.toNat_natCast]

/-- Filling the memory of a machine is loading the plain array that models it. -/
theorem Plain.Models.fill {p : Plain} {m : Machine} {words : List MachineWord} (h : p.Models m.memory)
    (hle : words.length ≤ addressSpace) : (p.load 0 words).Models (m.memory.fill 0 words) := by
  have hend : 0 + words.length ≤ addressSpace := by omega
  have hwrite : (Machine.writeAll 0 words).run m = .ok () { m with memory := m.memory.fill 0 words } :=
    Machine.writeAll_run hend m
  have haction : (Access.load 0 words).action.run m =
      .ok none { m with memory := m.memory.fill 0 words } := Machine.run_bind hwrite _
  obtain ⟨memory, hanswer, hmodels⟩ := h.follows_load 0 words
  have hmemory : m.memory.fill 0 words = memory := by
    rw [Access.perform, haction] at hanswer
    exact congrArg (fun result => result.2.memory) hanswer
  have hload : (Plain.perform (.load 0 words) p).2 = p.load 0 words := by
    rw [Plain.perform]
    split <;> rfl
  rwa [hmemory, ← hload]

namespace Memory

variable {words : List MachineWord}

theorem models_fill (hle : words.length ≤ addressSpace) : (Plain.zero.load 0 words).Models (empty.fill 0 words) :=
  Plain.Models.fill (m := Machine.empty) .empty hle

/-- Cells behind the last word that was loaded are zero. -/
theorem read_fill (hle : words.length ≤ addressSpace) (a : AddressWord) :
    (empty.fill 0 words).read a = words[a.raw]?.getD Word.zero := by
  rw [(models_fill hle).read_eq a]
  simp [Plain.load, Plain.zero, loaded?_zero, placeOf]

theorem mem_materialised_fill (hle : words.length ≤ addressSpace) (i : Nat) :
    i ∈ (empty.fill 0 words).materialised ↔ i * binSize < words.length := by
  rw [(models_fill hle).mem_materialised]
  simp only [Plain.load, Plain.zero, loaded?_zero, Finset.empty_union, Finset.mem_filter, Finset.mem_univ,
    true_and, isSome_getElem?]
  constructor
  · rintro ⟨place, hplace, rfl⟩
    exact Nat.lt_of_le_of_lt (Nat.div_mul_le_self _ _) hplace
  · intro hi
    exact ⟨⟨i * binSize, Nat.lt_of_lt_of_le hi hle⟩, hi, Nat.mul_div_cancel _ (by decide)⟩

/-- The bins are those that the words reach into, from the first one on. -/
theorem materialised_fill (hle : words.length ≤ addressSpace) :
    (empty.fill 0 words).materialised = List.range ((words.length + binSize - 1) / binSize) := by
  apply (pairwise_materialised _).eq_of_mem_iff List.pairwise_lt_range
  intro i
  rw [mem_materialised_fill hle, List.mem_range, Nat.lt_div_iff_mul_lt (by decide), binSize]
  omega

end Memory

namespace Machine

/-- What a machine is that has just been loaded with words. -/
structure Fresh (words : List MachineWord) (m : Machine) : Prop where
  program : m.program = none
  cells : ∀ a, m.memory.read a = words[a.raw]?.getD Word.zero
  bins : m.memory.materialised = List.range ((words.length + binSize - 1) / binSize)
  stack : m.register stackRegister = Word.wrap stackBase
  registers : ∀ r : Fin registerCount, r.val ≠ stackRegister → m.registers.get r = Word.zero
  pc : m.pc = Word.zero
  previousPc : m.previousPc = none
  condition : m.condition = .zero
  state : m.state = .ready
  crash : m.crash = none
  transfers : m.transfers = #[]
  steps : m.steps = 0

theorem initialRegisters_get {r : Fin registerCount} (h : r.val ≠ stackRegister) :
    initialRegisters.get r = Word.zero := by
  revert r
  decide

theorem fresh_fill {words : List MachineWord} (hle : words.length ≤ addressSpace) :
    Fresh words { empty with memory := Memory.empty.fill 0 words } where
  program := rfl
  cells := Memory.read_fill hle
  bins := Memory.materialised_fill hle
  stack := rfl
  registers _ hr := initialRegisters_get hr
  pc := rfl
  previousPc := rfl
  condition := rfl
  state := rfl
  crash := rfl
  transfers := rfl
  steps := rfl

/-- The faults that actions end in, one after the other, and the machine that each of them leaves. -/
def answers (m : Machine) : List (MachineM Unit) → List (Option Fault × Machine)
  | [] => []
  | action :: later =>
    match action.run m with
    | .ok _ m' => (none, m') :: m'.answers later
    | .error fault m' => (some fault, m') :: m'.answers later

end Machine

/-- Loading makes every machine the fresh machine with the words, whatever it was before. From then on all that
is done with the two has the same outcome. -/
theorem load_forgets {words : List MachineWord} (h : words.length ≤ addressSpace) :
    ∃ fresh, Machine.ofWords words = .ok fresh ∧ fresh.Fresh words ∧
      ∀ m : Machine, (Machine.load words).run m = .ok () fresh ∧
        ∀ later, (m.left (Machine.load words)).answers later = fresh.answers later := by
  refine ⟨_, Machine.ofWords_eq h, Machine.fresh_fill h, fun m => ?_⟩
  have hload := Machine.load_run h m
  refine ⟨hload, fun later => ?_⟩
  rw [Machine.left_of_ok hload]

/-- A machine that has read a word, printed it and crashed of what stands behind is loaded with a command that
halts. Its memory, its registers and its log are those of a fresh machine, and it halts after one step. -/
theorem load_forgets_crashed :
    ∃ start m fresh, Machine.ofWords [Word.wrap 7100000000, Word.wrap 7300000000] = .ok start ∧
      (Machine.run 10 [5]).run start = .ok () m ∧ m.state = .crashed ∧ m.register 0 = Word.wrap 5 ∧
      m.transfers.size = 2 ∧ (Machine.load [Word.wrap 9900000000]).run m = .ok () fresh ∧
      fresh.Fresh [Word.wrap 9900000000] ∧ (fresh.left Machine.executeNext).state = .halted := by
  have hstart : Machine.ofWords [Word.wrap 7100000000, Word.wrap 7300000000] = _ :=
    Machine.ofWords_eq (by decide)
  have hrun := Machine.run_eq_left 10 [5] { Machine.empty with
    memory := Memory.empty.fill 0 [Word.wrap 7100000000, Word.wrap 7300000000] }
  have hle : ([Word.wrap 9900000000] : List MachineWord).length ≤ addressSpace := by decide
  obtain ⟨fresh, hwords, hfresh, hload⟩ := load_forgets hle
  cases (Machine.ofWords_eq hle).symm.trans hwords
  exact ⟨_, _, _, hstart, hrun, by decide +kernel, by decide +kernel, by decide +kernel, (hload _).1, hfresh,
    by decide +kernel⟩

/-! ## More words than addresses -/

namespace Machine

/-- Words that reach beyond the end of memory are written up to there. -/
theorem writeAll_run_of_overfull {start : Nat} {words : List MachineWord} (hstart : start ≤ addressSpace)
    (h : addressSpace < start + words.length) (m : Machine) :
    (writeAll start words).run m = .error (.noSuchAddress addressSpace)
      { m with memory := m.memory.fill start (words.take (addressSpace - start)) } := by
  induction words generalizing start m with
  | nil => exact absurd h (Nat.not_lt.2 hstart)
  | cons w rest ih =>
    obtain hlt | rfl := Nat.lt_or_eq_of_le hstart
    · -- the first word has an address, and the others reach beyond the end
      have hrest : addressSpace < start + 1 + rest.length := by
        rw [List.length_cons] at h
        omega
      have htake : addressSpace - start = addressSpace - (start + 1) + 1 := by omega
      rw [writeAll, run_bind (writeAt_run hlt w m), htake, List.take_succ_cons]
      exact ih hlt hrest _
    · have hplace : ¬IsPlace addressSpace := fun hplace => Int.lt_irrefl _ hplace.2
      have hwrite : (writeAt (.number addressSpace) w).run m = .error (.noSuchAddress addressSpace) m := by
        have hbound : (addressSpace : Int).natAbs < Numeral.writeBound :=
          Nat.lt_of_lt_of_le (by decide) (tenPow_le (n := 5) (by decide))
        rw [writeAt, findCell, Key.resolve_of_not_isPlace hplace, refusal_of_lt hbound]
        rfl
      rw [writeAll, run_bind_error hwrite, Nat.sub_self, List.take_zero]
      rfl

/-- What is left of a machine when words do not fit into it: memory is full of the first ones, and nothing else
has changed except that there is no program any more. -/
structure Cut (words : List MachineWord) (m m' : Machine) : Prop where
  kept : m' = { m with program := none, memory := m'.memory }
  cells : ∀ a, words[a.raw]? = some (m'.memory.read a)
  bins : m'.memory.materialised = List.range binCount

theorem load_run_of_overfull {words : List MachineWord} (h : addressSpace < words.length) (m : Machine) :
    ∃ m', (load words).run m = .error (.noSuchAddress addressSpace) m' ∧ m.Cut words m' := by
  have hbeyond : addressSpace < 0 + words.length := by rwa [Nat.zero_add]
  have hwrite := writeAll_run_of_overfull (Nat.zero_le _) hbeyond
    { m with program := none, memory := .empty }
  have hlength : (words.take addressSpace).length = addressSpace := List.length_take_of_le h.le
  refine ⟨_, run_bind_error hwrite fun _ => reset, rfl, fun a => ?_, ?_⟩
  · have haddress : a.raw < addressSpace := a.raw_lt
    have hraw : a.raw < words.length := haddress.trans h
    have hread : (Memory.empty.fill 0 (words.take addressSpace)).read a = words[a.raw] := by
      rw [Memory.read_fill hlength.le, List.getElem?_take_of_lt haddress, List.getElem?_eq_getElem hraw,
        Option.getD_some]
    exact (List.getElem?_eq_getElem hraw).trans (congrArg some hread.symm)
  · exact (Memory.materialised_fill hlength.le).trans (by rw [hlength]; rfl)

end Machine

/-- Loading makes a machine the fresh machine with the words if there is an address for each of them. If there is
not, the first number without an address is refused, and the machine is left with the words before it under what
it was otherwise. -/
theorem load_whole_or_cut (words : List MachineWord) (m : Machine) :
    (words.length ≤ addressSpace ∧ ∃ fresh, Machine.ofWords words = .ok fresh ∧ fresh.Fresh words ∧
      (Machine.load words).run m = .ok () fresh) ∨
    (addressSpace < words.length ∧ ∃ m',
      (Machine.load words).run m = .error (.noSuchAddress addressSpace) m' ∧ m.Cut words m') := by
  obtain hlt | hle := Nat.lt_or_ge addressSpace words.length
  · exact .inr ⟨hlt, Machine.load_run_of_overfull hlt m⟩
  · exact .inl ⟨hle, _, Machine.ofWords_eq hle, Machine.fresh_fill hle, Machine.load_run hle m⟩

/-- A machine that has read a word and crashed is loaded with one word more than there are addresses. This fails,
and the machine, still crashed and with the word that it has read, has other code in its memory. -/
theorem load_overfull_leaves_code :
    ∃ start m m', Machine.ofWords [Word.wrap 7100000000] = .ok start ∧
      (Machine.run 10 [5]).run start = .ok () m ∧
      (Machine.load (List.replicate 10001 (Word.wrap 9900000000))).run m = .error (.noSuchAddress 10000) m' ∧
      m.state = .crashed ∧ m.register 0 = Word.wrap 5 ∧ m.memory.read Word.zero = Word.wrap 7100000000 ∧
      m'.state = .crashed ∧ m'.register 0 = Word.wrap 5 ∧ m'.memory.read Word.zero = Word.wrap 9900000000 ∧
      m' ≠ m := by
  have hstart : Machine.ofWords [Word.wrap 7100000000] = _ := Machine.ofWords_eq (by decide)
  have hrun := Machine.run_eq_left 10 [5] { Machine.empty with
    memory := Memory.empty.fill 0 [Word.wrap 7100000000] }
  generalize hm : Machine.left { Machine.empty with
    memory := Memory.empty.fill 0 [Word.wrap 7100000000] } (Machine.run 10 [5]) = m at hrun
  have hstate : m.state = .crashed := by
    rw [← hm]
    decide +kernel
  have hregister : m.register 0 = Word.wrap 5 := by
    rw [← hm]
    decide +kernel
  have hcode : m.memory.read Word.zero = Word.wrap 7100000000 := by
    rw [← hm]
    decide +kernel
  have hlength : addressSpace < (List.replicate 10001 (Word.wrap 9900000000 : MachineWord)).length := by
    rw [List.length_replicate]
    decide
  obtain ⟨m', hload, hcut⟩ := Machine.load_run_of_overfull hlength m
  have hcode' : m'.memory.read Word.zero = Word.wrap 9900000000 := by
    have hcell := hcut.cells Word.zero
    rw [List.getElem?_replicate_of_lt (by decide)] at hcell
    exact (Option.some.inj hcell).symm
  have hkept := hcut.kept
  refine ⟨_, m, m', hstart, hrun, hload, hstate, hregister, hcode, ?_, ?_, hcode', ?_⟩
  · rw [hkept]
    exact hstate
  · rw [hkept]
    exact hregister
  · rintro rfl
    exact absurd (hcode.symm.trans hcode') (by decide)

end Drama
