-- SUMMARY: What the standard instructions have in common: their shapes, modes and operations, and how an opcode finds them.
import Drama.Instruction.Standard

/-!
# The standard instructions in general

Every standard instruction is of one of six kinds, which `Instruction.Regular` lists. What encoding,
decoding and execution do with an instruction depends on its kind alone, so proofs about them go by cases
on it. An opcode finds the instruction that has it, since no two standard instructions share one.
-/

namespace Drama

/-! ## Sets of shapes -/

theorem Shape.bit_and_bit_ne_zero (s t : Shape) : (s.bit &&& t.bit != 0) = (t == s) := by
  cases s <;> cases t <;> rfl

namespace ShapeSet

/-- The bits gathered from a list are those it started from and those of its members. -/
private theorem foldl_or_meets (shapes : List Shape) (bits : Nat) (s : Shape) :
    (shapes.foldl (fun bits t => bits ||| t.bit) bits &&& s.bit != 0) =
      ((bits &&& s.bit != 0) || shapes.contains s) := by
  induction shapes generalizing bits with
  | nil => simp
  | cons t shapes ih =>
    have hor : ((bits ||| t.bit) &&& s.bit != 0) = ((bits &&& s.bit != 0) || (s == t)) := by
      rw [← t.bit_and_bit_ne_zero s, Nat.and_or_distrib_right, Bool.eq_iff_iff]
      simp only [bne_iff_ne, ne_eq, Nat.or_eq_zero_iff, Bool.or_eq_true]
      exact Decidable.not_and_iff_not_or_not
    rw [List.foldl_cons, ih, hor, List.contains_cons, Bool.or_assoc]

/-- A set made of a list contains the members of the list. -/
@[simp] theorem contains_ofList (shapes : List Shape) (s : Shape) :
    (ofList shapes).contains s = shapes.contains s := by
  have h := foldl_or_meets shapes 0 s
  rw [Nat.zero_and, bne_self_eq_false, Bool.false_or] at h
  exact h

/-- A set of one shape consists of that shape. -/
@[simp] theorem single?_bit (s : Shape) : (⟨s.bit⟩ : ShapeSet).single? = some s := by
  cases s <;> rfl

end ShapeSet

/-! ## Kinds of instructions -/

namespace Operation

/-- Operations on the machine alone. -/
def takesNothing : Operation → Bool
  | .ret | .read | .print | .halt => true
  | _ => false

/-- Operations on a register and a value. -/
def takesValue : Operation → Bool
  | .load | .arithmetic _ | .compare => true
  | _ => false

/-- Operations on the address where the machine goes on in any case. -/
def takesTarget : Operation → Bool
  | .jump | .call => true
  | _ => false

end Operation

/-- The kinds of standard instructions. Those that access memory only are the ones whose operand is an
address in its own right; those without an opcode move the top of the stack. -/
inductive Instruction.Regular : Instruction → Prop
  | plain {mnemonic : String} {opcode : Fin 100} {operation : Operation}
      (h : operation.takesNothing) :
      Regular ⟨mnemonic, .ofList [.nullary], false, .coded opcode operation none⟩
  | combining {mnemonic : String} {opcode : Fin 100} {operation : Operation}
      (h : operation.takesValue) :
      Regular ⟨mnemonic, .ofList [.registers, .registerAddress], false,
        .coded opcode operation none⟩
  | storing {mnemonic : String} {opcode : Fin 100} :
      Regular ⟨mnemonic, .ofList [.registerAddress], true, .coded opcode .store none⟩
  | jumping {mnemonic : String} {opcode : Fin 100} {operation : Operation}
      (h : operation.takesTarget) :
      Regular ⟨mnemonic, .ofList [.address], true, .coded opcode operation none⟩
  | branching {mnemonic : String} {opcode : Fin 100} :
      Regular ⟨mnemonic, .ofList [.conditionAddress], true, .coded opcode .branch none⟩
  | stacking {mnemonic target : String} {modification : Modification} {i : Instruction}
      (h : InstructionSet.standard.find? target = some i) (hcoded : i.opcode?.isSome)
      (hshapes : i.shapes.contains .registerAddress) :
      Regular ⟨mnemonic, .ofList [.register], false, .derived (.stack target modification) none⟩

theorem Instruction.form_of_opcode? {i : Instruction} {opcode : Fin 100}
    (h : i.opcode? = some opcode) : ∃ operation expansion, i.form = .coded opcode operation expansion := by
  unfold opcode? Form.opcode? at h
  split at h
  · rename_i hform
    cases h
    exact ⟨_, _, hform⟩
  · cases h

namespace InstructionSet

@[simp] theorem entries_ofEntries (entries : List Instruction) : (ofEntries entries).entries = entries := by
  rw [InstructionSet.entries, ofEntries, List.map_map]
  exact List.map_id _

@[simp] theorem mnemonics_ofEntries (entries : List Instruction) :
    (ofEntries entries).mnemonics = entries.map (·.mnemonic) := by
  rw [mnemonics, ofEntries, List.map_map]
  rfl

theorem regular_of_mem {i : Instruction} (h : i ∈ standard.entries) : i.Regular := by
  simp only [standard, entries_ofEntries, List.mem_cons, List.not_mem_nil, or_false] at h
  obtain rfl | rfl | rfl | rfl | rfl | rfl | rfl | rfl | rfl | rfl | rfl | rfl | rfl | rfl | rfl |
    rfl | rfl := h
  · exact .combining rfl
  · exact .storing
  · exact .combining rfl
  · exact .combining rfl
  · exact .combining rfl
  · exact .combining rfl
  · exact .combining rfl
  · exact .combining rfl
  · exact .jumping rfl
  · exact .branching
  · exact .jumping rfl
  · exact .plain rfl
  · exact .plain rfl
  · exact .plain rfl
  · exact .stacking rfl rfl rfl
  · exact .stacking rfl rfl rfl
  · exact .plain rfl

/-! ## Opcodes -/

/-- The last of the instructions with an opcode, or the one found before them if there is none. -/
private theorem foldl_withOpcode (code : Nat) (entries : List Instruction) (found : Option Instruction) :
    entries.foldl (fun found i => if i.opcode?.map Fin.val = some code then some i else found) found =
      (entries.reverse.find? fun i => i.opcode?.map Fin.val = some code).or found := by
  induction entries generalizing found with
  | nil => rfl
  | cons i entries ih =>
    rw [List.foldl_cons, ih, List.reverse_cons, List.find?_append, List.find?_singleton, Option.or_assoc]
    simp only [decide_eq_true_eq]
    split <;> rfl

/-- An opcode is looked for from the end. -/
theorem withOpcode?_eq_find? (set : InstructionSet) (code : Nat) :
    set.withOpcode? code = set.entries.reverse.find? fun i => i.opcode?.map Fin.val = some code :=
  (foldl_withOpcode code set.entries none).trans Option.or_none

/-- What an opcode finds is a member of the set with that opcode. -/
theorem mem_of_withOpcode? {set : InstructionSet} {code : Nat} {i : Instruction}
    (h : set.withOpcode? code = some i) :
    i ∈ set.entries ∧ i.opcode?.map Fin.val = some code := by
  rw [withOpcode?_eq_find?] at h
  exact ⟨List.mem_reverse.1 (List.mem_of_find?_eq_some h), by simpa using List.find?_some h⟩

/-- No two standard instructions share an opcode. -/
theorem withOpcode?_of_mem {i : Instruction} (h : i ∈ standard.entries) {code : Fin 100}
    (hcode : i.opcode? = some code) : standard.withOpcode? code.val = some i := by
  have htable : ∀ i ∈ standard.entries,
      i.opcode?.all (fun code => standard.withOpcode? code.val = some i) = true := by decide
  simpa [hcode] using htable i h

theorem row_of_find? {set : InstructionSet} {mnemonic : String} {i : Instruction}
    (h : set.find? mnemonic = some i) : (mnemonic, i) ∈ set.rows := by
  obtain ⟨before, after, hrows, -⟩ := List.lookup_eq_some_iff.1 h
  rw [hrows]
  exact List.mem_append_right _ List.mem_cons_self

theorem mem_of_find? {set : InstructionSet} {mnemonic : String} {i : Instruction}
    (h : set.find? mnemonic = some i) : i ∈ set.entries :=
  List.mem_map_of_mem (f := Prod.snd) (row_of_find? h)

theorem find?_eq_none_iff {set : InstructionSet} {mnemonic : String} :
    set.find? mnemonic = none ↔ mnemonic ∉ set.mnemonics := by
  rw [find?, List.lookup_eq_none_iff, mnemonics, List.mem_map]
  constructor
  · rintro h ⟨row, hrow, rfl⟩
    simpa using h row hrow
  · intro h row hrow
    exact bne_iff_ne.2 fun heq => h ⟨row, hrow, heq.symm⟩

end InstructionSet

end Drama
