-- SUMMARY: Instruction sets that are made by definitions: which definitions are rejected, and what the accepted ones leave in the set.
import Drama.Instruction.Definition
import Drama.Proofs.Instruction.Standard
import Mathlib.Data.List.Forall2
import Mathlib.Data.List.Nodup

/-!
# Registration

A definition is rejected exactly if its mnemonic is taken or something that its form needs is missing or out of
range, and then it has done nothing to the set. So after any sequence of definitions the set holds one instruction
for each definition that was accepted, in this order, and each under its mnemonic. What is wrong is told, except
that an opcode of too many digits cannot be (`Definition.Overlong`).
-/

namespace Drama

namespace Definition

variable {d : Definition} {i : Instruction} {set : InstructionSet}

/-! ## Single definitions -/

/-- What a definition lacks, whatever set it is for. -/
inductive Lacks (d : Definition) : Error → Prop
  | opcode (h : d.opcode = .missing) : Lacks d (.missingOpcode d.mnemonic)
  | shapes (h : d.shapes = none) : Lacks d (.missingShapes d.mnemonic)
  | expansion (h : d.opcode = .without) (hexpansion : d.expansion = none) :
      Lacks d (.missingExpansion d.mnemonic)
  | operation {code : Int} (h : d.opcode = .code code) (hoperation : d.operation = none) :
      Lacks d (.missingOperation d.mnemonic)
  | range {code : Int} (h : d.opcode = .code code) (hrange : ¬(0 ≤ code ∧ code ≤ 99)) :
      Lacks d (.ofOpcode d.mnemonic code)

/-- Why a set does not take a definition. -/
inductive RejectedBy (set : InstructionSet) (d : Definition) : Error → Prop
  | taken (h : d.mnemonic ∈ set.mnemonics) : RejectedBy set d (.alreadyDefined d.mnemonic)
  | lacking {error : Error} (h : d.Lacks error) : RejectedBy set d error

/-- The opcode has too many digits to be written. -/
def Overlong (d : Definition) : Prop :=
  ∃ code, d.opcode = .code code ∧ Numeral.writeBound ≤ code.natAbs

/-- The error is a reason to reject the definition, and it is told, unless all that is wrong is an opcode which is too
long for that. -/
structure Refused (set : InstructionSet) (d : Definition) (error : Error) : Prop where
  reason : d.RejectedBy set error
  told : error.exits = true ∨ d.Overlong ∧ ∀ other, d.RejectedBy set other → other = error

/-- The instruction that a definition defines: it has the name without its mark in capitals, and the operation or
the expansion of the definition, whichever it needs. -/
structure Defines (d : Definition) (i : Instruction) : Prop where
  mnemonic : i.mnemonic = String.ofList (Text.toUpper (d.name.drop 1))
  shapes : d.shapes = some i.shapes
  memoryOnly : i.memoryOnly = d.memoryOnly
  form : (∃ (code : Fin 100) (operation : Operation), d.opcode = .code code.val ∧
      d.operation = some operation ∧ i.form = .coded code operation d.expansion) ∨
    (∃ expansion, d.opcode = .without ∧ d.expansion = some expansion ∧
      i.form = .derived expansion d.operation)

theorem Error.ofOpcode_of_writable {mnemonic : String} {code : Int} (h : code.natAbs < Numeral.writeBound) :
    ofOpcode mnemonic code = .opcodeOutOfRange mnemonic code := by
  unfold ofOpcode
  rw [Numeral.write_of_lt h]

/-- Two digits are the opcode of an instruction, and other numbers are not. -/
theorem form_of_code {code : Int} {operation : Operation} (hcode : d.opcode = .code code)
    (hoperation : d.operation = some operation) :
    (∃ opcode : Fin 100, (opcode.val : Int) = code ∧ d.form = .ok (.coded opcode operation d.expansion)) ∨
      ¬(0 ≤ code ∧ code ≤ 99) ∧ d.form = .error (.ofOpcode d.mnemonic code) := by
  rw [form, hcode, hoperation]
  by_cases hrange : 0 ≤ code ∧ code.toNat < 100
  · exact .inl ⟨⟨code.toNat, hrange.2⟩, Int.toNat_of_nonneg hrange.1, dif_pos hrange⟩
  · refine .inr ⟨by omega, ?_⟩
    simp only [dif_neg hrange]

/-- An opcode that is out of range is told unless it is too long. -/
theorem Error.exits_ofOpcode (mnemonic : String) (code : Int) :
    (ofOpcode mnemonic code).exits = true ∨ Numeral.writeBound ≤ code.natAbs := by
  obtain hwritable | hlong := Nat.lt_or_ge code.natAbs Numeral.writeBound
  · rw [ofOpcode_of_writable hwritable]
    exact .inl rfl
  · exact .inr hlong

/-- A definition that lacks nothing defines an instruction. -/
theorem instruction_cases (d : Definition) :
    (∃ i, d.instruction = .ok i ∧ d.Defines i ∧ ∀ error, ¬d.Lacks error) ∨
      ∃ error, d.instruction = .error error ∧ d.Lacks error ∧
        (error.exits = true ∨ d.Overlong ∧ ∀ other, d.Lacks other → other = error) := by
  obtain ⟨name, opcode, shapes, memoryOnly, operation, expansion⟩ := d
  cases opcode with
  | missing => exact .inr ⟨_, rfl, .opcode rfl, .inl rfl⟩
  | without =>
    cases shapes with
    | none => exact .inr ⟨_, rfl, .shapes rfl, .inl rfl⟩
    | some shapes =>
      cases expansion with
      | none => exact .inr ⟨_, rfl, .expansion rfl rfl, .inl rfl⟩
      | some expansion =>
        refine .inl ⟨_, rfl, ⟨rfl, rfl, rfl, .inr ⟨expansion, rfl, rfl, rfl⟩⟩, ?_⟩
        rintro _ (_ | _ | _ | _ | _) <;> contradiction
  | code code =>
    cases shapes with
    | none => exact .inr ⟨_, rfl, .shapes rfl, .inl rfl⟩
    | some shapes =>
      cases operation with
      | none => exact .inr ⟨_, rfl, .operation rfl rfl, .inl rfl⟩
      | some operation =>
        obtain ⟨opcode, rfl, hform⟩ | ⟨hrange, hform⟩ :=
          form_of_code (d := ⟨name, .code code, some shapes, memoryOnly, some operation, expansion⟩) rfl rfl
        · refine .inl ⟨⟨_, shapes, memoryOnly, .coded opcode operation expansion⟩, ?_,
            ⟨rfl, rfl, rfl, .inl ⟨opcode, operation, rfl, rfl, rfl⟩⟩, ?_⟩
          · rw [instruction, hform]
            rfl
          · rintro _ (h | h | h | ⟨h, hoperation⟩ | ⟨h, hrange⟩)
            · cases h
            · cases h
            · cases h
            · cases hoperation
            · cases h
              exact hrange (by omega)
        · refine .inr ⟨_, ?_, .range rfl hrange, ?_⟩
          · rw [instruction, hform]
            rfl
          · refine (Error.exits_ofOpcode _ code).imp_right fun hlong => ⟨⟨code, rfl, hlong⟩, ?_⟩
            rintro _ (h | h | h | ⟨h, hoperation⟩ | ⟨h, -⟩)
            · cases h
            · cases h
            · cases h
            · cases hoperation
            · cases h
              rfl

end Definition

namespace InstructionSet

open Definition

variable {set : InstructionSet} {taken : List Definition} {d : Definition} {i : Instruction}

theorem insert_of_new {mnemonic : String} (h : mnemonic ∉ set.mnemonics) :
    set.insert mnemonic i = ⟨set.rows ++ [(mnemonic, i)]⟩ := by
  rw [insert, if_neg (mt List.contains_iff_mem.1 h)]

/-- The mnemonic is looked for first, and the set is touched last. -/
theorem define_run (set : InstructionSet) (d : Definition) :
    (define d).run set =
      if d.mnemonic ∈ set.mnemonics then .error (.alreadyDefined d.mnemonic) set
      else
        match d.instruction with
        | .ok i => .ok i (set.insert d.mnemonic i)
        | .error error => .error error set := by
  show (ite (set.mnemonics.contains d.mnemonic = true) _ _ : InstructionSetM Instruction).run set = _
  by_cases htaken : d.mnemonic ∈ set.mnemonics
  · rw [if_pos htaken, if_pos (List.contains_iff_mem.2 htaken)]
    rfl
  · rw [if_neg htaken, if_neg (mt List.contains_iff_mem.1 htaken)]
    cases d.instruction with
    | ok i => rfl
    | error error => rfl

/-- A set takes a definition behind its others, or it refuses the definition and is left as it was. -/
theorem define_cases (set : InstructionSet) (d : Definition) :
    (∃ i, (define d).run set = .ok i ⟨set.rows ++ [(d.mnemonic, i)]⟩ ∧ d.Defines i ∧
        ∀ error, ¬d.RejectedBy set error) ∨
      ∃ error, (define d).run set = .error error set ∧ d.Refused set error := by
  rw [define_run]
  by_cases htaken : d.mnemonic ∈ set.mnemonics
  · exact .inr ⟨_, if_pos htaken, .taken htaken, .inl rfl⟩
  rw [if_neg htaken]
  obtain ⟨i, hi, hdefines, hlacks⟩ | ⟨error, herror, hlacks, htold⟩ := d.instruction_cases
  · refine .inl ⟨i, ?_, hdefines, ?_⟩
    · rw [hi, ← insert_of_new htaken]
    · rintro error (htaken' | hlacks')
      · exact htaken htaken'
      · exact hlacks error hlacks'
  · refine .inr ⟨error, ?_, .lacking hlacks, htold.imp_right fun ⟨hlong, honly⟩ => ⟨hlong, ?_⟩⟩
    · rw [herror]
    · rintro other (htaken' | hlacks')
      · exact absurd htaken' htaken
      · exact honly other hlacks'

/-- The set that definitions leave, each of them tried on what the one before it has left. -/
def defineAll (set : InstructionSet) : List Definition → InstructionSet
  | [] => set
  | d :: later =>
    match (define d).run set with
    | .ok _ left => left.defineAll later
    | .error _ left => left.defineAll later

/-- The definitions that are taken on the way. -/
def accepted (set : InstructionSet) : List Definition → List Definition
  | [] => []
  | d :: later =>
    match (define d).run set with
    | .ok _ left => d :: left.accepted later
    | .error _ left => left.accepted later

/-- What holds of a set that was made by accepting definitions in order. -/
structure MadeBy (set : InstructionSet) (taken : List Definition) : Prop where
  rows : taken.Forall₂ (fun d row => row.1 = d.mnemonic ∧ d.Defines row.2) set.rows
  nodup : set.mnemonics.Nodup

/-- One more definition that is taken. -/
theorem MadeBy.snoc (h : set.MadeBy taken) (hdefines : d.Defines i) (hnew : d.mnemonic ∉ set.mnemonics) :
    MadeBy ⟨set.rows ++ [(d.mnemonic, i)]⟩ (taken ++ [d]) where
  rows := List.rel_append h.rows (.cons ⟨rfl, hdefines⟩ .nil)
  nodup := by
    rw [mnemonics, List.map_append, List.nodup_append]
    refine ⟨h.nodup, List.pairwise_singleton _ _, ?_⟩
    rintro _ hmem _ hlast rfl
    obtain rfl := List.mem_singleton.1 hlast
    exact hnew hmem

/-- Each step of a sequence of definitions keeps what holds of the set. -/
theorem MadeBy.defineAll (h : set.MadeBy taken) (ds : List Definition) :
    (set.defineAll ds).MadeBy (taken ++ set.accepted ds) := by
  induction ds generalizing set taken with
  | nil => rwa [accepted, List.append_nil]
  | cons d ds ih =>
    rw [InstructionSet.defineAll, accepted]
    obtain ⟨i, hdefine, hdefines, hrejected⟩ | ⟨error, hdefine, -⟩ := set.define_cases d
    · have hnew : d.mnemonic ∉ set.mnemonics := fun htaken => hrejected _ (.taken htaken)
      have hgrown := ih (h.snoc hdefines hnew)
      rw [hdefine]
      rwa [List.append_assoc] at hgrown
    · rw [hdefine]
      exact ih h

/-- The set that definitions make from nothing. -/
def ofDefinitions (ds : List Definition) : InstructionSet := empty.defineAll ds

theorem madeBy_ofDefinitions (ds : List Definition) : (ofDefinitions ds).MadeBy (empty.accepted ds) :=
  MadeBy.defineAll ⟨.nil, List.nodup_nil⟩ ds

/-- Each instruction stands under its own mnemonic. -/
theorem MadeBy.mnemonic_eq (h : set.MadeBy taken) : ∀ row ∈ set.rows, row.2.mnemonic = row.1 := by
  intro row hrow
  obtain ⟨place, hplace, rfl⟩ := List.getElem_of_mem hrow
  obtain ⟨hkey, hdefines⟩ := h.rows.get (h.rows.length_eq ▸ hplace) hplace
  exact hdefines.mnemonic.trans hkey.symm

theorem MadeBy.nodup_entries (h : set.MadeBy taken) : set.entries.Nodup := by
  have hmnemonics : set.entries.map (·.mnemonic) = set.mnemonics := by
    rw [entries, mnemonics, List.map_map]
    exact List.map_congr_left h.mnemonic_eq
  exact List.Nodup.of_map _ (hmnemonics ▸ h.nodup)

end InstructionSet

end Drama
