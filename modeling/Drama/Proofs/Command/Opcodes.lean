-- SUMMARY: Opcodes in sets that are made by definitions: which instruction an opcode finds, and what encoded commands decode to there.
import Drama.Proofs.Command.RoundTrip
import Drama.Proofs.Instruction.Registration

/-!
# Opcodes

Definitions are not compared by their opcodes. Where several instructions have the same one, it finds the one that
was defined last, and the word of a command of any of them is unpacked under that instruction. So opcodes identify
the instructions of a set exactly if no two share one.
-/

namespace Drama

/-! ## Opcodes and what they find -/

namespace InstructionSet

variable {set : InstructionSet} {opcode : Fin 100} {i : Instruction}

/-- The instruction has the opcode, and none of those after it does. -/
def IsLastWith (set : InstructionSet) (opcode : Fin 100) (i : Instruction) : Prop :=
  ∃ before after, set.entries = before ++ i :: after ∧ i.opcode? = some opcode ∧
    ∀ j ∈ after, j.opcode? ≠ some opcode

theorem withOpcode?_eq_some_iff : set.withOpcode? opcode.val = some i ↔ set.IsLastWith opcode i := by
  have hcode (j : Instruction) : j.opcode?.map Fin.val = some opcode.val ↔ j.opcode? = some opcode :=
    (Option.map_injective (f := Fin.val) fun _ _ => Fin.ext).eq_iff (b := some opcode)
  simp only [withOpcode?_eq_find?, hcode, List.find?_eq_some_iff_append, decide_eq_true_eq, Bool.not_eq_true',
    decide_eq_false_iff_not]
  constructor
  · rintro ⟨hi, after, before, hentries, hafter⟩
    refine ⟨before.reverse, after.reverse, ?_, hi, fun j hj => hafter j (List.mem_reverse.1 hj)⟩
    rw [List.reverse_eq_iff.1 hentries, List.reverse_append, List.reverse_cons, List.append_assoc]
    rfl
  · rintro ⟨before, after, hentries, hi, hafter⟩
    refine ⟨hi, after.reverse, before.reverse, ?_, fun j hj => hafter j (List.mem_reverse.1 hj)⟩
    rw [hentries, List.reverse_append, List.reverse_cons, List.append_assoc]
    rfl

/-- An opcode that an instruction has finds an instruction. -/
theorem exists_withOpcode? (hi : i ∈ set.entries) (hopcode : i.opcode? = some opcode) :
    ∃ last, set.withOpcode? opcode.val = some last := by
  rw [withOpcode?_eq_find?, ← Option.isSome_iff_exists, List.find?_isSome]
  refine ⟨i, List.mem_reverse.2 hi, ?_⟩
  rw [hopcode]
  exact decide_eq_true rfl

/-- A table that was made of the values of keys holds these values. -/
private theorem lookup_filterMap_pair {α β : Type} [BEq α] [LawfulBEq α] [DecidableEq α] (f : α → Option β)
    (keys : List α) (key : α) :
    (keys.filterMap fun k => (f k).map (k, ·)).lookup key = if key ∈ keys then f key else none := by
  induction keys with
  | nil => rfl
  | cons k keys ih =>
    cases hk : f k with
    | none =>
      rw [List.filterMap_cons_none (by rw [hk]; rfl), ih]
      by_cases heq : key = k
      · rw [heq, hk, ite_self, ite_self]
      · simp only [List.mem_cons, heq, false_or]
    | some value =>
      rw [List.filterMap_cons_some (by rw [hk]; rfl), List.lookup_cons, ih]
      by_cases heq : key = k
      · rw [heq, hk, if_pos List.mem_cons_self, beq_self_eq_true]
      · simp only [List.mem_cons, heq, false_or, beq_false_of_ne heq]

/-- The table of opcodes holds what they find. -/
theorem lookup_opcodeTable (set : InstructionSet) (code : Nat) :
    set.opcodeTable.lookup code = set.withOpcode? code := by
  rw [opcodeTable, lookup_filterMap_pair]
  split
  · rfl
  · rename_i hmissing
    cases hfound : set.withOpcode? code with
    | none => rfl
    | some i =>
      obtain ⟨hi, hcode⟩ := mem_of_withOpcode? hfound
      exact absurd (List.mem_eraseDups.2 (List.mem_filterMap.2 ⟨i, hi, hcode⟩)) hmissing

/-- Opcodes find the instructions that have them exactly if no two instructions share one. -/
theorem identifies_iff_nodup (hset : set.entries.Nodup) :
    (∀ i ∈ set.entries, ∀ opcode, i.opcode? = some opcode → set.withOpcode? opcode.val = some i) ↔
      (set.entries.filterMap (·.opcode?)).Nodup := by
  rw [List.Nodup, List.pairwise_filterMap]
  constructor
  · intro hfinds
    refine hset.imp_of_mem fun {i j} hi hj hne opcode hopcode opcode' hopcode' heq => hne ?_
    have hfound := hfinds i hi opcode hopcode
    rw [heq, hfinds j hj opcode' hopcode'] at hfound
    exact (Option.some.inj hfound).symm
  · intro hdistinct i hi opcode hopcode
    obtain ⟨before, after, hentries⟩ := List.append_of_mem hi
    rw [hentries, List.pairwise_append, List.pairwise_cons] at hdistinct
    obtain ⟨-, ⟨hafter, -⟩, -⟩ := hdistinct
    exact withOpcode?_eq_some_iff.2 ⟨before, after, hentries, hopcode,
      fun j hj hshared => hafter j hj opcode hopcode opcode hshared rfl⟩

end InstructionSet

/-! ## Commands of a single shape -/

/-- An instruction with a single shape unpacks what was packed of it, except for digits of a base that do not go
into an address. -/
theorem Instruction.unpack_of_single_shape {i : Instruction} {operands : Operands}
    (haccepted : i.shapes.contains operands.shape = true)
    (hsingle : ∀ s, i.shapes.contains s = true → s = operands.shape)
    (haccesses : i.memoryOnly = true → ∀ mode ∈ operands.mode?, mode.accessesMemory = true)
    (hrange : operands.InRange) {opcode : Nat} {w : MachineWord}
    (hw : w.fields = operands.fields opcode i.memoryOnly) : i.unpack w = .ok operands.narrow := by
  have hcontains (s : Shape) : i.shapes.contains s = decide (s = operands.shape) :=
    Bool.eq_iff_iff.2 ⟨fun h => decide_eq_true (hsingle s h), fun h => of_decide_eq_true h ▸ haccepted⟩
  have hregister : Field.register.get w = operands.fields opcode i.memoryOnly .register := congrFun hw .register
  cases operands with
  | nullary => simp [unpack, hcontains, Operands.shape, Operands.narrow]
  | register r =>
    have hr : (Field.register.get w : Int) = r := hregister ▸ hrange.toNat_cast
    simp [unpack, hcontains, Operands.shape, Operands.narrow, hr]
  | registers r s =>
    have hpair : w.isRegisterPair = true :=
      Word.isRegisterPair_iff.2 ⟨congrFun hw .addressingMode, congrFun hw .indexingMode, congrFun hw .address⟩
    have hindex : Field.indexRegister.get w = s.toNat := congrFun hw .indexRegister
    have hr : (Field.register.get w : Int) = r := hregister ▸ hrange.1.toNat_cast
    have hs : (Field.indexRegister.get w : Int) = s := hindex ▸ hrange.2.toNat_cast
    simp [unpack, hcontains, Operands.shape, Operands.narrow, hpair, hr, hs]
  | address mode o =>
    have hunpack := unpackAddress_of_fields hw (fun honly => haccesses honly mode rfl) hrange
    simp [unpack, hunpack, addressOperands, hcontains, Operands.shape, Operands.narrow]
  | registerAddress r mode o =>
    have hunpack := unpackAddress_of_fields hw (fun honly => haccesses honly mode rfl) hrange.2
    simp [unpack, hunpack, addressOperands, hcontains, Operands.shape, Operands.narrow, hrange.1.toNat_cast]
  | conditionAddress c mode o =>
    have hunpack := unpackAddress_of_fields hw (fun honly => haccesses honly mode rfl) hrange
    simp [unpack, hunpack, addressOperands, hcontains, Operands.shape, Operands.narrow, Condition.ofCode?_code]

/-! ## Encoded commands -/

open InstructionSet in
/-- In a set that was made by definitions, opcodes find the instructions that have them exactly if no two of these
share one. In any case an opcode finds the last instruction with it, and whatever was encoded with this opcode is
decoded as a command of that instruction. The commands of that one come back if it has a single shape. -/
theorem decode_encode_of_opcode (ds : List Definition) :
    ((∀ i ∈ (ofDefinitions ds).entries, ∀ opcode, i.opcode? = some opcode →
        (ofDefinitions ds).opcodeTable.lookup opcode.val = some i) ↔
      ((ofDefinitions ds).entries.filterMap (·.opcode?)).Nodup) ∧
    ∀ i ∈ (ofDefinitions ds).entries, ∀ opcode, i.opcode? = some opcode →
      ∃ last, (ofDefinitions ds).opcodeTable.lookup opcode.val = some last ∧
        (ofDefinitions ds).IsLastWith opcode last ∧
        ∀ mode arguments c, (∀ a ∈ arguments, a.InRange) → i.resolve mode arguments = .ok c →
          ∃ w : MachineWord, c.encode (ofDefinitions ds) = .ok w ∧
            (∀ c', (ofDefinitions ds).decode w = .ok c' → c'.instruction = last) ∧
            (i = last → (∃! s, i.shapes.contains s = true) →
              (ofDefinitions ds).decode w = .ok ⟨i, c.operands.narrow⟩) := by
  simp only [lookup_opcodeTable]
  refine ⟨identifies_iff_nodup (madeBy_ofDefinitions ds).nodup_entries, fun i hi opcode hopcode => ?_⟩
  obtain ⟨last, hlast⟩ := exists_withOpcode? hi hopcode
  refine ⟨last, hlast, withOpcode?_eq_some_iff.1 hlast, fun mode arguments c hargs hresolve => ?_⟩
  obtain ⟨rfl, haccepted, haccesses, hrange⟩ := Instruction.resolve_accepted hargs hresolve
  obtain ⟨w, hencode, hw⟩ := Command.encode_ok hopcode hrange (ofDefinitions ds)
  have hfound : (ofDefinitions ds).withOpcode? (Field.opcode.get w) = some last := by
    rw [Operands.opcode_of_fields hw, hlast]
  refine ⟨w, hencode, fun c' hdecode => ?_, ?_⟩
  · have hfound' := (of_decode hdecode).1
    rw [hfound] at hfound'
    exact (Option.some.inj hfound').symm
  · rintro rfl ⟨s, -, hunique⟩
    refine decode_eq hfound (Instruction.unpack_of_single_shape haccepted (fun t ht => ?_) haccesses hrange hw)
    rw [hunique t ht, hunique _ haccepted]

/-- Two definitions of instructions that halt the machine, with the same opcode. -/
def Definition.rivals : List Definition :=
  [['_', 'o', 'n', 'e'], ['_', 't', 'w', 'o']].map fun name =>
    ⟨name, .code 5, some (.ofList [.nullary]), false, some .halt, none⟩

open InstructionSet in
/-- The second of two instructions with the same opcode gets its command back. -/
theorem decode_encode_of_second_rival :
    ∃ i ∈ (ofDefinitions Definition.rivals).entries, i.mnemonic = "TWO" ∧ i.opcode? = some 5 ∧
      ∃ c, i.resolve none [] = .ok c ∧ ∃ w : MachineWord, c.encode (ofDefinitions Definition.rivals) = .ok w ∧
        (ofDefinitions Definition.rivals).decode w = .ok c := by
  refine ⟨⟨"TWO", .ofList [.nullary], false, .coded 5 .halt none⟩, by decide, rfl, rfl, _, rfl, ?_⟩
  obtain ⟨-, hcommands⟩ := decode_encode_of_opcode Definition.rivals
  obtain ⟨last, hlast, -, hwords⟩ := hcommands
    ⟨"TWO", .ofList [.nullary], false, .coded 5 .halt none⟩ (by decide) 5 rfl
  obtain ⟨w, hencode, -, hdecode⟩ := hwords none [] _ nofun rfl
  have htwo : last = ⟨"TWO", .ofList [.nullary], false, .coded 5 .halt none⟩ := by
    cases hlast
    rfl
  refine ⟨w, hencode, hdecode htwo.symm ⟨.nullary, rfl, fun s hs => ?_⟩⟩
  cases s <;> first | rfl | cases hs

open InstructionSet in
/-- The first one gets the command of the second instead. -/
theorem command_of_first_rival_lost :
    empty.accepted Definition.rivals = Definition.rivals ∧
      ∃ i ∈ (ofDefinitions Definition.rivals).entries, i.opcode? = some 5 ∧
        (∃! s, i.shapes.contains s = true) ∧
        ∃ j ∈ (ofDefinitions Definition.rivals).entries, j.mnemonic ≠ i.mnemonic ∧
          (ofDefinitions Definition.rivals).opcodeTable.lookup 5 = some j ∧
          ∃ c, i.resolve none [] = .ok c ∧
            ∃ w : MachineWord, c.encode (ofDefinitions Definition.rivals) = .ok w ∧
              (ofDefinitions Definition.rivals).decode w = .ok ⟨j, .nullary⟩ := by
  refine ⟨by decide, ⟨"ONE", .ofList [.nullary], false, .coded 5 .halt none⟩, by decide, rfl,
    ⟨.nullary, rfl, fun s hs => ?_⟩,
    ⟨"TWO", .ofList [.nullary], false, .coded 5 .halt none⟩, by decide, by decide, rfl, _, rfl, _, rfl, rfl⟩
  cases s <;> first | rfl | cases hs

end Drama
