-- SUMMARY: Commands with their operand based elsewhere: the words differ in their address digits only.
import Drama.Proofs.Command.Encoding

/-!
# Displacement

The base of an operand reaches the word of a command through the address field only, cut down to four digits.
So where a base is displaced, the word has its address digits displaced, and all its other digits stay.
-/

namespace Drama

/-- The word with a number added to its address digits modulo 10000. -/
def Word.displace (w : MachineWord) (d : Int) : MachineWord :=
  w.withDigits Field.address.range (wrap (Field.address.get w + d) : AddressWord).raw (raw_lt _)

def Operand.displace (o : Operand) (d : Int) : Operand := { o with base := o.base + d }

/-- The operands with a number added to the base of the one that has a base. -/
def Operands.displace (operands : Operands) (d : Int) : Operands :=
  match operands with
  | .address mode o => .address mode (o.displace d)
  | .registerAddress r mode o => .registerAddress r mode (o.displace d)
  | .conditionAddress c mode o => .conditionAddress c mode (o.displace d)
  | .nullary | .register _ | .registers _ _ => operands

def Command.displace (c : Command) (d : Int) : Command :=
  { c with operands := c.operands.displace d }

/-! ## Fields -/

theorem Word.fields_displace (w : MachineWord) (d : Int) :
    (w.displace d).fields =
      Function.update w.fields .address (wrap (w.fields .address + d) : AddressWord).raw :=
  w.fields_withDigits .address (raw_lt _)

theorem Operand.fields_displace (o : Operand) (d : Int) (opcode : Nat) (mode : AddressingMode)
    (memoryOnly : Bool) (register : Nat) :
    (o.displace d).fields opcode mode memoryOnly register =
      Function.update (o.fields opcode mode memoryOnly register) .address
        (Word.wrap (o.fields opcode mode memoryOnly register .address + d) : AddressWord).raw := by
  have hbase : (Word.wrap ((Word.wrap o.base : AddressWord).raw + d) : AddressWord) =
      Word.wrap (o.base + d) := Word.wrap_raw_add o.base d
  rw [fields, fields, Field.update_address]
  simp only [Field.assign, hbase]
  rfl

namespace Operands

variable {operands : Operands} (d : Int)

theorem shape_displace : (operands.displace d).shape = operands.shape := by cases operands <;> rfl

theorem inRange_displace (h : operands.InRange) : (operands.displace d).InRange := by
  cases operands <;> exact h

/-- The base of an operand reaches no other field than the address. -/
theorem fields_displace (h : operands.operand?.isSome) (opcode : Nat) (memoryOnly : Bool) :
    (operands.displace d).fields opcode memoryOnly =
      Function.update (operands.fields opcode memoryOnly) .address
        (Word.wrap (operands.fields opcode memoryOnly .address + d) : AddressWord).raw := by
  cases operands with
  | nullary | register | registers => cases h
  | address | registerAddress | conditionAddress => exact Operand.fields_displace ..

end Operands

/-! ## Commands -/

theorem Instruction.of_resolve {i : Instruction} {mode : Option AddressingMode}
    {arguments : List Argument} {c : Command} (h : i.resolve mode arguments = .ok c) :
    c.instruction = i ∧ Operands.ofArguments? (mode.getD .direct) arguments = some c.operands := by
  simp only [resolve] at h
  split at h
  · cases h
  · rename_i operands hoperands
    split_ifs at h <;> cases h <;> exact ⟨rfl, hoperands⟩

/-- An instruction takes operands wherever they are based. -/
theorem Instruction.resolve_displace {i : Instruction} {mode : Option AddressingMode}
    {arguments arguments' : List Argument} {c : Command} {d : Int}
    (h : i.resolve mode arguments = .ok c)
    (h' : Operands.ofArguments? (mode.getD .direct) arguments' = some (c.operands.displace d)) :
    i.resolve mode arguments' = .ok (c.displace d) := by
  obtain ⟨rfl, hoperands⟩ := of_resolve h
  simp only [resolve, hoperands] at h
  simp only [resolve, h', Operands.shape_displace]
  split_ifs at h ⊢ <;> rfl

theorem Command.Valid.exists_opcode {c : Command} (h : c.Valid) (hoperand : c.operands.operand?.isSome) :
    ∃ opcode, c.instruction.opcode? = some opcode := by
  cases h.regular with
  | stacking => cases hoperand
  | plain | pairing | combining | storing | jumping | branching => exact ⟨_, rfl⟩

/-- The word of a command whose base is displaced. -/
theorem Command.encode_displace {c : Command} (hc : c.Valid) (hoperand : c.operands.operand?.isSome)
    {w : MachineWord} (h : c.encode .standard = .ok w) (d : Int) :
    (c.displace d).encode .standard = .ok (w.displace d) := by
  obtain ⟨opcode, hopcode⟩ := hc.exists_opcode hoperand
  obtain ⟨v, hv, hfields⟩ := Command.encode_ok hopcode hc.inRange .standard
  cases h.symm.trans hv
  obtain ⟨w', hw', hfields'⟩ : ∃ w' : MachineWord, (c.displace d).encode .standard = .ok w' ∧
      w'.fields = (c.operands.displace d).fields opcode c.instruction.memoryOnly :=
    Command.encode_ok (c := c.displace d) hopcode (Operands.inRange_displace d hc.inRange) .standard
  have hword : w' = w.displace d := by
    apply Word.fields_injective
    rw [hfields', Operands.fields_displace d hoperand, Word.fields_displace, hfields]
  rw [hw', hword]

end Drama
