-- SUMMARY: Laws of reading and writing memory, and which of its bins exist.
import Drama.Machine.Memory

/-!
# Laws of memory

A cell holds what was last written to it, whatever bins there are, and writing a cell leaves all others. The bin
of a cell exists once the cell has been written.
-/

namespace Drama

namespace Memory

variable (m : Memory) (w : MachineWord)

/-- An address is known by its bin and its place there. -/
theorem eq_of_place {a b : AddressWord} (hbin : binOf b = binOf a)
    (hoffset : offsetOf b = offsetOf a) : b = a := by
  have hbin' : b.raw / binSize = a.raw / binSize := congrArg Fin.val hbin
  have hoffset' : b.raw % binSize = a.raw % binSize := congrArg Fin.val hoffset
  apply Word.ext
  rw [← Nat.div_add_mod b.raw binSize, hbin', hoffset', Nat.div_add_mod]

theorem read_write (a : AddressWord) : (m.write a w).read a = w := by
  simp [read, write]

theorem read_write_of_ne {a b : AddressWord} (h : b ≠ a) :
    (m.write a w).read b = m.read b := by
  by_cases hbin : binOf b = binOf a
  · have hoffset : (offsetOf a).val ≠ (offsetOf b).val := fun heq =>
      h (eq_of_place hbin (Fin.ext heq.symm))
    simp only [read, write, hbin, Fin.getElem_fin, Vector.getElem_set_self,
      Vector.getElem_set_ne _ _ hoffset]
    cases m.bins[binOf a] with
    | none => simp
    | some bin => rfl
  · have hne : (binOf a).val ≠ (binOf b).val := fun heq => hbin (Fin.ext heq.symm)
    simp only [read, write, Fin.getElem_fin, Vector.getElem_set_ne _ _ hne]

theorem read_empty (a : AddressWord) : empty.read a = Word.zero := by
  simp [read, empty]

/-! ## Bins -/

theorem mem_materialised {i : Nat} : i ∈ m.materialised ↔ ∃ h : i < binCount, m.bins[i].isSome := by
  rw [materialised, List.mem_filter, List.mem_range, ← exists_prop]
  apply exists_congr
  intro hi
  simp [hi]

theorem pairwise_materialised : m.materialised.Pairwise (· < ·) :=
  List.Pairwise.filter _ List.pairwise_lt_range

theorem materialised_empty : empty.materialised = [] := by
  apply List.eq_nil_iff_forall_not_mem.2
  intro i hi
  obtain ⟨hlt, hsome⟩ := empty.mem_materialised.1 hi
  simp [empty] at hsome

/-- A write makes the bin of its address exist, and no other one. -/
theorem mem_materialised_write (a : AddressWord) {i : Nat} :
    i ∈ (m.write a w).materialised ↔ i = a.raw / binSize ∨ i ∈ m.materialised := by
  rw [mem_materialised, mem_materialised]
  by_cases hbin : i = (binOf a).val
  · subst hbin
    have hlt : a.raw / binSize < binCount := (binOf a).isLt
    simp [write, binOf, hlt]
  · have hbins (hi : i < binCount) : (m.write a w).bins[i] = m.bins[i] :=
      Vector.getElem_set_ne (binOf a).isLt hi (Ne.symm hbin)
    have hraw : i ≠ a.raw / binSize := hbin
    simp only [hbins, hraw, false_or]

end Memory

end Drama
